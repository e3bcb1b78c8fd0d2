import FailureWire.Proofs.Conversion.Emission
import FailureWire.Proofs.Conversion.Reception
import FailureWire.Proofs.Wire.View

/-!
# Stored failures

An error that was decoded keeps the wire failure that it was decoded from. A converter with `reuseStoredFailure` sends
it again as it is, be the error sent on its own, as a cause of the decoded error, or inside errors that were raised
around it (`stored_failures_survive`).
-/

namespace FailureWire

/-! ## Errors of one's own -/

/-- A value is a typed error that was not decoded from a wire failure, and the codec can encode what a
converter has it encode of the error. -/
structure ConverterOptions.Wraps (o : ConverterOptions) (g : Graph) (v : Value) : Prop where
  error : ∃ e, g.errorOf? v = some e ∧ (e.map .existing).Typed g ∧
    ∀ f, e.failure? = some f → f.stored = .undefined ∧
      ∀ x ∈ (f.kind.map .existing).items g, ∃ p, o.codec.encodeValue g x = .ok p
  attributes : o.encodeCommonAttributes = true →
    ∀ message stackTrace, ∃ p, o.codec.encodeAttributes g (.text message) (.text stackTrace) = .ok p

/-- A wire failure reads as the link that is derived from an error. -/
def ConverterOptions.Derives (o : ConverterOptions) (g g' : Graph) (v w : Value) : Prop :=
  ∃ e link cause, g.toFailure o.frames v = .ok e ∧ o.linkOf g e = .ok link ∧ g'.ShowsLink g.size link cause w

namespace ConverterOptions

variable {o : ConverterOptions} {g g' : Graph} {v link : Value}

/-- An error of one's own can be sent, and has no failure to be sent in its place. -/
theorem Wraps.linkOf (h : o.Wraps g v) :
    ∃ e link, g.toFailure o.frames v = .ok e ∧ o.linkOf g e = .ok link ∧ o.storedOf e = none := by
  obtain ⟨⟨e, he, htyped, hfields⟩, hattributes⟩ := h
  obtain ⟨e', hmade, htyped', f, hf, hstored, hkind⟩ := Graph.toFailure_of_typed he htyped
  have hitems : ∀ x ∈ f.kind.items g, ∃ p, o.codec.encodeValue g x = .ok p := by
    cases hfailure : e.failure? with
    | some f' =>
      rw [hkind, hfailure]
      exact (hfields f' hfailure).2
    | none =>
      rw [hkind, hfailure]
      simp
  have hunstored : f.stored = .undefined := by
    rw [hstored]
    cases hfailure : e.failure? with
    | some f' => exact (hfields f' hfailure).1
    | none => rfl
  obtain ⟨payloads, hpayloads⟩ := exists_forall₂ hitems
  obtain ⟨message, hmessage⟩ := htyped'.message
  obtain ⟨trace, htrace⟩ := stackTraceOf_isText (o := o) htyped'.worded
  obtain ⟨link, hlink⟩ := exists_linkOf htyped' hf hpayloads fun ho => by
    rw [hmessage, htrace]
    exact hattributes ho message trace
  exact ⟨e', link, hmade, hlink, storedOf_of_undefined hf hunstored⟩

theorem Wraps.isMissing (h : o.Wraps g v) : v.isMissing = false := by
  obtain ⟨⟨e, he, -⟩, -⟩ := h
  exact Graph.isMissing_of_errorOf? he

/-! ## Errors that keep a failure -/

theorem storedOf_of_keeps (hreuse : o.reuseStoredFailure = true) (h : g.Keeps v link) :
    ∃ e, g.toFailure o.frames v = .ok e ∧ o.storedOf e = some link := by
  obtain ⟨hlink, e, f, he, hf, rfl⟩ := h
  refine ⟨e.map .existing, Graph.toFailure_of_failure he (by rw [hf]; rfl), ?_⟩
  have hdefined : f.stored.defined? = some f.stored := by
    cases hs : f.stored <;> simp_all [Value.defined?, Value.isMissing]
  simp [storedOf, hreuse, hf, hdefined]

theorem toFailure_of_keeps {vs links : List Value} (h : List.Forall₂ g.Keeps vs links) :
    ∀ x ∈ vs, ∃ e, g.toFailure o.frames x = .ok e := by
  intro x hx
  obtain ⟨link, -, -, e, f, he, hf, -⟩ := exists_of_forall₂ h.flip hx
  exact ⟨_, Graph.toFailure_of_failure he (by rw [hf]; rfl)⟩

/-- **An error that keeps a failure is sent as the failure.** -/
theorem errorToFailure_of_keeps (hreuse : o.reuseStoredFailure = true) {vs links : List Value}
    (hchain : g.CauseChain v (v :: vs)) (hkeeps : List.Forall₂ g.Keeps (v :: vs) (link :: links)) :
    (o.errorToFailure g v).outcome.1 = .ok (g, link) := by
  obtain ⟨hv, hvs⟩ := List.forall₂_cons.1 hkeeps
  obtain ⟨e, he, hstored⟩ := storedOf_of_keeps hreuse hv
  obtain ⟨n, hn⟩ : ∃ n, max 1 (o.maxCauseDepth.linksIn g) = n + 1 := ⟨_, (Nat.sub_add_cancel (by omega)).symm⟩
  obtain ⟨rest, hrest⟩ := exists_forall₂ fun x hx => toFailure_of_keeps hvs x (List.mem_of_mem_take hx)
  have herrors : (linksOrSelf (g.walk o.maxCauseDepth v) v).mapM (g.toFailure o.frames) = .ok (e :: rest) := by
    rw [linksOrSelf_walk hchain (List.cons_ne_nil _ _), hn, List.take_succ_cons]
    exact FailureWire.Except.mapM_eq_ok.2 (.cons he hrest)
  have hemit : o.emitErrors g v ([] ++ e :: rest) = .ok ⟨[], some link⟩ :=
    emitErrors_append (by simp) hstored hv.1 rfl
  rw [errorToFailure_of_emitErrors herrors hemit]
  exact congrArg Except.ok (g.add_existing link)

/-- **Errors around one that keeps a failure are sent as links that end in the failure.** -/
theorem errorToFailure_of_wraps (hreuse : o.reuseStoredFailure = true) {vs links xs : List Value} {x : Value}
    (hlink : link.isTruthy = true) (hchain : g.CauseChain v (v :: vs))
    (hkeeps : List.Forall₂ g.Keeps (v :: vs) (link :: links)) (hne : xs ≠ [])
    (hdepth : o.maxCauseDepth.Admits (xs.length + 1)) (hpath : g.CausePath x (xs ++ [v]))
    (hxs : ∀ y ∈ xs, o.Wraps g y) :
    ∃ g' w ws, (o.errorToFailure g x).outcome.1 = .ok (g', w) ∧ g'.CausePath w (ws ++ [link]) ∧
      List.Forall₂ (o.Derives g g') xs ws := by
  obtain ⟨hv, hvs⟩ := List.forall₂_cons.1 hkeeps
  obtain ⟨e, he, hstored⟩ := storedOf_of_keeps hreuse hv
  have hlead : v = g.causeAt xs.length x := hpath.getElem? (by simp)
  have hwhole : g.CauseChain x (xs ++ v :: vs) :=
    (hpath.shorten (List.prefix_append _ _)).chain (fun y hy => (hxs y hy).isMissing) (hlead ▸ hchain)
  -- at least the errors around `v` and `v` itself are converted
  obtain ⟨n, hn⟩ : ∃ n, max 1 (o.maxCauseDepth.linksIn g) = xs.length + (n + 1) := by
    have hle := hwhole.le_linksIn hdepth (by simp)
    exact ⟨o.maxCauseDepth.linksIn g - (xs.length + 1), by omega⟩
  have htake : linksOrSelf (g.walk o.maxCauseDepth x) x = xs ++ v :: vs.take n := by
    rw [linksOrSelf_walk hwhole (by simp), hn, List.take_length_add_append, List.take_succ_cons]
  obtain ⟨errors, hmade⟩ := exists_forall₂ fun y hy => (hxs y hy).linkOf
  obtain ⟨links, hlinks⟩ : ∃ links, List.Forall₂ (fun e link => o.linkOf g e = .ok link) errors links :=
    exists_forall₂ fun e he => by
      obtain ⟨_, -, link, -, hl, -⟩ := exists_of_forall₂ hmade he
      exact ⟨link, hl⟩
  have hunstored : ∀ e ∈ errors, o.storedOf e = none := by
    intro e he
    obtain ⟨_, -, _, -, -, hs⟩ := exists_of_forall₂ hmade he
    exact hs
  obtain ⟨rest, hrest⟩ := exists_forall₂ fun y hy => toFailure_of_keeps hvs y (List.mem_of_mem_take hy)
  have herrors : (linksOrSelf (g.walk o.maxCauseDepth x) x).mapM (g.toFailure o.frames) =
      .ok (errors ++ e :: rest) := by
    rw [htake]
    exact FailureWire.Except.mapM_eq_ok.2
      (List.rel_append (hmade.imp fun _ _ ⟨_, h, _⟩ => h) (.cons he hrest))
  have hemit : o.emitErrors g x (errors ++ e :: rest) = .ok ⟨links, some link⟩ :=
    emitErrors_append hunstored hstored hv.1 (linksOf_eq_ok.2 hlinks)
  have hlength : xs.length = links.length := hmade.length_eq.trans hlinks.length_eq
  have hshown := g.shows_add (Emitted.document ⟨links, some link⟩)
  obtain ⟨ws, hway, hend, hread⟩ := (Graph.reading_shows _ _).emitted (by
    rintro (rfl : links = [])
    exact hne (List.length_eq_zero_iff.1 hlength)) hshown
  refine ⟨_, _, ws, errorToFailure_of_emitErrors herrors hemit, hway.append ?_, ?_⟩
  · have hstays : (some link).filter (·.isTruthy) = some link := by simp [hlink]
    rw [hend, hstays]
    exact .cons (.nil _)
  · have hderived : List.Forall₂ (fun e w => ∃ l cause, o.linkOf g e = .ok l ∧
        (g.add (Emitted.document ⟨links, some link⟩)).1.ShowsLink g.size l cause w) errors ws :=
      forall₂_comp (fun _ l _ hl ⟨cause, hw⟩ => ⟨l, cause, hl, hw⟩) hlinks hread
    exact forall₂_comp (fun _ e _ ⟨_, hy, _⟩ ⟨link, cause, hl, hw⟩ => ⟨e, link, cause, hy, hl, hw⟩)
      hmade hderived

end ConverterOptions

/-- **Stored failures survive.** A wire failure was decoded, and the graph may have grown since. The error
is sent as the failure itself; each of its causes is sent as the link of the failure that it was decoded
from; and what was raised around it is sent as so many links of its own, the last of which has the failure
itself as its cause. -/
theorem stored_failures_survive {c₁ c₂ : ConverterOptions} {g g₁ g₂ : Graph} {f v : Value}
    (hreuse : c₂.reuseStoredFailure = true) (hf : f.isTruthy = true)
    (hdecode : (c₁.failureToError g f).outcome.1 = .ok (g₁, v)) (hle : g₁ ≤ g₂) :
    (c₂.errorToFailure g₂ v).outcome.1 = .ok (g₂, f) ∧
    (∀ i, (g₂.causeAt i v).isMissing = false →
      (c₂.errorToFailure g₂ (g₂.causeAt i v)).outcome.1 = .ok (g₂, g.causeAt i f)) ∧
    (∀ x xs, xs ≠ [] → c₂.maxCauseDepth.Admits (xs.length + 1) → g₂.CausePath x (xs ++ [v]) →
      (∀ y ∈ xs, c₂.Wraps g₂ y) →
        ∃ g₃ w ws, (c₂.errorToFailure g₂ x).outcome.1 = .ok (g₃, w) ∧ g₃.CausePath w (ws ++ [f]) ∧
          List.Forall₂ (c₂.Derives g₂ g₃) xs ws) := by
  obtain ⟨-, vs, kept, hchain, hne, hpath, hkeeps⟩ := ConverterOptions.keeps_of_failureToError hdecode
  have hkeeps₂ : List.Forall₂ g₂.Keeps vs kept := hkeeps.imp fun _ _ h => h.mono hle
  have hchain₂ : g₂.CauseChain v vs := hchain.mono hle fun x hx => by
    obtain ⟨link, -, hx⟩ := exists_of_forall₂ hkeeps.flip hx
    exact Graph.Keeps.holds hx
  have hcauses (i : Nat) (hi : (g₂.causeAt i v).isMissing = false) :
      (c₂.errorToFailure g₂ (g₂.causeAt i v)).outcome.1 = .ok (g₂, g.causeAt i f) := by
    have hmet := hchain₂.getElem?_causeAt hi
    obtain ⟨hlt, hx⟩ := List.getElem?_eq_some_iff.1 hmet
    have hdrop := List.drop_eq_getElem_cons hlt
    have hinner := List.forall₂_drop i hkeeps₂
    rw [hdrop, hx] at hinner
    obtain ⟨link, links, -, -, hkept⟩ := List.forall₂_cons_left_iff.1 hinner
    have hlink : link = g.causeAt i f := by
      refine hpath.getElem? ?_
      rw [← List.head?_drop, hkept]
      rfl
    have hsplit : g₂.CauseChain v (vs.take i ++ g₂.causeAt i v :: vs.drop (i + 1)) := by
      rwa [← hx, ← hdrop, List.take_append_drop]
    rw [hkept, hlink] at hinner
    exact ConverterOptions.errorToFailure_of_keeps hreuse hsplit.of_append hinner
  obtain ⟨x, rest, rfl⟩ := List.exists_cons_of_ne_nil hne
  obtain rfl := hchain.head
  obtain ⟨link, links, -, -, rfl⟩ := List.forall₂_cons_left_iff.1 hkeeps
  obtain rfl : f = link := by cases hpath; rfl
  refine ⟨hcauses 0 (hchain₂.isMissing_of_mem v (List.mem_cons_self ..)), hcauses, ?_⟩
  intro x xs hxs hdepth hway hwraps
  exact ConverterOptions.errorToFailure_of_wraps hreuse hf hchain₂ hkeeps₂ hxs hdepth hway hwraps

/-- A wire failure without information, as object 0, and the error that it was decoded to, as object 1. -/
def lateFailure : Graph :=
  ⟨[.record [("message", .text "late")],
    .error <| .build .generic (.text "late") (.text "late") { stored := .object 0, stackTrace := .text "" }]⟩

/-- An application failure around it, with a list of details, object 2. -/
def shippingError : ThrownError Value :=
  .build (.application (.text "Shipping") (.object 2) (.bool true) .undefined)
    (.text "not shipped") (.text "Shipping: not shipped") { cause := .object 1 }

/-- Both of them, and an error of the host around the application failure. -/
def wrappedFailure : Graph :=
  ⟨lateFailure.nodes ++
    [.list [.text "order-7"], .error shippingError,
      .error <| .raise [] (.host false) (.text "giving up") (some (.object 3))]⟩

theorem stored_failures_survive_two_errors :
    ∃ g w ws, (({} : ConverterOptions).errorToFailure wrappedFailure (.object 4)).outcome.1 = .ok (g, w) ∧
      g.CausePath w (ws ++ [.object 0]) ∧
        List.Forall₂ (({} : ConverterOptions).Derives wrappedFailure g) [.object 4, .object 3] ws := by
  have hdecode : (({} : ConverterOptions).failureToError ⟨lateFailure.nodes.take 1⟩ (.object 0)).outcome.1 =
      .ok (lateFailure, .object 1) := rfl
  have hshipping : ({} : ConverterOptions).Wraps wrappedFailure (.object 3) := by
    refine ⟨⟨shippingError, rfl, ⟨⟨_, rfl⟩, ⟨_, rfl⟩, ?_, ?_, ?_⟩, ?_⟩, nofun⟩
    · rintro s ⟨⟩
    · rintro f ⟨⟩
      exact .inl rfl
    · rintro f ⟨⟩
      exact .application (.inr ⟨_, rfl⟩) (.existing rfl) (.inl rfl)
    · rintro f ⟨⟩
      refine ⟨rfl, fun x hx => ?_⟩
      obtain rfl : x = .text "order-7" := List.mem_singleton.1 hx
      exact ⟨_, rfl⟩
  have hhost : ({} : ConverterOptions).Wraps wrappedFailure (.object 4) := by
    refine ⟨⟨.raise [] (.host false) (.text "giving up") (some (.object 3)), rfl,
      ⟨⟨_, rfl⟩, ⟨_, rfl⟩, ?_, ?_, ?_⟩, ?_⟩, nofun⟩ <;> rintro _ ⟨⟩
  refine (stored_failures_survive rfl rfl hdecode (List.prefix_append _ _)).2.2 _ [.object 4, .object 3]
    (List.cons_ne_nil _ _) (show 3 ≤ 50 by decide) (.cons (.cons (.cons (.nil _)))) ?_
  intro y hy
  rcases List.mem_cons.1 hy with rfl | hy
  · exact hhost
  · rw [List.mem_singleton.1 hy]
    exact hshipping

end FailureWire
