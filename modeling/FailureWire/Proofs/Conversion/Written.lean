import FailureWire.Proofs.Conversion.Emission
import FailureWire.Proofs.Wire.View

/-!
# What is written for a thrown value

Anything can be thrown: nothing at all, a primitive, a record with a cause, an error that is its own cause.
`thrown_values_written` says what `errorToFailure` makes of it. The values met along causes, or the value
itself where none is met, stand for failures. These become new links, one the cause of the other, up to the
first failure that was decoded from a wire failure; that wire failure ends the chain as it is. Without such a
failure, or where they are not reused, the last link has no cause.

`o.IsLinkOf g g' e x` says that `x` is the link for the failure `e`: it holds what the options ask for, and
nothing in it depends on the rest of the chain.
-/

namespace FailureWire

/-! ## Information -/

namespace FailureKind

variable {δ : Type}

/-- The case of the information that is sent about a kind; none is named for kinds without information. -/
def infoCase : FailureKind δ → Value
  | .application .. => .text "applicationFailureInfo"
  | .timeout .. => .text "timeoutFailureInfo"
  | .cancelled _ => .text "canceledFailureInfo"
  | .terminated _ => .text "terminatedFailureInfo"
  | .server _ => .text "serverFailureInfo"
  | .activity .. => .text "activityFailureInfo"
  | .childWorkflow .. => .text "childWorkflowExecutionFailureInfo"
  | .generic | .alreadyStarted .. => .undefined

/-- The delay that a kind carries. -/
def nextRetryDelay? : FailureKind δ → Option Value
  | .application _ _ _ nextRetryDelay => some nextRetryDelay
  | _ => none

theorem nextRetryDelay?_map {ε : Type} (f : δ → ε) (k : FailureKind δ) :
    (k.map f).nextRetryDelay? = k.nextRetryDelay? := by
  cases k <;> rfl

variable {c : Codec} {g : Graph} {k : FailureKind Document}

theorem case_of_toInfo {info : FailureInfo Document} (h : k.toInfo c g = .ok info) :
    info.case = k.infoCase := by
  cases k with
  | application =>
    obtain ⟨_, -, h⟩ := Except.bind_eq_ok.1 h
    obtain ⟨_, -, h⟩ := Except.bind_eq_ok.1 h
    cases h
    rfl
  | cancelled | terminated | timeout =>
    obtain ⟨_, -, h⟩ := Except.bind_eq_ok.1 h
    cases h
    rfl
  | generic | server | activity | childWorkflow | alreadyStarted =>
    cases h
    rfl

theorem exists_toInfo (hdetails : ∀ ds, k.details? = some ds → ∃ d, c.encodeDetails g ds = .ok d)
    (hdelay : ∀ ms, k.nextRetryDelay? = some ms → ∃ d, g.wireDelay ms = .ok d) :
    ∃ info, k.toInfo c g = .ok info := by
  cases k with
  | application type ds b ms =>
    obtain ⟨details, hd⟩ := hdetails ds rfl
    obtain ⟨delay, hm⟩ := hdelay ms rfl
    exact ⟨_, Except.bind_eq_ok.2 ⟨details, hd, Except.bind_eq_ok.2 ⟨delay, hm, rfl⟩⟩⟩
  | cancelled ds | terminated ds | timeout _ ds =>
    obtain ⟨details, hd⟩ := hdetails ds rfl
    exact ⟨_, Except.bind_eq_ok.2 ⟨details, hd, rfl⟩⟩
  | generic | server | activity | childWorkflow | alreadyStarted => exact ⟨_, rfl⟩

theorem exists_encodeDetails_of_toInfo {info : FailureInfo Document} (h : k.toInfo c g = .ok info) :
    ∀ ds, k.details? = some ds → ∃ d, c.encodeDetails g ds = .ok d := by
  intro ds hds
  cases k with
  | application | cancelled | terminated | timeout =>
    cases hds
    obtain ⟨d, hd, -⟩ := Except.bind_eq_ok.1 h
    exact ⟨d, hd⟩
  | generic | server | activity | childWorkflow | alreadyStarted => cases hds

end FailureKind

/-! ## Failures that can be written -/

/-- The wire failure that an error was decoded from, if it was. -/
def ThrownError.stored? {δ : Type} (e : ThrownError δ) : Option Value :=
  e.failure?.bind (·.stored.defined?)

namespace Graph

def failureAt? (g : Graph) (x : Value) : Option (FailureFields Value) := (g.errorOf? x).bind (·.failure?)

/-- What a failure that stands for a thrown value carries: all that the value does if it is a failure itself,
else nothing that would have to be encoded. -/
inductive Carries (g : Graph) (x : Value) : FailureFields Document → Prop
  | failure {e : ThrownError Value} {f : FailureFields Value} : g.errorOf? x = some e → e.failure? = some f →
    Carries g x ⟨f.displayMessage, f.stored, f.stackTrace, f.kind.map .existing⟩
  | other {f : FailureFields Document} : g.failureAt? x = none → f.stored = .undefined →
    (∀ ds, f.kind.details? = some ds → ds = .list []) →
      (∀ ms, f.kind.nextRetryDelay? = some ms → ms = .undefined) → Carries g x f

/-- **A thrown value stands for a failure** if it can be shown. -/
theorem exists_toFailure (frames : Frames) {g : Graph} {x : Value}
    (hshown : ∀ e, g.errorOf? x = some e → e.failure? = none → g.HasText e.name ∧ g.HasText e.message) :
    ∃ e f, g.toFailure frames x = .ok e ∧ e.failure? = some f ∧ g.Carries x f := by
  cases he : g.errorOf? x with
  | none =>
    refine ⟨failureOfOther frames x, _, by rw [toFailure, he], rfl, .other (by rw [failureAt?, he]; rfl) rfl ?_ ?_⟩
    · rintro ds ⟨⟩
      rfl
    · rintro ms ⟨⟩
      rfl
  | some e =>
    cases hf : e.failure? with
    | none =>
      obtain ⟨hname, hmessage⟩ := hshown e he hf
      obtain ⟨display, hmade⟩ := exists_failureOfError frames hname hmessage
      refine ⟨_, _, (toFailure_of_host he hf).trans hmade, ThrownError.failure?_build ..,
        .other (by rw [failureAt?, he]; exact hf) rfl ?_ ?_⟩
      · intro ds hds
        dsimp only at hds
        unfold ThrownError.hostKind at hds
        split at hds <;> cases hds <;> rfl
      · intro ms hms
        dsimp only at hms
        unfold ThrownError.hostKind at hms
        split at hms <;> cases hms
        rfl
    | some f =>
      refine ⟨_, _, toFailure_of_failure he (by rw [hf]; rfl), ?_, .failure he hf⟩
      rw [ThrownError.failure?_map, hf]
      rfl

end Graph

namespace ConverterOptions

/-- A thrown value can be written: an error has texts for what is shown of it, a failure keeps a wire
failure or nothing, and what there is to encode can be encoded. Whatever is no error can be shown. -/
structure CanWrite (o : ConverterOptions) (g : Graph) (x : Value) : Prop where
  shown : ∀ e, g.errorOf? x = some e → e.failure? = none → g.HasText e.name ∧ g.HasText e.message
  stored : ∀ e w, g.errorOf? x = some e → e.stored? = some w → w.isTruthy = true
  details : ∀ e f ds, g.errorOf? x = some e → e.failure? = some f → f.kind.details? = some ds →
    ∃ d, o.codec.encodeDetails g (.existing ds) = .ok d
  delay : ∀ e f ms, g.errorOf? x = some e → e.failure? = some f → f.kind.nextRetryDelay? = some ms →
    ∃ d, g.wireDelay ms = .ok d
  attributes : o.encodeCommonAttributes = true → ∀ e, g.toFailure o.frames x = .ok e →
    ∃ a, o.codec.encodeAttributes g e.message (o.stackTraceOf g e) = .ok a

/-- A failure can be written: what it keeps is a wire failure, and there is a link for it. -/
structure Writable (o : ConverterOptions) (g : Graph) (e : ThrownError Document) : Prop where
  isFailure : ∃ f, e.failure? = some f
  stored : ∀ w, e.stored? = some w → w.isTruthy = true
  link : ∃ link, o.linkOf g e = .ok link

variable {o : ConverterOptions} {g g' : Graph}

theorem exists_linkOf_of_kind {e : ThrownError Document} {f : FailureFields Document}
    (hf : e.failure? = some f)
    (hdetails : ∀ ds, f.kind.details? = some ds → ∃ d, o.codec.encodeDetails g ds = .ok d)
    (hdelay : ∀ ms, f.kind.nextRetryDelay? = some ms → ∃ d, g.wireDelay ms = .ok d)
    (hattributes : o.encodeCommonAttributes = true →
      ∃ a, o.codec.encodeAttributes g e.message (o.stackTraceOf g e) = .ok a) :
    ∃ link, o.linkOf g e = .ok link := by
  obtain ⟨info, hkind⟩ := FailureKind.exists_toInfo hdetails hdelay
  have hinfo : o.infoOf g e = .ok info := by
    rw [infoOf, hf]
    exact hkind
  exact exists_linkOf_of_infoOf hinfo hattributes

theorem exists_linkOf_of_carries {x : Value} {e : ThrownError Document} {f : FailureFields Document}
    (hf : e.failure? = some f) (hcarried : g.Carries x f)
    (hdetails : ∀ e f ds, g.errorOf? x = some e → e.failure? = some f → f.kind.details? = some ds →
      ∃ d, o.codec.encodeDetails g (.existing ds) = .ok d)
    (hdelay : ∀ e f ms, g.errorOf? x = some e → e.failure? = some f → f.kind.nextRetryDelay? = some ms →
      ∃ d, g.wireDelay ms = .ok d)
    (hattributes : o.encodeCommonAttributes = true →
      ∃ a, o.codec.encodeAttributes g e.message (o.stackTraceOf g e) = .ok a) :
    ∃ link, o.linkOf g e = .ok link := by
  cases hcarried with
  | @failure e' f' he hf' =>
    refine exists_linkOf_of_kind hf ?_ ?_ hattributes
    · intro ds hds
      rw [FailureKind.details?_map] at hds
      obtain ⟨d, hd, rfl⟩ := Option.map_eq_some_iff.1 hds
      exact hdetails e' f' d he hf' hd
    · intro ms hms
      rw [FailureKind.nextRetryDelay?_map] at hms
      exact hdelay e' f' ms he hf' hms
  | other _ _ hnodetails hnodelay =>
    refine exists_linkOf_of_kind hf ?_ ?_ hattributes
    · intro ds hds
      rw [hnodetails ds hds]
      exact ⟨_, Codec.encodeDetails_of_listed .empty .nil⟩
    · intro ms hms
      rw [hnodelay ms hms]
      exact ⟨none, rfl⟩

/-- **What can be written stands for a failure that can be written.** -/
theorem CanWrite.exists_writable {x : Value} (h : o.CanWrite g x) :
    ∃ e, g.toFailure o.frames x = .ok e ∧ o.Writable g e := by
  obtain ⟨e, f, hmade, hf, hcarried⟩ := Graph.exists_toFailure o.frames h.shown
  refine ⟨e, hmade, ⟨f, hf⟩, ?_,
    exists_linkOf_of_carries hf hcarried h.details h.delay fun ho => h.attributes ho e hmade⟩
  intro w hw
  rw [ThrownError.stored?, hf] at hw
  cases hcarried with
  | @failure e' f' he hf' => exact h.stored e' w he (by rwa [ThrownError.stored?, hf'])
  | other _ hstored =>
    rw [Option.bind_some, hstored] at hw
    cases hw

/-! ## Where the chain is cut -/

/-- How many failures become links: those before the first one that keeps a wire failure, if such failures
are reused, else all of them. -/
def derivedCount {δ : Type} (o : ConverterOptions) (errors : List (ThrownError δ)) : Nat :=
  if o.reuseStoredFailure then errors.findIdx fun e => e.stored?.isSome else errors.length

/-- **A chain is cut at the first failure that keeps a wire failure.** -/
theorem splitAtStored_eq {δ : Type} (o : ConverterOptions) (errors : List (ThrownError δ)) :
    o.splitAtStored errors = (errors.take (o.derivedCount errors),
      (errors[o.derivedCount errors]?).bind ThrownError.stored?) := by
  unfold derivedCount
  by_cases hreuse : o.reuseStoredFailure = true
  · rw [if_pos hreuse]
    induction errors with
    | nil => rfl
    | cons e rest ih =>
      have hstored : o.storedOf e = e.stored? := if_pos hreuse
      rw [splitAtStored, hstored, List.findIdx_cons]
      cases hs : e.stored? with
      | none => simp [ih]
      | some w => simp [hs]
  · rw [if_neg hreuse, splitAtStored_of_unstored fun e _ => if_neg hreuse]
    simp

theorem stored?_of_derivedCount {errors : List (ThrownError Document)} (hne : errors ≠ [])
    (hnone : errors.take (o.derivedCount errors) = []) :
    ∃ w, (errors[o.derivedCount errors]?).bind ThrownError.stored? = some w := by
  obtain ⟨e, rest, rfl⟩ := List.exists_cons_of_ne_nil hne
  have hzero : o.derivedCount (e :: rest) = 0 := by
    rcases List.take_eq_nil_iff.1 hnone with h | h
    · exact h
    · cases h
  rw [hzero]
  unfold derivedCount at hzero
  by_cases hreuse : o.reuseStoredFailure = true
  · rw [if_pos hreuse, List.findIdx_cons] at hzero
    cases hs : e.stored? with
    | none => simp [hs] at hzero
    | some w => exact ⟨w, hs⟩
  · rw [if_neg hreuse] at hzero
    cases hzero

/-! ## Chains of links -/

/-- A value is the link for a failure: it names the source and informs about the kind of the failure, and the
message and the stack trace stand in their places or, if they are to be encoded, in a payload. -/
structure IsLinkOf (o : ConverterOptions) (g g' : Graph) (e : ThrownError Document) (x : Value) : Prop where
  source : g'.read x "source" = o.source
  info : ∃ f info, e.failure? = some f ∧ f.kind.toInfo o.codec g = .ok info ∧ info.case = f.kind.infoCase ∧
    g'.Shows g.size info.document (g'.read x "failureInfo")
  plain : o.encodeCommonAttributes = false → g'.read x "message" = e.message ∧
    g'.read x "stackTrace" = o.stackTraceOf g e ∧ g'.get? x "encodedAttributes" = none
  encoded : o.encodeCommonAttributes = true → g'.read x "message" = .text encodedMessage ∧
    g'.read x "stackTrace" = .text "" ∧
      ∃ a, o.codec.encodeAttributes g e.message (o.stackTraceOf g e) = .ok a ∧
        g'.Shows g.size a (g'.read x "encodedAttributes")

/-- A value is a chain of links for failures, each the cause of the one before it, which ends in a wire
failure or, where there is none, in a link without a cause. -/
inductive IsChainOf (o : ConverterOptions) (g g' : Graph) :
    List (ThrownError Document) → Option Value → Value → Prop
  | stored (w : Value) : IsChainOf o g g' [] (some w) w
  | last {e : ThrownError Document} {x : Value} : o.IsLinkOf g g' e x → g'.get? x "cause" = none →
    IsChainOf o g g' [e] none x
  | link {e : ThrownError Document} {rest : List (ThrownError Document)} {stored : Option Value} {x c : Value} :
    o.IsLinkOf g g' e x → g'.get? x "cause" = some c → IsChainOf o g g' rest stored c →
      IsChainOf o g g' (e :: rest) stored x

theorem isLinkOf_of_showsLink {e : ThrownError Document} {f : FailureFields Document} {link : WireLink}
    {cause : Option Document} {x : Value} (hf : e.failure? = some f) (hlink : o.linkOf g e = .ok link)
    (hx : g'.ShowsLink g.size link cause x) : o.IsLinkOf g g' e x := by
  obtain ⟨info, hinfo, hform⟩ := linkOf_eq_ok.1 hlink
  rw [infoOf, hf] at hinfo
  have hattributes := hx.attributes
  generalize hfound : g'.get? x "encodedAttributes" = found at hattributes
  by_cases ho : o.encodeCommonAttributes = true
  · rw [if_pos ho] at hform
    obtain ⟨a, ha, rfl⟩ := hform
    refine ⟨hx.source, ⟨f, info, hf, hinfo, FailureKind.case_of_toInfo hinfo, hx.info⟩, ?_, ?_⟩
    · intro hplain
      rw [ho] at hplain
      cases hplain
    · intro _
      refine ⟨hx.message, hx.stackTrace, a, ha, ?_⟩
      cases hattributes with
      | some hpayload => rwa [Graph.read_eq_of_get? hfound]
  · rw [if_neg ho] at hform
    subst hform
    refine ⟨hx.source, ⟨f, info, hf, hinfo, FailureKind.case_of_toInfo hinfo, hx.info⟩, ?_, ?_⟩
    · intro _
      cases hattributes
      exact ⟨hx.message, hx.stackTrace, hfound⟩
    · intro hencode
      exact absurd hencode ho

theorem isChainOf_of_shows {stored : Option Value} : ∀ {errors : List (ThrownError Document)}
    {links : List WireLink} {d : Document} {x : Value}, errors ≠ [] →
      List.Forall₂ (fun e link => (∃ f, e.failure? = some f) ∧ o.linkOf g e = .ok link) errors links →
        chainDocument links (stored.map .existing) = some d → g'.Shows g.size d x →
          o.IsChainOf g g' errors stored x
  | [], _, _, _, hne, _, _, _ => absurd rfl hne
  | [e], _, _, x, _, hlinks, hd, hx => by
    obtain ⟨link, rest, ⟨⟨f, hf⟩, hlink⟩, hnil, rfl⟩ := List.forall₂_cons_left_iff.1 hlinks
    cases hnil
    cases hd
    have hshown := (g'.reading_shows g.size).link hx
    have hcause := hshown.cause
    generalize hfound : g'.get? x "cause" = found at hcause
    cases stored with
    | none =>
      cases hcause
      exact .last (isLinkOf_of_showsLink hf hlink hshown) hfound
    | some w =>
      cases hcause with
      | some hw =>
        cases hw
        exact .link (isLinkOf_of_showsLink hf hlink hshown) hfound (.stored w)
  | e :: next :: rest, _, _, x, _, hlinks, hd, hx => by
    obtain ⟨link, more, ⟨⟨f, hf⟩, hlink⟩, hmore, rfl⟩ := List.forall₂_cons_left_iff.1 hlinks
    obtain ⟨link', links, hnext, hlinks', rfl⟩ := List.forall₂_cons_left_iff.1 hmore
    cases hd
    have hshown := (g'.reading_shows g.size).link hx
    have hcause := hshown.cause
    generalize hfound : g'.get? x "cause" = found at hcause
    cases hcause with
    | some hc =>
      exact .link (isLinkOf_of_showsLink hf hlink hshown) hfound
        (isChainOf_of_shows (List.cons_ne_nil next rest) (.cons hnext hlinks') rfl hc)

/-- Failures are emitted as links up to the first one that keeps a wire failure, and as that failure. -/
theorem emitErrors_eq {v : Value} {errors : List (ThrownError Document)} (hne : errors ≠ [])
    (hstored : ∀ e ∈ errors, ∀ w, e.stored? = some w → w.isTruthy = true) :
    o.emitErrors g v errors = (do
      return ⟨← o.linksOf g (errors.take (o.derivedCount errors)),
        (errors[o.derivedCount errors]?).bind ThrownError.stored?⟩) := by
  rw [emitErrors, splitAtStored_eq]
  have hwritten : ¬ ((errors.take (o.derivedCount errors)).isEmpty &&
      ((errors[o.derivedCount errors]?).bind ThrownError.stored?).all Value.isMissing) = true := by
    rw [Bool.and_eq_true, List.isEmpty_iff]
    rintro ⟨hnone, hall⟩
    obtain ⟨w, hw⟩ := stored?_of_derivedCount (o := o) hne hnone
    obtain ⟨e, he, hs⟩ := Option.bind_eq_some_iff.1 hw
    have htruthy := hstored e (List.mem_of_getElem? he) w hs
    rw [hw] at hall
    cases w <;> simp [Value.isTruthy, Value.isMissing] at htruthy hall
  dsimp only
  rw [if_neg hwritten]

/-- **Failures with links are emitted as a chain.** -/
theorem exists_emitted {v : Value} {errors : List (ThrownError Document)} (hne : errors ≠ [])
    (hstored : ∀ e ∈ errors, ∀ w, e.stored? = some w → w.isTruthy = true)
    (h : ∀ e ∈ errors.take (o.derivedCount errors),
      (∃ f, e.failure? = some f) ∧ ∃ link, o.linkOf g e = .ok link) :
    ∃ emitted, o.emitErrors g v errors = .ok emitted ∧
      o.IsChainOf g (g.add emitted.document).1 (errors.take (o.derivedCount errors))
        ((errors[o.derivedCount errors]?).bind ThrownError.stored?) (g.add emitted.document).2 := by
  obtain ⟨links, hlinks⟩ : ∃ links, List.Forall₂
      (fun e link => (∃ f, e.failure? = some f) ∧ o.linkOf g e = .ok link)
      (errors.take (o.derivedCount errors)) links :=
    exists_forall₂ fun e he => by
      obtain ⟨hf, link, hlink⟩ := h e he
      exact ⟨link, hf, hlink⟩
  have hemit : o.emitErrors g v errors =
      .ok ⟨links, (errors[o.derivedCount errors]?).bind ThrownError.stored?⟩ := by
    rw [emitErrors_eq hne hstored, linksOf_eq_ok.2 (hlinks.imp fun _ _ hl => hl.2)]
    rfl
  have hend := stored?_of_derivedCount (o := o) hne
  have hstored : ∀ w, (errors[o.derivedCount errors]?).bind ThrownError.stored? = some w →
      w.isTruthy = true := by
    intro w hw
    obtain ⟨e, he, hs⟩ := Option.bind_eq_some_iff.1 hw
    exact hstored e (List.mem_of_getElem? he) w hs
  refine ⟨_, hemit, ?_⟩
  generalize (errors[o.derivedCount errors]?).bind ThrownError.stored? = stored at hstored hend
  generalize errors.take (o.derivedCount errors) = derived at hlinks hend
  have hkept : stored.filter (·.isTruthy) = stored := by
    cases stored with
    | none => rfl
    | some w => exact Option.filter_some_pos (hstored w rfl)
  cases hlinks with
  | nil =>
    obtain ⟨w, rfl⟩ := hend rfl
    rw [show Emitted.document ⟨[], some w⟩ = .existing w from rfl, g.add_existing]
    exact .stored w
  | @cons e link derived links hlink hlinks =>
    have hd : chainDocument (link :: links) (stored.map .existing) =
        some (Emitted.document ⟨link :: links, stored⟩) := by
      rw [Emitted.document, hkept]
      rfl
    exact isChainOf_of_shows (List.cons_ne_nil _ _) (.cons hlink hlinks) hd (g.shows_add _)

/-- **Values that can be written stand for failures that are emitted as a chain.** -/
theorem exists_emitted_of_canWrite {v : Value}
    (h : ∀ x ∈ linksOrSelf (g.walk o.maxCauseDepth v) v, o.CanWrite g x) :
    ∃ errors emitted,
      List.Forall₂ (fun x e => g.toFailure o.frames x = .ok e) (linksOrSelf (g.walk o.maxCauseDepth v) v) errors ∧
      o.emitErrors g v errors = .ok emitted ∧
      o.IsChainOf g (g.add emitted.document).1 (errors.take (o.derivedCount errors))
        ((errors[o.derivedCount errors]?).bind ThrownError.stored?) (g.add emitted.document).2 := by
  obtain ⟨errors, hmade⟩ := exists_forall₂ fun x hx => (h x hx).exists_writable
  have hne := ne_nil_of_forall₂ hmade (linksOrSelf_ne_nil _ v)
  have hwrite : ∀ e ∈ errors, o.Writable g e := by
    intro e he
    obtain ⟨x, -, -, hwrite⟩ := exists_of_forall₂ hmade he
    exact hwrite
  obtain ⟨emitted, hemit, hchain⟩ := exists_emitted (v := v) hne (fun e he => (hwrite e he).stored) fun e he =>
    ⟨(hwrite e (List.mem_of_mem_take he)).isFailure, (hwrite e (List.mem_of_mem_take he)).link⟩
  exact ⟨errors, emitted, hmade.imp fun _ _ hx => hx.1, hemit, hchain⟩

end ConverterOptions

/-- **What is written for a thrown value.** Let the value and everything met along its causes be such as can
be written. They stand for failures, of which those before the first one that keeps a wire failure become a
chain of links that ends in that wire failure; where none is reused, all of them become links. That the chain
of causes was cut is reported once, and nothing else is. -/
theorem thrown_values_written {o : ConverterOptions} {g : Graph} {v : Value}
    (h : ∀ x ∈ ConverterOptions.linksOrSelf (g.walk o.maxCauseDepth v) v, o.CanWrite g x) :
    ∃ errors g' w,
      List.Forall₂ (fun x e => g.toFailure o.frames x = .ok e)
        (ConverterOptions.linksOrSelf (g.walk o.maxCauseDepth v) v) errors ∧
      (o.errorToFailure g v).outcome = (.ok (g', w), (g.walk o.maxCauseDepth v).warnings .serialize) ∧
      g ≤ g' ∧ o.IsChainOf g g' (errors.take (o.derivedCount errors))
        ((errors[o.derivedCount errors]?).bind ThrownError.stored?) w := by
  obtain ⟨errors, emitted, hmade, hemit, hchain⟩ := ConverterOptions.exists_emitted_of_canWrite h
  exact ⟨errors, _, _, hmade,
    ConverterOptions.outcome_errorToFailure (FailureWire.Except.mapM_eq_ok.2 hmade) hemit, g.le_add _, hchain⟩

/-- A wire failure, as object 1; the failure that was decoded from it, object 2; an error of the host around a
record around an application failure around that failure, objects 3 to 5. The cause of the failure is the
error of the host again. -/
def tangledOrder : Graph :=
  ⟨[.list [.text "o-7"],
    .record [("message", .text "late")],
    .error <| .build .generic (.text "late") (.text "late") { stored := .object 1, cause := .object 3 },
    .error <| .raise [] (.host false) (.text "giving up") (some (.object 4)),
    .record [("cause", .object 5)],
    .error <| .build (.application (.text "Shipping") (.object 0) (.bool true) (.number (.ofInt 250)))
      (.text "not shipped") (.text "Shipping: not shipped") { cause := .object 2 }]⟩

/-- Three links are written for the error of the host, the record and the application failure. They end in the
wire failure, and the cycle is reported. -/
theorem thrown_values_written_tangledOrder :
    ∃ errors g' w,
      List.Forall₂ (fun x e => tangledOrder.toFailure .none x = .ok e) [.object 3, .object 4, .object 5, .object 2]
        errors ∧
      (({} : ConverterOptions).errorToFailure tangledOrder (.object 3)).outcome =
        (.ok (g', w), (⟨[.object 3, .object 4, .object 5, .object 2], true⟩ : Chain).warnings .serialize) ∧
      tangledOrder ≤ g' ∧
        ({} : ConverterOptions).IsChainOf tangledOrder g' (errors.take 3) (some (.object 1)) w := by
  have hwalk : tangledOrder.walk ({} : ConverterOptions).maxCauseDepth (.object 3) =
      ⟨[.object 3, .object 4, .object 5, .object 2], true⟩ := by decide +kernel
  have hshipping : ({} : ConverterOptions).CanWrite tangledOrder (.object 5) := by
    refine ⟨?_, ?_, ?_, ?_, nofun⟩
    · rintro e ⟨⟩ ⟨⟩
    · rintro e w ⟨⟩ ⟨⟩
    · rintro e f ds ⟨⟩ ⟨⟩ ⟨⟩
      exact ⟨_, rfl⟩
    · rintro e f ms ⟨⟩ ⟨⟩ ⟨⟩
      exact ⟨_, rfl⟩
  have hlate : ({} : ConverterOptions).CanWrite tangledOrder (.object 2) := by
    refine ⟨?_, ?_, ?_, ?_, nofun⟩
    · rintro e ⟨⟩ ⟨⟩
    · rintro e w ⟨⟩ ⟨⟩
      rfl
    · rintro e f ds ⟨⟩ ⟨⟩ ⟨⟩
    · rintro e f ms ⟨⟩ ⟨⟩ ⟨⟩
  have hhost : ({} : ConverterOptions).CanWrite tangledOrder (.object 3) := by
    refine ⟨?_, ?_, ?_, ?_, nofun⟩
    · rintro e ⟨⟩ -
      exact ⟨⟨_, rfl⟩, ⟨_, rfl⟩⟩
    · rintro e w ⟨⟩ ⟨⟩
    · rintro e f ds ⟨⟩ ⟨⟩
    · rintro e f ms ⟨⟩ ⟨⟩
  have hrecord : ({} : ConverterOptions).CanWrite tangledOrder (.object 4) := by
    refine ⟨?_, ?_, ?_, ?_, nofun⟩
    · rintro e ⟨⟩
    · rintro e w ⟨⟩
    · rintro e f ds ⟨⟩
    · rintro e f ms ⟨⟩
  obtain ⟨errors, g', w, hmade, hwritten, hle, hchain⟩ :=
    thrown_values_written (o := {}) (g := tangledOrder) (v := .object 3) (by
      rw [hwalk]
      simpa [ConverterOptions.linksOrSelf] using ⟨hhost, hrecord, hshipping, hlate⟩)
  rw [hwalk] at hmade hwritten
  refine ⟨errors, g', w, hmade, hwritten, hle, ?_⟩
  rcases hmade with _ | ⟨h₁, _ | ⟨h₂, _ | ⟨h₃, _ | ⟨h₄, _ | _⟩⟩⟩⟩
  cases h₁
  cases h₂
  cases h₃
  cases h₄
  exact hchain

end FailureWire
