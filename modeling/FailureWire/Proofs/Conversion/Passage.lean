import FailureWire.Proofs.Conversion.Arrival

/-!
# There and back

An error is sent, and what was sent is received by a converter with the same codec. If every link of the
chain can be sent, both conversions succeed, and the received chain consists of the errors that arrive
(`passage`), up to the receiver's own limit.
-/

namespace FailureWire.ConverterOptions

variable {o r : ConverterOptions} {g : Graph} {v : Value} {errors : List (ThrownError Document)}

/-- **Errors without stored failures are sent as a chain of links, one for each error.** -/
theorem errorToFailure_of_links {links : List WireLink}
    (hmade : (linksOrSelf (g.walk o.maxCauseDepth v) v).mapM (g.toFailure o.frames) = .ok errors) (hne : errors ≠ [])
    (hunstored : ∀ e ∈ errors, o.storedOf e = none)
    (hlinks : List.Forall₂ (fun e link => o.linkOf g e = .ok link) errors links) :
    ∃ g' w ws, (o.errorToFailure g v).outcome.1 = .ok (g', w) ∧ g ≤ g' ∧ g'.CauseChain w ws ∧
      g'.Shows g.size (Emitted.document ⟨links, none⟩) w ∧
        List.Forall₂ (fun link x => ∃ cause, g'.ShowsLink g.size link cause x) links ws := by
  have hemit := emitErrors_of_unstored (v := v) hne hunstored (linksOf_eq_ok.2 hlinks)
  have hshown := g.shows_add (Emitted.document ⟨links, none⟩)
  obtain ⟨ws, hchain, hread⟩ := (Graph.reading_shows _ _).emitted_chain
    (ne_nil_of_forall₂ hlinks hne) hshown
  exact ⟨_, _, ws, errorToFailure_of_emitErrors hmade hemit, g.le_add _, hchain, hshown, hread⟩

/-- **A chain of values for which there are links is sent as these links**, if no stored failures are reused and
the depth allows for all of them. -/
theorem errorToFailure_of_linked {vs : List Value} {links : List WireLink} (hreuse : o.reuseStoredFailure = false)
    (hchain : g.CauseChain v vs) (hne : vs ≠ []) (hdepth : vs.length ≤ max 1 (o.maxCauseDepth.linksIn g))
    (hlinked : List.Forall₂ (fun x link => ∃ e, g.toFailure o.frames x = .ok e ∧ o.linkOf g e = .ok link) vs links) :
    ∃ g' w ws, (o.errorToFailure g v).outcome.1 = .ok (g', w) ∧ g ≤ g' ∧ g'.CauseChain w ws ∧
      g'.Shows g.size (Emitted.document ⟨links, none⟩) w ∧
        List.Forall₂ (fun link x => ∃ cause, g'.ShowsLink g.size link cause x) links ws := by
  obtain ⟨errors, hmade, hlinks⟩ := exists_common hlinked
  have herrors : (linksOrSelf (g.walk o.maxCauseDepth v) v).mapM (g.toFailure o.frames) = .ok errors := by
    rw [linksOrSelf_walk hchain hne, List.take_of_length_le hdepth]
    exact FailureWire.Except.mapM_eq_ok.2 hmade
  have hunstored : ∀ e ∈ errors, o.storedOf e = none := by
    intro e _
    simp [storedOf, hreuse]
  exact errorToFailure_of_links herrors (ne_nil_of_forall₂ hmade hne) hunstored hlinks.flip

/-- A chain that can be sent is sent. -/
theorem errorToFailure_of_sends
    (hmade : (linksOrSelf (g.walk o.maxCauseDepth v) v).mapM (g.toFailure o.frames) = .ok errors) (hne : errors ≠ [])
    (hsends : ∀ e ∈ errors, ∃ f, o.Sends g e f ∧ f.stored = .undefined) :
    ∃ g' w ws, (o.errorToFailure g v).outcome.1 = .ok (g', w) ∧ g ≤ g' ∧ g'.CauseChain w ws ∧
      List.Forall₂ (fun e x => ∃ f link cause, o.Sends g e f ∧ o.linkOf g e = .ok link ∧
        g'.ShowsLink g.size link cause x) errors ws := by
  obtain ⟨links, hboth⟩ : ∃ links, List.Forall₂
      (fun e link => (∃ f, o.Sends g e f) ∧ o.linkOf g e = .ok link) errors links :=
    exists_forall₂ fun e he => by
      obtain ⟨f, hf, -⟩ := hsends e he
      obtain ⟨link, hlink⟩ := hf.exists_linkOf
      exact ⟨link, ⟨f, hf⟩, hlink⟩
  have hunstored : ∀ e ∈ errors, o.storedOf e = none := by
    intro e he
    obtain ⟨f, hf, hstored⟩ := hsends e he
    exact storedOf_of_undefined hf.failure hstored
  obtain ⟨g', w, ws, hsent, hle, hchain, -, hread⟩ :=
    errorToFailure_of_links hmade hne hunstored (hboth.imp fun _ _ h => h.2)
  refine ⟨g', w, ws, hsent, hle, hchain, forall₂_comp ?_ hboth hread⟩
  rintro e link x ⟨⟨f, hf⟩, hl⟩ ⟨cause, hw⟩
  exact ⟨f, link, cause, hf, hl, hw⟩

/-- **What was sent arrives.** Of the errors that arrive, one for each error that was sent, the receiver
makes a finite chain. It takes at least one of them, and as many as its depth admits. -/
theorem passage (hcodec : r.codec = o.codec)
    (hmade : (linksOrSelf (g.walk o.maxCauseDepth v) v).mapM (g.toFailure o.frames) = .ok errors) (hne : errors ≠ [])
    (hsends : ∀ e ∈ errors, ∃ f, o.Sends g e f ∧ f.stored = .undefined) :
    ∃ g₁ w g₂ v' vs arrivals taken, (o.errorToFailure g v).outcome.1 = .ok (g₁, w) ∧
      (r.failureToError g₁ w).outcome.1 = .ok (g₂, v') ∧ g ≤ g₁ ∧ g₁ ≤ g₂ ∧
      List.Forall₂ (fun e a => ∃ link, o.Arrives g g₁ e link a) errors arrivals ∧
      g₂.CauseChain v' vs ∧ List.Forall₂ (g₁.Raised g₂) (kept (arrivals.take taken)) vs ∧
      1 ≤ taken ∧ ∀ n, r.maxCauseDepth.Admits n → n ≤ errors.length → n ≤ taken := by
  obtain ⟨g₁, w, ws, hsent, hle, hchain, hshown⟩ := errorToFailure_of_sends hmade hne hsends
  obtain ⟨arrivals, harrives, hgives⟩ := exists_common (hshown.imp fun e x hx => by
    obtain ⟨f, link, cause, hf, hlink, hw⟩ := hx
    obtain ⟨a, ha, harrives⟩ := errorOf_of_showsLink hcodec hf hlink hle hw
    exact (⟨a, ⟨x, harrives⟩, ha⟩ : ∃ a, (∃ link, o.Arrives g g₁ e link a) ∧ (r.errorOf g₁ x).Gives a))
  have hobjects : ∀ x ∈ ws, x.id?.isSome := by
    intro x hx
    obtain ⟨e, -, f, link, cause, -, -, hw⟩ := exists_of_forall₂ hshown hx
    obtain ⟨id, rfl⟩ := hw.isObject
    rfl
  have hreceived := failureToError_of_arrivals hchain (ne_nil_of_forall₂ hshown hne) hobjects
    (List.forall₂_take (max 1 (r.maxCauseDepth.linksIn g₁)) hgives)
  have hplain := plain_of_kept (fun e a ⟨link, f, ds, display, frames, _, _, ha⟩ => by rw [ha]; exact ⟨rfl, rfl⟩)
    (List.forall₂_take (max 1 (r.maxCauseDepth.linksIn g₁)) harrives)
  obtain ⟨vs, hvs, hraised⟩ := g₁.raised_addErrors hplain
  refine ⟨g₁, w, _, _, vs, arrivals, _, hsent, hreceived, hle, g₁.le_addErrors _, harrives, hvs, hraised,
    Nat.le_max_left .., fun n hn hlength => ?_⟩
  have hlinks := hchain.le_linksIn hn (hshown.length_eq ▸ hlength)
  omega

end FailureWire.ConverterOptions
