import FailureWire.Proofs.Conversion.Cancellation
import FailureWire.Proofs.Conversion.Written

/-!
# The host's signal, recognized and normalised

The host's signal of cancellation is recognized by its name alone, be it an error or a record. The failure that stands
for a thrown value depends on more: the name counts only where the value is an error. So cancellation survives
`ensureFailure` exactly for errors, and what is sent for the signal informs about a cancellation exactly if the signal
is an error (`signals_normalised`). A record of the same name is an application failure on the wire
(`named_record_not_cancelled`).
-/

namespace FailureWire

/-! ## Values that have texts -/

namespace Graph

variable {g : Graph} {v : Value}

theorem hasText_of_not_isTruthy (h : ¬ v.isTruthy = true) : g.HasText v := by
  cases hid : v.id? with
  | none => exact ⟨_, toText_of_plain hid⟩
  | some id =>
    obtain rfl : v = .object id := by cases v <;> simp_all [Value.id?]
    exact absurd rfl h

end Graph

namespace ThrownError

variable {δ : Type} {g : Graph} {e : ThrownError δ}

theorem hasText_of_checkText {v : Value} (h : checkText g v = .ok ()) : g.HasText v := by
  unfold checkText at h
  split at h
  next hv => exact hv ▸ ⟨_, rfl⟩
  next =>
    obtain ⟨s, hs, -⟩ := FailureWire.Except.bind_eq_ok.1 h
    exact ⟨s, hs⟩

theorem hasText_of_ofKind {kind : FailureKind δ} {message : Value} {options : FailureOptions}
    (hdisplay : options.displayMessage = .undefined) (h : ofKind g kind message options = .ok e) :
    g.HasText message ∧ ∀ type ds b d, kind = .application type ds b d → g.HasText type := by
  obtain ⟨display, hshown, h⟩ := FailureWire.Except.bind_eq_ok.1 h
  obtain ⟨_, hcheck, -⟩ := FailureWire.Except.bind_eq_ok.1 h
  have hdisplayed := hasText_of_checkText hcheck
  rw [hdisplay] at hshown
  unfold displayMessage at hshown
  split at hshown
  next type ds b d =>
    split at hshown
    · obtain ⟨t, ht, hshown⟩ := FailureWire.Except.bind_eq_ok.1 hshown
      obtain ⟨s, hs, -⟩ := FailureWire.Except.bind_eq_ok.1 hshown
      refine ⟨⟨s, hs⟩, ?_⟩
      rintro _ _ _ _ ⟨⟩
      exact ⟨t, ht⟩
    next htype =>
      cases hshown
      refine ⟨hdisplayed, ?_⟩
      rintro _ _ _ _ ⟨⟩
      exact Graph.hasText_of_not_isTruthy htype
  next hkind =>
    cases hshown
    exact ⟨hdisplayed, fun type ds b d heq => absurd heq (hkind type ds b d)⟩

end ThrownError

/-! ## Normalised values -/

namespace Graph

variable {frames : Frames} {g g' : Graph} {v w : Value} {e : ThrownError Document}

/-- **An error that is no failure becomes one exactly if its name and its message have texts.** -/
theorem exists_failureOfError_iff {e : ThrownError Value} :
    (∃ e', g.failureOfError frames e = .ok e') ↔ g.HasText e.name ∧ g.HasText e.message := by
  constructor
  · rintro ⟨e', h⟩
    unfold failureOfError at h
    split at h
    next habort =>
      refine ⟨⟨_, congrArg g.toText (of_decide_eq_true habort)⟩, ?_⟩
      by_cases htruthy : e.message.isTruthy = true
      · have hdefined := Value.ne_undefined_of_isTruthy htruthy
        rw [if_pos htruthy] at h
        simpa [Value.defined?, hdefined] using (ThrownError.hasText_of_ofKind rfl h).1
      · exact hasText_of_not_isTruthy htruthy
    next =>
      obtain ⟨hmessage, htype⟩ := ThrownError.hasText_of_ofKind rfl h
      exact ⟨htype _ _ _ _ rfl, hmessage⟩
  · rintro ⟨hname, hmessage⟩
    obtain ⟨display, hmade⟩ := exists_failureOfError frames hname hmessage
    exact ⟨_, hmade⟩

theorem isFailure_of_errorOf? {e : ThrownError Value} (he : g.errorOf? v = some e) :
    g.isFailure v = e.failure?.isSome := by
  rw [isFailure, he]

theorem failure?_of_not_isFailure {e : ThrownError Value} (hv : g.isFailure v = false) (he : g.errorOf? v = some e) :
    e.failure? = none := by
  simpa [isFailure_of_errorOf? he] using hv

theorem ensureFailure_of_isFailure (hv : g.isFailure v = true) : g.ensureFailure v frames = .ok (g, v) := if_pos hv

theorem ensureFailure_of_not_isFailure (hv : g.isFailure v = false) :
    g.ensureFailure v frames = (g.toFailure frames v).bind fun e => .ok (g.addError e) := by
  rw [ensureFailure, hv]
  rfl

/-- **A value can be normalised exactly if it can be shown**: an error that is no failure needs texts. -/
theorem exists_ensureFailure_iff :
    (∃ r, g.ensureFailure v frames = .ok r) ↔
      ∀ e, g.errorOf? v = some e → e.failure? = none → g.HasText e.name ∧ g.HasText e.message := by
  cases hv : g.isFailure v with
  | true =>
    refine iff_of_true ⟨_, ensureFailure_of_isFailure hv⟩ fun e he hf => ?_
    rw [isFailure_of_errorOf? he, hf] at hv
    cases hv
  | false =>
    rw [ensureFailure_of_not_isFailure hv]
    constructor
    · rintro ⟨r, hr⟩ e he hf
      obtain ⟨e', hmade, -⟩ := FailureWire.Except.bind_eq_ok.1 hr
      exact exists_failureOfError_iff.1 ⟨e', toFailure_of_host he hf ▸ hmade⟩
    · intro hshown
      obtain ⟨e, f, hmade, -⟩ := exists_toFailure frames hshown
      exact ⟨_, FailureWire.Except.bind_eq_ok.2 ⟨e, hmade, rfl⟩⟩

/-- **What stands for a value that is no failure** is a new failure of the kind that the value has. -/
theorem failure?_of_toFailure (hv : g.isFailure v = false) (h : g.toFailure frames v = .ok e) :
    ∃ display trace, e.failure? = some ⟨display, .undefined, trace, g.kindOf v⟩ ∧
      e.name = .text (g.kindOf v).errorClass.name := by
  unfold toFailure at h
  unfold kindOf
  cases he : g.errorOf? v with
  | none =>
    rw [he] at h
    cases h
    exact ⟨_, _, rfl, rfl⟩
  | some e' =>
    have hf := failure?_of_not_isFailure hv he
    rw [he] at h
    simp only [hf, Option.isSome_none, Bool.false_eq_true, if_false] at h
    obtain ⟨hname, hmessage⟩ := exists_failureOfError_iff.1 ⟨e, h⟩
    obtain ⟨display, hmade⟩ := exists_failureOfError frames hname hmessage
    cases h.symm.trans hmade
    simp only [hf, Option.map_none, Option.getD_none]
    exact ⟨_, _, rfl, rfl⟩

theorem isWrapper_of_not_isFailure (hv : g.isFailure v = false) : g.isWrapper v = false := by
  unfold isWrapper
  cases he : g.errorOf? v with
  | none => rfl
  | some e => simp [ThrownError.isWrapper_eq, failure?_of_not_isFailure hv he]

theorem isCancelled_of_not_isFailure (hv : g.isFailure v = false) : g.isCancelled v = false := by
  unfold isCancelled
  cases he : g.errorOf? v with
  | none => rfl
  | some e => simp [ThrownError.isCancelled_eq, failure?_of_not_isFailure hv he]

theorem isCancellation_of_not_isFailure (hv : g.isFailure v = false) : g.isCancellation v = g.isAbort v := by
  simp [isCancellation, isCancelled_of_not_isFailure hv, isWrapper_of_not_isFailure hv]

theorem isAbort_of_errorOf? {e : ThrownError Value} (he : g.errorOf? v = some e) : g.isAbort v = e.isAbort := by
  rw [isAbort, ThrownError.isAbort, read_eq_of_get? (get?_of_error he "name")]

theorem cancels_kindOf_iff (hv : g.isFailure v = false) :
    (g.kindOf v).cancels = true ↔ g.isAbort v = true ∧ (g.errorOf? v).isSome := by
  unfold kindOf
  cases he : g.errorOf? v with
  | none => simp [FailureKind.cancels, FailureKind.ofApplication]
  | some e =>
    have hf := failure?_of_not_isFailure hv he
    simp [hf, ThrownError.cancels_hostKind, isAbort_of_errorOf? he]

/-- A normalised value is the value itself, or a new failure of the kind that it has. -/
theorem ensureFailure_cases (h : g.ensureFailure v frames = .ok (g', w)) :
    g.isFailure v = true ∧ g' = g ∧ w = v ∨
      g.isFailure v = false ∧ ∃ e, g.toFailure frames v = .ok e ∧ g.Raised g' e w := by
  cases hv : g.isFailure v with
  | true =>
    rw [ensureFailure_of_isFailure hv] at h
    cases h
    exact .inl ⟨rfl, rfl, rfl⟩
  | false =>
    rw [ensureFailure_of_not_isFailure hv] at h
    obtain ⟨e, he, h⟩ := FailureWire.Except.bind_eq_ok.1 h
    cases h
    obtain ⟨details, hadded, hplaced⟩ := errorOf?_addError g e
    exact .inr ⟨rfl, e, he, e.cause, details, hadded, hplaced⟩

theorem isCancellation_of_raised {display trace : Value} {kind : FailureKind Document}
    (hf : e.failure? = some ⟨display, .undefined, trace, kind⟩) (hname : e.name = .text kind.errorClass.name)
    (hwraps : kind.wraps = false) (hw : g.Raised g' e w) : g'.isCancellation w = kind.cancels := by
  have habort : g'.isAbort w = false := by
    rw [isAbort, name_eq_of_raised hw, hname]
    simpa using kind.name_errorClass_ne
  rw [isCancellation, habort, ConverterOptions.isCancelled_of_raised hw, ConverterOptions.isWrapper_of_raised hw,
    ThrownError.isCancelled_eq, ThrownError.isWrapper_eq, hf]
  simp [hwraps]

/-- **Cancellation survives for errors, and only for them.** -/
theorem isCancellation_ensureFailure_iff (h : g.ensureFailure v frames = .ok (g', w)) :
    g'.isCancellation w = true ↔ g.isCancellation v = true ∧ (g.errorOf? v).isSome := by
  rcases ensureFailure_cases h with ⟨hv, rfl, rfl⟩ | ⟨hv, e, hmade, hw⟩
  · have herror : (g'.errorOf? w).isSome = true := by
      unfold isFailure at hv
      split at hv
      next he => rw [he]; rfl
      next => cases hv
    simp [herror]
  · obtain ⟨display, trace, hf, hname⟩ := failure?_of_toFailure hv hmade
    have hwraps : (g.kindOf v).wraps = false := isWrapper_eq_wraps ▸ isWrapper_of_not_isFailure hv
    rw [isCancellation_of_raised hf hname hwraps hw, isCancellation_of_not_isFailure hv, cancels_kindOf_iff hv]

/-- **The signal becomes a cancelled failure exactly if it is an error.** -/
theorem isCancelled_ensureFailure_iff (h : g.ensureFailure v frames = .ok (g', w)) (hv : g.isFailure v = false) :
    g'.isCancelled w = true ↔ g.isAbort v = true ∧ (g.errorOf? v).isSome := by
  rcases ensureFailure_cases h with ⟨hfailure, -, -⟩ | ⟨-, e, hmade, hw⟩
  · rw [hv] at hfailure
    cases hfailure
  · obtain ⟨display, trace, hf, -⟩ := failure?_of_toFailure hv hmade
    rw [ConverterOptions.isCancelled_of_raised hw, ThrownError.isCancelled_eq, hf, ← cancels_kindOf_iff hv]
    simp

end Graph

/-! ## What is sent for a value that is no failure -/

theorem FailureInfo.exists_document (info : FailureInfo Document) :
    ∃ rest, info.document = .record (("case", .existing info.case) :: rest) := by
  cases info <;> exact ⟨_, rfl⟩

namespace ConverterOptions

variable {o : ConverterOptions} {g g' : Graph} {v w : Value}

theorem exists_linksOrSelf_cons (d : Depth) (g : Graph) (v : Value) :
    ∃ rest, linksOrSelf (g.walk d v) v = v :: rest := by
  have hpath := causePath_linksOrSelf (g.causePath_walk d v)
  obtain ⟨x, rest, hlinks⟩ := List.exists_cons_of_ne_nil (linksOrSelf_ne_nil (g.walk d v) v)
  rw [hlinks] at hpath ⊢
  cases hpath with
  | cons _ => exact ⟨rest, rfl⟩

/-- Where the first error keeps no wire failure, a link for it is emitted first. -/
theorem exists_link_of_emitErrors {e : ThrownError Document} {rest : List (ThrownError Document)} {emitted : Emitted}
    (hstored : o.storedOf e = none) (h : o.emitErrors g v (e :: rest) = .ok emitted) :
    ∃ link links, emitted.links = link :: links ∧ o.linkOf g e = .ok link := by
  simp only [emitErrors, splitAtStored, hstored, List.isEmpty_cons, Bool.false_and, Bool.false_eq_true,
    if_false] at h
  obtain ⟨links, hlinks, h⟩ := FailureWire.Except.bind_eq_ok.1 h
  cases h
  obtain ⟨link, more, hlink, -, rfl⟩ := List.forall₂_cons_left_iff.1 (linksOf_eq_ok.1 hlinks)
  exact ⟨link, more, rfl, hlink⟩

theorem exists_document_of_links {emitted : Emitted} {link : WireLink} {links : List WireLink}
    (h : emitted.links = link :: links) : ∃ cause, emitted.document = link.document cause := by
  obtain ⟨links', stored⟩ := emitted
  cases h
  exact ⟨_, rfl⟩

/-- **What is sent for a value that is no failure** informs about the kind that the value has. -/
theorem case_of_errorToFailure (hv : g.isFailure v = false)
    (h : (o.errorToFailure g v).outcome.1 = .ok (g', w)) :
    g'.read (g'.read w "failureInfo") "case" = (g.kindOf v).infoCase := by
  obtain ⟨entries, hends⟩ := Logged.outcome_fst_eq_iff.1 h
  obtain ⟨emitted, between, hemitted, hadded⟩ := Logged.ends_bind.1 hends
  obtain ⟨⟨errors, hmade, hemit⟩, -⟩ := ends_emit.1 hemitted
  obtain ⟨hadd, -⟩ := Logged.ends_pure.1 hadded
  -- the first value that is converted is the value itself
  obtain ⟨values, hvalues⟩ := exists_linksOrSelf_cons o.maxCauseDepth g v
  rw [hvalues, FailureWire.Except.mapM_eq_ok] at hmade
  obtain ⟨e, rest, he, -, rfl⟩ := List.forall₂_cons_left_iff.1 hmade
  obtain ⟨display, trace, hf, -⟩ := Graph.failure?_of_toFailure hv he
  obtain ⟨link, links, hlinks, hlink⟩ := exists_link_of_emitErrors (storedOf_of_undefined hf rfl) hemit
  obtain ⟨cause, hdocument⟩ := exists_document_of_links hlinks
  have hshows := g.shows_add emitted.document
  rw [← hadd, hdocument] at hshows
  have hreads := (g'.reading_shows g.size).link hshows
  obtain ⟨f, info, hf', hinfo, hcase, hshown⟩ := (isLinkOf_of_showsLink hf hlink hreads).info
  cases hf.symm.trans hf'
  obtain ⟨rest, hrest⟩ := info.exists_document
  rw [hrest] at hshown
  rw [(g'.reading_shows g.size).read_existing hshown "case" rfl, hcase]

end ConverterOptions

/-- **The host's signal, recognized and normalised.** A value can be normalised exactly if it is a failure, no error, or
an error whose name and message have texts. The result is a cancellation exactly if the value is one and is an error.
The host's signal, unless it is a failure already, becomes a cancelled failure exactly if it is an error; and whatever
is sent for it informs about a cancellation then, and otherwise about an application failure. -/
theorem signals_normalised (frames : Frames) (g : Graph) (v : Value) :
    ((∃ r, g.ensureFailure v frames = .ok r) ↔
      ∀ e, g.errorOf? v = some e → e.failure? = none → g.HasText e.name ∧ g.HasText e.message) ∧
    (∀ g' w, g.ensureFailure v frames = .ok (g', w) →
      (g'.isCancellation w = true ↔ g.isCancellation v = true ∧ (g.errorOf? v).isSome)) ∧
    (g.isAbort v = true → g.isFailure v = false →
      (∀ g' w, g.ensureFailure v frames = .ok (g', w) → (g'.isCancelled w = true ↔ (g.errorOf? v).isSome)) ∧
      ∀ (o : ConverterOptions) g' w, (o.errorToFailure g v).outcome.1 = .ok (g', w) →
        g'.read (g'.read w "failureInfo") "case" =
          .text (if (g.errorOf? v).isSome then "canceledFailureInfo" else "applicationFailureInfo")) := by
  refine ⟨Graph.exists_ensureFailure_iff, fun g' w h => Graph.isCancellation_ensureFailure_iff h, ?_⟩
  intro habort hv
  constructor
  · intro g' w h
    simpa [habort] using Graph.isCancelled_ensureFailure_iff h hv
  · intro o g' w h
    rw [ConverterOptions.case_of_errorToFailure hv h, Graph.kindOf]
    cases he : g.errorOf? v with
    | none => rfl
    | some e =>
      have hf := Graph.failure?_of_not_isFailure hv he
      have hsignal : e.isAbort = true := Graph.isAbort_of_errorOf? he ▸ habort
      simp [hf, ThrownError.hostKind, hsignal, FailureKind.infoCase]

/-- The signal as a timer of the host raises it, as object 0, and a record of the same name. -/
def stoppedTimer : Graph :=
  ⟨[.error { ThrownError.raise [] (.host true) (.text "stopped") none with name := .text "AbortError" },
    .record [("name", .text "AbortError"), ("message", .text "stopped")]]⟩

/-- The timer's signal becomes a cancelled failure and is sent as one. -/
theorem signals_normalised_stoppedTimer :
    ∃ g' w g'' w', stoppedTimer.ensureFailure (.object 0) = .ok (g', w) ∧ g'.isCancellation w = true ∧
      g'.isCancelled w = true ∧
      (({} : ConverterOptions).errorToFailure stoppedTimer (.object 0)).outcome.1 = .ok (g'', w') ∧
      g''.read (g''.read w' "failureInfo") "case" = .text "canceledFailureInfo" := by
  obtain ⟨hmade, hcancellation, hsignal⟩ := signals_normalised .none stoppedTimer (.object 0)
  obtain ⟨hcancelled, hcase⟩ := hsignal (by decide) (by decide)
  obtain ⟨⟨g', w⟩, h⟩ := hmade.2 (by rintro e ⟨⟩ -; exact ⟨⟨_, rfl⟩, ⟨_, rfl⟩⟩)
  exact ⟨g', w, _, _, h, (hcancellation g' w h).2 ⟨by decide, rfl⟩, (hcancelled g' w h).2 rfl, rfl, hcase {} _ _ rfl⟩

/-- **The record is recognized as a cancellation, and normalised to a failure that is none.** -/
theorem named_record_not_cancelled :
    stoppedTimer.isCancellation (.object 1) = true ∧
      ∃ g' w, stoppedTimer.ensureFailure (.object 1) = .ok (g', w) ∧ g'.isCancellation w = false ∧
        g'.isCancelled w = false :=
  ⟨by decide, _, _, rfl, by decide, by decide⟩

end FailureWire
