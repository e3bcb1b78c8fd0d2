import FailureWire.Error.Cancellation
import FailureWire.Proofs.Error.Raised

/-!
# Typed errors

An error may hold any value anywhere, and some values cannot be sent: a text that is none, details that
are no list. `ThrownError.Typed` says of an error that its properties are of the types that the fields of
`FailureError` and of the classes below it are declared with, as far as conversions depend on it. Such an
error can be turned into a failure (`ensureFailureError`), and the failure is typed again
(`toFailure_of_typed`).
-/

namespace FailureWire

namespace Value

def IsText (v : Value) : Prop := ∃ s, v = .text s

/-- A value is a text, or there is none. -/
def IsOptionalText (v : Value) : Prop := v = .undefined ∨ v.IsText

/-- A value is a number, or there is none. -/
def IsOptionalNumber (v : Value) : Prop := v = .undefined ∨ ∃ n, v = .number n

theorem ne_undefined_of_isTruthy {v : Value} (h : v.isTruthy = true) : v ≠ .undefined := by
  rintro rfl
  cases h

theorem IsText.optional {v : Value} (h : v.IsText) : v.IsOptionalText := .inr h

theorem isText_orElse {v w : Value} (hv : v.IsOptionalText) (hw : w.IsText) : (v.orElse w).IsText := by
  rcases hv with rfl | ⟨s, rfl⟩
  · exact hw
  · exact ⟨s, rfl⟩

end Value

/-! ## Details -/

def Graph.itemsOf (g : Graph) : Document → List Value
  | .existing v => (g.listOf? v).getD []
  | _ => []

/-- Details are a list: one of the graph, or a new one without items. -/
inductive Graph.Listed (g : Graph) : Document → Prop
  | existing {v : Value} {items : List Value} : g.objectOf? v = some (.list items) → g.Listed (.existing v)
  | empty : g.Listed (.list [])

theorem FailureKind.details?_map {δ ε : Type} (f : δ → ε) (k : FailureKind δ) :
    (k.map f).details? = k.details?.map f := by
  cases k <;> rfl

def FailureKind.items (g : Graph) (k : FailureKind Document) : List Value :=
  (k.details?.map g.itemsOf).getD []

theorem FailureKind.items_existing {g : Graph} {k : FailureKind Value} {v : Value} {items : List Value}
    (hk : k.details? = some v) (hv : g.objectOf? v = some (.list items)) :
    (k.map .existing).items g = items := by
  rw [FailureKind.items, details?_map, hk]
  simp [Graph.itemsOf, Graph.listOf?, hv, Node.items?]

/-- What is carried is of the types that its declarations name, as far as conversions depend on it. -/
inductive FailureKind.Typed (g : Graph) : FailureKind Document → Prop
  | generic : Typed g .generic
  | application {type nonRetryable nextRetryDelay : Value} {details : Document} :
    type.IsOptionalText → g.Listed details → nextRetryDelay.IsOptionalNumber →
      Typed g (.application type details nonRetryable nextRetryDelay)
  | cancelled {details : Document} : g.Listed details → Typed g (.cancelled details)
  | terminated {details : Document} : g.Listed details → Typed g (.terminated details)
  | timeout {type : Value} {lastHeartbeatDetails : Document} : g.Listed lastHeartbeatDetails →
    Typed g (.timeout type lastHeartbeatDetails)
  | server (nonRetryable : Value) : Typed g (.server nonRetryable)
  | activity (scheduledEventId startedEventId identity activityType activityId retryState : Value) :
    Typed g (.activity scheduledEventId startedEventId identity activityType activityId retryState)
  | childWorkflow (namespaceName workflowId runId workflowType initiatedEventId startedEventId
      retryState : Value) :
    Typed g (.childWorkflow namespaceName workflowId runId workflowType initiatedEventId startedEventId
      retryState)
  | alreadyStarted (workflowId workflowType runId : Value) :
    Typed g (.alreadyStarted workflowId workflowType runId)

/-- What an error says are texts: its message, and its stacks where it has any. -/
structure ThrownError.Worded {δ : Type} (e : ThrownError δ) : Prop where
  message : e.message.IsText
  stack : ∀ s, e.stack = some s → s.IsOptionalText
  stackTrace : ∀ f, e.failure? = some f → f.stackTrace.IsOptionalText

/-- The properties of an error are of the types that their declarations name. -/
structure ThrownError.Typed (g : Graph) (e : ThrownError Document) : Prop where
  name : e.name.IsText
  message : e.message.IsText
  stack : ∀ s, e.stack = some s → s.IsOptionalText
  stackTrace : ∀ f, e.failure? = some f → f.stackTrace.IsOptionalText
  kind : ∀ f, e.failure? = some f → f.kind.Typed g

theorem ThrownError.Typed.worded {g : Graph} {e : ThrownError Document} (h : e.Typed g) : e.Worded :=
  ⟨h.message, h.stack, h.stackTrace⟩

/-! ## Texts -/

/-- A value can be read as a text. -/
def Graph.HasText (g : Graph) (v : Value) : Prop := ∃ s, g.toText v = .ok s

theorem Value.IsOptionalText.hasText {g : Graph} {v : Value} (h : v.IsOptionalText) : g.HasText v := by
  rcases h with rfl | ⟨s, rfl⟩
  · exact ⟨_, rfl⟩
  · exact ⟨_, rfl⟩

theorem Value.IsOptionalText.id?_eq_none {v : Value} (h : v.IsOptionalText) : v.id? = none := by
  rcases h with rfl | ⟨s, rfl⟩
  · rfl
  · rfl

theorem Graph.toText_of_plain {g : Graph} {v : Value} (hv : v.id? = none) : g.toText v = .ok v.primitiveChars := by
  cases v with
  | object id => cases hv
  | _ => rfl

/-- What is displayed of a failure whose message and type are no objects. -/
def FailureKind.display {δ : Type} (k : FailureKind δ) (message : Value) : Value :=
  match k with
  | .application type _ _ _ =>
    if type.isTruthy then .text (String.ofList (type.primitiveChars ++ ':' :: ' ' :: message.primitiveChars))
    else message
  | _ => message

theorem Graph.stackOf_isOptionalText {δ : Type} {g : Graph} {e : ThrownError δ}
    (h : ∀ s, e.stack = some s → s.IsOptionalText) : (g.stackOf e).IsOptionalText := by
  unfold stackOf
  split
  next s hs => exact h s hs
  next =>
    split
    · exact .inr ⟨_, rfl⟩
    · exact .inr ⟨_, rfl⟩

namespace ThrownError

variable {δ : Type} {g : Graph}

/-- **A failure can be made if what is shown of it has texts.** -/
theorem exists_ofKind (kind : FailureKind δ) {message : Value} (options : FailureOptions)
    (hmessage : g.HasText message)
    (htype : ∀ type ds b d, kind = .application type ds b d → g.HasText type)
    (hdisplay : options.displayMessage = .undefined) :
    ∃ display, ofKind g kind message options = .ok (build kind message display options) := by
  obtain ⟨s, hs⟩ := hmessage
  have hcheck : checkText g message = .ok () := by
    unfold checkText
    split
    · rfl
    · rw [hs]
      rfl
  have hshown : ∃ display, displayMessage g kind message options.displayMessage = .ok display ∧
      checkText g display = .ok () := by
    rw [hdisplay]
    unfold displayMessage
    split
    next type ds b d =>
      obtain ⟨t, ht⟩ := htype type ds b d rfl
      split
      · rw [ht, hs]
        exact ⟨_, rfl, checkText_text g _⟩
      · exact ⟨message, rfl, hcheck⟩
    next => exact ⟨message, rfl, hcheck⟩
  obtain ⟨display, hdisplayed, hchecked⟩ := hshown
  exact ⟨display, by rw [ofKind, hdisplayed, Except.ok_bind, hchecked]; rfl⟩

/-- **A failure is made with a text for display that does not depend on the graph**, if its message and its type are no
objects. -/
theorem ofKind_of_plain (kind : FailureKind δ) {message : Value} (options : FailureOptions) (hmessage : message.IsText)
    (htype : ∀ type ds b d, kind = .application type ds b d → type.id? = none)
    (hdisplay : options.displayMessage = .undefined) :
    ofKind g kind message options = .ok (build kind message (kind.display message) options) := by
  obtain ⟨s, rfl⟩ := hmessage
  have hshown : displayMessage g kind (.text s) options.displayMessage = .ok (kind.display (.text s)) := by
    rw [hdisplay]
    cases kind with
    | application type ds b d =>
      rw [displayMessage, FailureKind.display, Graph.toText_of_plain (htype type ds b d rfl)]
      split <;> rfl
    | _ => rfl
  have hcheck : checkText g (kind.display (.text s)) = .ok () := by
    unfold FailureKind.display
    split
    · split <;> exact checkText_text g _
    · exact checkText_text g s
  rw [ofKind, hshown, Except.ok_bind, hcheck]
  rfl

end ThrownError

namespace ThrownError

section
variable {δ : Type} {g : Graph}

theorem failureCode_undefined (kind : FailureKind δ) : failureCode kind .undefined = .text kind.code := by
  cases kind <;> rfl

theorem Worded.map {ε : Type} {e : ThrownError δ} (f : δ → ε) (h : e.Worded) : (e.map f).Worded where
  message := h.message
  stack := h.stack
  stackTrace fs hfs := by
    rw [failure?_map] at hfs
    obtain ⟨fs', hfs', rfl⟩ := Option.map_eq_some_iff.1 hfs
    exact h.stackTrace fs' hfs'

theorem worded_build {kind : FailureKind δ} {message display : Value} {options : FailureOptions}
    (hmessage : message.IsText) (htrace : options.stackTrace.IsOptionalText) :
    (build kind message display options).Worded where
  message := hmessage
  stack s hs := by
    simp only [build] at hs
    split at hs
    · cases hs
      exact htrace
    · cases hs
  stackTrace f hf := by
    cases hf
    exact htrace

theorem typed_build {kind : FailureKind Document} {message display : Value} {options : FailureOptions}
    (hkind : kind.Typed g) (hmessage : message.IsText) (htrace : options.stackTrace.IsOptionalText) :
    (build kind message display options).Typed g where
  name := ⟨_, rfl⟩
  message := hmessage
  stack := (worded_build hmessage htrace).stack
  stackTrace := (worded_build hmessage htrace).stackTrace
  kind f hf := by
    cases hf
    exact hkind

/-- The kind of the failure that stands for an error which is none. -/
def hostKind (e : ThrownError δ) : FailureKind Document :=
  if e.isAbort then .cancelled (.list []) else .ofApplication e.name [] .undefined .undefined

/-- The message of the failure that stands for an error which is none. -/
def failureMessage (e : ThrownError δ) : Value :=
  if e.isAbort then if e.message.isTruthy then e.message else .text cancelledMessage else e.message

@[simp] theorem items_hostKind (g : Graph) (e : ThrownError δ) : e.hostKind.items g = [] := by
  unfold hostKind
  split <;> rfl

theorem typed_hostKind {e : ThrownError δ} (hname : e.name.IsText) : e.hostKind.Typed g := by
  unfold hostKind
  split
  · exact .cancelled .empty
  · exact .application hname.optional .empty (.inl rfl)

end
end ThrownError

/-! ## Failures from errors -/

namespace Graph

variable {frames : Frames} {g : Graph} {v : Value}

/-- **An error that is no failure becomes a new one** if its name and its message have texts. -/
theorem exists_failureOfError (frames : Frames) {e : ThrownError Value} (hname : g.HasText e.name)
    (hmessage : g.HasText e.message) :
    ∃ display, g.failureOfError frames e =
      .ok (.build e.hostKind e.failureMessage display (g.carriedOver frames e)) := by
  by_cases habort : e.isAbort = true
  · have hkind : e.hostKind = .cancelled (.list []) := if_pos habort
    have hgiven : (if e.message.isTruthy then e.message else .undefined).defined?.getD
        (.text cancelledMessage) = e.failureMessage := by
      by_cases htruthy : e.message.isTruthy = true
      · have hdefined := Value.ne_undefined_of_isTruthy htruthy
        simp [ThrownError.failureMessage, habort, htruthy, Value.defined?, hdefined]
      · simp [ThrownError.failureMessage, habort, htruthy, Value.defined?]
    have hshown : g.HasText e.failureMessage := by
      unfold ThrownError.failureMessage
      rw [if_pos habort]
      split
      · exact hmessage
      · exact ⟨_, rfl⟩
    obtain ⟨display, hmade⟩ := ThrownError.exists_ofKind (g := g) e.hostKind (g.carriedOver frames e) hshown
      (fun _ _ _ _ hk => by rw [hkind] at hk; cases hk) rfl
    refine ⟨display, ?_⟩
    rw [failureOfError, if_pos habort, ThrownError.cancelled, hgiven, ← hkind]
    exact hmade
  · have hkind : e.hostKind = .ofApplication e.name [] .undefined .undefined := if_neg habort
    have hgiven : e.failureMessage = e.message := if_neg habort
    obtain ⟨display, hmade⟩ := ThrownError.exists_ofKind (g := g) e.hostKind (g.carriedOver frames e) hmessage
      (fun _ _ _ _ hk => by
        rw [hkind] at hk
        cases hk
        exact hname) rfl
    refine ⟨display, ?_⟩
    rw [failureOfError, if_neg habort, hgiven, ← hkind]
    exact hmade

theorem failureOfError_of_typed {e : ThrownError Value} (h : (e.map .existing).Typed g) :
    ∃ e', g.failureOfError frames e = .ok e' ∧ e'.Typed g ∧
      ∃ f, e'.failure? = some f ∧ f.stored = .undefined ∧ f.kind = e.hostKind := by
  obtain ⟨display, hmade⟩ := exists_failureOfError frames (g := g) (e := e) h.name.optional.hasText
    h.message.optional.hasText
  have hmessage : e.failureMessage.IsText := by
    unfold ThrownError.failureMessage
    split
    · split
      · exact h.message
      · exact ⟨_, rfl⟩
    · exact h.message
  exact ⟨_, hmade, ThrownError.typed_build (ThrownError.typed_hostKind h.name) hmessage
    (stackOf_isOptionalText h.stack), _, ThrownError.failure?_build .., rfl, rfl⟩

theorem toFailure_of_failure {e : ThrownError Value} (he : g.errorOf? v = some e)
    (hf : e.failure?.isSome) : g.toFailure frames v = .ok (e.map .existing) := by
  simp [toFailure, he, hf]

theorem toFailure_of_host {e : ThrownError Value} (he : g.errorOf? v = some e) (hf : e.failure? = none) :
    g.toFailure frames v = g.failureOfError frames e := by
  simp [toFailure, he, hf]

/-- **A typed error can be turned into a failure, which is typed, too.** -/
theorem toFailure_of_typed {e : ThrownError Value} (he : g.errorOf? v = some e)
    (h : (e.map .existing).Typed g) :
    ∃ e', g.toFailure frames v = .ok e' ∧ e'.Typed g ∧ ∃ f, e'.failure? = some f ∧
      f.stored = .ofOption (e.failure?.map (·.stored)) ∧
        f.kind = (e.failure?.map (·.kind.map .existing)).getD e.hostKind := by
  cases hf : e.failure? with
  | some f =>
    refine ⟨_, toFailure_of_failure he (by rw [hf]; rfl), h, ?_⟩
    rw [ThrownError.failure?_map, hf]
    exact ⟨_, rfl, rfl, rfl⟩
  | none =>
    obtain ⟨e', hmade, htyped, f, hfailure, hstored, hkind⟩ := failureOfError_of_typed h
    exact ⟨e', (toFailure_of_host he hf).trans hmade, htyped, f, hfailure, hstored, hkind⟩

end Graph
end FailureWire
