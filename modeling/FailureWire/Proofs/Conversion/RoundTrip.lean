import FailureWire.Proofs.Conversion.Passage
import FailureWire.Proofs.Conversion.Sending
import FailureWire.Proofs.Wire.Duration

/-!
# Failures come back

A chain of failures of the seven kinds that have a place of their own on the wire is sent by one converter
(`errorToFailure`) and received by another one with the same codec (`failureToError`). What is received is a chain of
the same length, and each failure in it is the one that was sent: of the same class and message, with the stack trace
that was reported, and with the same fields (`failures_survive_round_trip`).

A failure keeps its fields exactly if they are such as its class declares, `k.Declared g`. What is the same
about two kinds is `k.Same g k'`: details are deeply equal, and delays are equal as numbers.
-/

namespace FailureWire

/-! ## Fields -/

/-- A code is one of a table, or there is none. -/
def Value.IsCodeOf {α : Type} (code : α → Number) (v : Value) : Prop := v = .undefined ∨ ∃ a, v = .number (code a)

/-- A delay is a whole number of milliseconds whose nanoseconds are a number, or there is none. -/
def Value.IsDelay (v : Value) : Prop :=
  v = .undefined ∨ ∃ n i, v = .number n ∧ n.toInt? = some i ∧ i.natAbs ≤ 9007199254

/-- Two values are the same, or numbers of the same value. -/
def Value.SameNumber (v w : Value) : Prop :=
  v = w ∨ ∃ n m, v = .number n ∧ w = .number m ∧ m.sameValue n = true

/-- What is carried is what the class declares. -/
inductive FailureKind.Declared (g : Graph) : FailureKind Value → Prop
  | application {type nonRetryable nextRetryDelay details : Value} {items : List Value} :
    (type = .undefined ∨ ∃ s, s ≠ "" ∧ type = .text s) → g.objectOf? details = some (.list items) →
      (∃ b, nonRetryable = .bool b) → nextRetryDelay.IsDelay →
        Declared g (.application type details nonRetryable nextRetryDelay)
  | cancelled {details : Value} {items : List Value} :
    g.objectOf? details = some (.list items) → Declared g (.cancelled details)
  | terminated {details : Value} {items : List Value} :
    g.objectOf? details = some (.list items) → Declared g (.terminated details)
  /-- Only a heartbeat timeout has details. -/
  | timeout {type lastHeartbeatDetails : Value} {items : List Value} :
    type.IsCodeOf TimeoutType.code → g.objectOf? lastHeartbeatDetails = some (.list items) →
      (type ≠ .number TimeoutType.heartbeat.code → items = []) →
        Declared g (.timeout type lastHeartbeatDetails)
  | server (nonRetryable : Bool) : Declared g (.server (.bool nonRetryable))
  | activity (scheduledEventId startedEventId identity activityType activityId : Value)
    {retryState : Value} : retryState.IsCodeOf RetryState.code →
      Declared g (.activity scheduledEventId startedEventId identity activityType activityId retryState)
  | childWorkflow (namespaceName workflowId runId workflowType initiatedEventId startedEventId : Value)
    {retryState : Value} : retryState.IsCodeOf RetryState.code →
      Declared g (.childWorkflow namespaceName workflowId runId workflowType initiatedEventId
        startedEventId retryState)

/-- Two failures carry the same. -/
inductive FailureKind.Same (g : Graph) : FailureKind Value → FailureKind Value → Prop
  | application (type nonRetryable : Value) {delay delay' details details' : Value} :
    g.Alike details details' → delay.SameNumber delay' →
      Same g (.application type details nonRetryable delay) (.application type details' nonRetryable delay')
  | cancelled {details details' : Value} :
    g.Alike details details' → Same g (.cancelled details) (.cancelled details')
  | terminated {details details' : Value} :
    g.Alike details details' → Same g (.terminated details) (.terminated details')
  | timeout (type : Value) {details details' : Value} :
    g.Alike details details' → Same g (.timeout type details) (.timeout type details')
  | server (nonRetryable : Value) : Same g (.server nonRetryable) (.server nonRetryable)
  | activity (scheduledEventId startedEventId identity activityType activityId retryState : Value) :
    Same g (.activity scheduledEventId startedEventId identity activityType activityId retryState)
      (.activity scheduledEventId startedEventId identity activityType activityId retryState)
  | childWorkflow (namespaceName workflowId runId workflowType initiatedEventId startedEventId
      retryState : Value) :
    Same g (.childWorkflow namespaceName workflowId runId workflowType initiatedEventId startedEventId
        retryState)
      (.childWorkflow namespaceName workflowId runId workflowType initiatedEventId startedEventId retryState)

/-! ## Fields that arrive -/

namespace Value

variable {v : Value}

theorem timeoutTypeFromWire_codeToWire (h : v.IsCodeOf TimeoutType.code) :
    timeoutTypeFromWire (codeToWire v) = v := by
  rcases h with rfl | ⟨t, rfl⟩
  · decide +kernel
  · cases t <;> decide +kernel

theorem retryStateFromWire_codeToWire (h : v.IsCodeOf RetryState.code) :
    retryStateFromWire (codeToWire v) = v := by
  rcases h with rfl | ⟨t, rfl⟩
  · decide +kernel
  · cases t <;> decide +kernel

theorem sameNumber_conveyed (h : v.IsDelay) : v.SameNumber v.conveyed := by
  rcases h with rfl | ⟨n, i, rfl, hn, hi⟩
  · exact .inl rfl
  · exact .inr ⟨n, _, rfl, rfl, WireDuration.sameValue_toMillis_ofMillis hn hi⟩

end Value

namespace FailureKind

variable {g g₁ g₂ : Graph} {ds : List Document}

theorem alike_of_recalls {v w : Value} {items : List Value} (hle : g ≤ g₂)
    (hv : g.objectOf? v = some (.list items)) (hitems : List.Forall₂ g₁.Recalls items ds)
    (hw : g₁.Placed g₂ (.list (Document.alignFrom 1 ds)) w) : g₂.Alike v w := by
  obtain ⟨values, hvalues, hplaced⟩ := hw.items
  exact Graph.alike_of_list (Graph.objectOf?_of_le hle hv) hvalues
    (forall₂_comp (fun _ _ _ hx hd => hx g₂ _ hd) hitems hplaced)

/-- **What arrives carries the same as what was sent.** -/
theorem same_of_arrived {k : FailureKind Value} {k' : FailureKind Document} {details : Value}
    (hk : k.Declared g) (hle : g ≤ g₂) (hitems : List.Forall₂ g₁.Recalls ((k.map .existing).items g) ds)
    (harrived : (k.map .existing).arrived (Document.alignFrom 1 ds) = some k')
    (hplaced : g₁.Placed g₂ (k'.details?.getD .undefined) details) : k.Same g₂ (k'.map fun _ => details) := by
  cases hk with
  | application htype hlist hretry hdelay =>
    obtain ⟨b, rfl⟩ := hretry
    cases harrived
    rw [Value.conveyedType_of_ne_empty htype]
    rw [items_existing rfl hlist] at hitems
    exact .application _ _ (alike_of_recalls hle hlist hitems hplaced) (Value.sameNumber_conveyed hdelay)
  | cancelled hlist =>
    cases harrived
    rw [items_existing rfl hlist] at hitems
    exact .cancelled (alike_of_recalls hle hlist hitems hplaced)
  | terminated hlist =>
    cases harrived
    rw [items_existing rfl hlist] at hitems
    exact .terminated (alike_of_recalls hle hlist hitems hplaced)
  | @timeout type _ _ htype hlist hheartbeat =>
    cases harrived
    rw [items_existing rfl hlist] at hitems
    have hkept : ofTimeout type (Document.alignFrom 1 ds) =
        .timeout type (.list (Document.alignFrom 1 ds)) := by
      rw [ofTimeout]
      split
      · rfl
      · next hother =>
        rw [hheartbeat hother] at hitems
        cases hitems
        rfl
    rw [Value.timeoutTypeFromWire_codeToWire htype, hkept] at hplaced ⊢
    exact .timeout _ (alike_of_recalls hle hlist hitems hplaced)
  | server nonRetryable =>
    cases harrived
    exact .server _
  | activity scheduledEventId startedEventId identity activityType activityId hretry =>
    cases harrived
    rw [Value.retryStateFromWire_codeToWire hretry]
    exact .activity ..
  | childWorkflow namespaceName workflowId runId workflowType initiatedEventId startedEventId hretry =>
    cases harrived
    rw [Value.retryStateFromWire_codeToWire hretry]
    exact .childWorkflow ..

end FailureKind

/-! ## Chains -/

/-- A failure is the one that another one was sent as: it has the class that the taxonomy has for it, the
same message, and the stack trace that was reported or else the stack; and it carries the same. -/
structure ThrownError.SameFailure (g g' : Graph) (e e' : ThrownError Value) (f f' : FailureFields Value) :
    Prop where
  errorClass : e'.errorClass = e.body.errorClass
  name : e'.name = .text e'.errorClass.name
  code : e'.body.code? = some (.text f.kind.code)
  message : e'.message = e.message
  stackTrace : f'.stackTrace = (f.stackTrace.orElse (g.stackOf e)).orElse (.text "")
  kind : f.kind.Same g' f'.kind

/-- A value of a larger graph is the failure that a value was sent as. -/
def Graph.SameFailure (g g' : Graph) (v v' : Value) : Prop :=
  ∃ e f e' f', g.errorOf? v = some e ∧ e.failure? = some f ∧ g'.errorOf? v' = some e' ∧
    e'.failure? = some f' ∧ e.SameFailure g g' e' f f'

/-- A value is a failure with the fields that its class declares. -/
def Graph.DeclaredFailure (g : Graph) (v : Value) : Prop :=
  ∃ e f, g.errorOf? v = some e ∧ e.failure? = some f ∧ f.kind.Declared g

theorem FailureKind.Same.errorClass {g : Graph} {k k' : FailureKind Value} (h : k.Same g k') :
    k'.errorClass = k.errorClass := by
  cases h <;> rfl

theorem FailureKind.Same.code {g : Graph} {k k' : FailureKind Value} (h : k.Same g k') :
    k'.code = k.code := by
  cases h <;> rfl

theorem ThrownError.errorClass_body {e : ThrownError Value} {f : FailureFields Value}
    (h : e.failure? = some f) : e.body.errorClass = f.kind.errorClass := by
  rw [failure?] at h
  cases hbody : e.body <;> rw [hbody] at h <;> cases h
  rfl

namespace ConverterOptions

variable {o r : ConverterOptions} {g g₁ g₂ : Graph} {v : Value}

theorem isSome_arrived_of_declared {k : FailureKind Value} (hk : k.Declared g) (ds : List Document) :
    ((k.map .existing).arrived ds).isSome = true := by
  cases hk <;> rfl

theorem stackTraceOf_existing {e : ThrownError Value} {f : FailureFields Value}
    (ho : o.includeStackTrace = true) (hf : e.failure? = some f) :
    o.stackTraceOf g (e.map Document.existing) = (f.stackTrace.orElse (g.stackOf e)).orElse (.text "") := by
  have hstack : g.stackOf (e.map Document.existing) = g.stackOf e := rfl
  rw [stackTraceOf, if_pos ho, ThrownError.failure?_map, hf, hstack]
  cases hmissing : f.stackTrace.isMissing <;> simp [Value.orElse, hmissing, Option.filter]

theorem sameFailure_of_raised {e : ThrownError Value} {f : FailureFields Value} {link x x' : Value}
    {a : ThrownError Document × Bool} (htrace : o.includeStackTrace = true) (hle : g ≤ g₂)
    (he : g.errorOf? x = some e) (hf : e.failure? = some f) (hk : f.kind.Declared g)
    (ha : o.Arrives g g₁ (e.map .existing) link a) (hx : g₁.Raised g₂ a.1 x') :
    g.SameFailure g₂ x x' := by
  obtain ⟨f₁, ds, display, frames, hf₁, hitems, rfl⟩ := ha
  rw [ThrownError.failure?_map, hf] at hf₁
  cases hf₁
  obtain ⟨k', hk'⟩ := Option.isSome_iff_exists.1 (isSome_arrived_of_declared hk (Document.alignFrom 1 ds))
  rw [hk'] at hx
  obtain ⟨cause, details, he', hplaced⟩ := hx
  have hsame := FailureKind.same_of_arrived hk hle hitems hk' hplaced
  refine ⟨e, f, _, ⟨display, link, _, k'.map fun _ => details⟩, he, hf, he', rfl, ?_⟩
  exact
    { errorClass := by
        rw [ThrownError.errorClass_body hf, ← hsame.errorClass]
        rfl
      name := by
        show Value.text k'.errorClass.name = .text (k'.map fun _ => details).errorClass.name
        rw [FailureKind.errorClass_map]
      code := by
        show some (ThrownError.failureCode k' .undefined) = _
        rw [ThrownError.failureCode_undefined, ← hsame.code, FailureKind.code_map]
      message := rfl
      stackTrace := stackTraceOf_existing htrace hf
      kind := hsame }

end ConverterOptions

/-- **Failures survive the round trip.** -/
theorem failures_survive_round_trip {o r : ConverterOptions} {g : Graph} {v : Value} {vs : List Value}
    (hcodec : r.codec = o.codec) (htrace : o.includeStackTrace = true) (hchain : g.CauseChain v vs)
    (hne : vs ≠ []) (ho : o.maxCauseDepth.Admits vs.length) (hr : r.maxCauseDepth.Admits vs.length)
    (hsend : ∀ x ∈ vs, g.DeclaredFailure x ∧ o.CanSend g x) :
    ∃ g₁ w g₂ v' vs', (o.errorToFailure g v).outcome.1 = .ok (g₁, w) ∧
      (r.failureToError g₁ w).outcome.1 = .ok (g₂, v') ∧ g ≤ g₂ ∧ g₂.CauseChain v' vs' ∧
        List.Forall₂ (g.SameFailure g₂) vs vs' := by
  have hlinks := ConverterOptions.linksOrSelf_walk_of_admits hchain hne ho
  -- every failure of the chain is sent as it is
  obtain ⟨errors, hmade⟩ : ∃ errors, List.Forall₂ (fun x e' => g.toFailure o.frames x = .ok e' ∧
      (∃ f, o.Sends g e' f ∧ f.stored = .undefined) ∧
        ∃ e f, g.errorOf? x = some e ∧ e.failure? = some f ∧ f.kind.Declared g ∧ e' = e.map .existing)
      vs errors :=
    exists_forall₂ fun x hx => by
      obtain ⟨⟨e, f, he, hf, hk⟩, hcan⟩ := hsend x hx
      obtain ⟨e', htoFailure, f', hf', hstored, -⟩ := hcan.sends
      have hsame : g.toFailure o.frames x = .ok (e.map .existing) := Graph.toFailure_of_failure he (by rw [hf]; rfl)
      cases hsame.symm.trans htoFailure
      exact ⟨_, htoFailure, ⟨f', hf', hstored⟩, e, f, he, hf, hk, rfl⟩
  obtain ⟨g₁, w, g₂, v', vs', arrivals, taken, hsent, hreceived, hle, hle', harrives, hchain', hraised, -,
      htaken⟩ := ConverterOptions.passage (r := r) hcodec
    (by rw [hlinks]; exact FailureWire.Except.mapM_eq_ok.2 (hmade.imp fun _ _ h => h.1))
    (ne_nil_of_forall₂ hmade hne)
    fun e' he' => by
      obtain ⟨x, -, -, hsends, -⟩ := exists_of_forall₂ hmade he'
      exact hsends
  have hboth : List.Forall₂ (fun x a => ∃ e f link, g.errorOf? x = some e ∧ e.failure? = some f ∧
      f.kind.Declared g ∧ o.Arrives g g₁ (e.map .existing) link a) vs arrivals :=
    forall₂_comp (fun _ _ _ hx ha => by
      obtain ⟨-, -, e, f, he, hf, hk, rfl⟩ := hx
      obtain ⟨link, ha⟩ := ha
      exact ⟨e, f, link, he, hf, hk, ha⟩) hmade harrives
  have hmapped : ∀ a ∈ arrivals, a.2 = true := by
    intro a ha
    obtain ⟨x, -, e, f, link, -, hf, hk, f₁, ds, display, frames, hf₁, -, rfl⟩ := exists_of_forall₂ hboth ha
    rw [ThrownError.failure?_map, hf] at hf₁
    cases hf₁
    exact ConverterOptions.isSome_arrived_of_declared hk _
  have hall : arrivals.take taken = arrivals :=
    List.take_of_length_le (by
      have hlength := hmade.length_eq
      rw [← harrives.length_eq, ← hlength]
      exact htaken _ hr (by omega))
  rw [hall, ConverterOptions.kept_of_mapped fun a ha => hmapped a (List.dropLast_subset _ ha),
    List.forall₂_map_left_iff] at hraised
  refine ⟨g₁, w, g₂, v', vs', hsent, hreceived, hle.trans hle', hchain', ?_⟩
  exact forall₂_comp (fun _ _ _ ⟨e, f, link, he, hf, hk, ha⟩ hx =>
    ConverterOptions.sameFailure_of_raised htrace (hle.trans hle') he hf hk ha hx) hboth hraised

/-- An application failure with a type, a detail and a delay, as object 1, and the failure of the activity
that it ended. -/
def declinedPayment : Graph :=
  ⟨[.list [.text "o-1"],
    .error <| .build (.application (.text "PaymentDeclined") (.object 0) (.bool true) (.number (.ofInt 1500)))
      (.text "card declined") (.text "PaymentDeclined: card declined") {},
    .error <| .build
      (.activity (.number 5) (.number 6) (.text "worker") (.text "charge") (.text "7")
        (.number RetryState.timeout.code))
      (.text "failed") (.text "failed") { cause := .object 1 }]⟩

/-- The failure of an activity comes back with the failure that caused it. -/
theorem failures_survive_round_trip_declinedPayment :
    ∃ g₁ w g₂ v' vs', (({} : ConverterOptions).errorToFailure declinedPayment (.object 2)).outcome.1 =
        .ok (g₁, w) ∧
      (({} : ConverterOptions).failureToError g₁ w).outcome.1 = .ok (g₂, v') ∧ declinedPayment ≤ g₂ ∧
        g₂.CauseChain v' vs' ∧
          List.Forall₂ (declinedPayment.SameFailure g₂) [.object 2, .object 1] vs' := by
  refine failures_survive_round_trip rfl rfl (.link rfl (.link rfl (.done rfl))) (by simp)
    (show 2 ≤ 50 by decide) (show 2 ≤ 50 by decide) fun x hx => ?_
  rcases List.mem_cons.1 hx with rfl | hx
  · refine ⟨⟨_, _, rfl, rfl, .activity _ _ _ _ _ (.inr ⟨.timeout, rfl⟩)⟩, ?_, ?_, nofun⟩
    · rintro e ⟨⟩
      refine ⟨⟨_, rfl⟩, ⟨_, rfl⟩, ?_, ?_, ?_⟩
      · rintro s ⟨⟩
      · rintro f ⟨⟩
        exact .inl rfl
      · rintro f ⟨⟩
        exact .activity ..
    · rintro e f ⟨⟩ ⟨⟩
      exact ⟨rfl, nofun⟩
  · obtain rfl := List.mem_singleton.1 hx
    refine ⟨⟨_, _, rfl, rfl, .application (.inr ⟨"PaymentDeclined", by decide, rfl⟩) rfl ⟨true, rfl⟩
      (.inr ⟨_, 1500, rfl, by decide +kernel, by decide⟩)⟩, ?_, ?_, nofun⟩
    · rintro e ⟨⟩
      refine ⟨⟨_, rfl⟩, ⟨_, rfl⟩, ?_, ?_, ?_⟩
      · rintro s ⟨⟩
      · rintro f ⟨⟩
        exact .inl rfl
      · rintro f ⟨⟩
        exact .application (.inr ⟨_, rfl⟩) (.existing rfl) (.inr ⟨_, rfl⟩)
    · rintro e f ⟨⟩ ⟨⟩
      refine ⟨rfl, fun x hx => ?_⟩
      obtain rfl : x = .text "o-1" := List.mem_singleton.1 hx
      exact Codec.restores_text rfl rfl (by decide +kernel)

end FailureWire
