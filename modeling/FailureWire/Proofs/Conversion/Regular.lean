import FailureWire.Proofs.Conversion.Arrival
import FailureWire.Proofs.Wire.Duration
import Mathlib.Tactic.IntervalCases

/-!
# Regular wire failures

A link is regular if nothing in it gets lost when it is decoded and encoded again: its codes are those that
the tables have, or 0, its delay is a whole number of milliseconds, only a heartbeat timeout has details,
and details that have no payloads are left out. `info.Regular P` says so of information whose payloads are
values with the property `P`.

Regular information is information about a kind that is stable (`Regular.exists_kind`): the kind that
arrives for it has the same information again.
-/

namespace FailureWire

/-! ## Regular information -/

/-- A duration of whole milliseconds as others write it: seconds, and less than a second beyond them. -/
def WireDuration.IsRegular (d : WireDuration) : Prop :=
  ∃ seconds millis : Int, seconds.natAbs ≤ 9007198 ∧ 0 ≤ millis ∧ millis < 1000 ∧
    d = ⟨.ofInt seconds, .ofInt (millis * 1000000)⟩

/-- Information of a known case in which nothing gets lost, with payloads of a property. -/
inductive FailureInfo.Regular (P : Value → Prop) : FailureInfo Document → Prop
  | unmapped : Regular P (.unmapped .undefined)
  | application (type : String) (nonRetryable : Bool) {payloads : List Value} {delay : Option WireDuration} :
    (∀ x ∈ payloads, P x) → (∀ d ∈ delay, d.IsRegular) →
      Regular P (.application (.text type) (.bool nonRetryable) (payloadsField (payloads.map .existing))
        (delay.map (·.document)))
  /-- Only a heartbeat timeout has details. -/
  | timeout {code : Nat} {payloads : List Value} : code ≤ 4 → (payloads ≠ [] → code = 4) →
    (∀ x ∈ payloads, P x) →
      Regular P (.timeout (.number (.ofInt code)) (payloadsField (payloads.map .existing)))
  | canceled {payloads : List Value} : (∀ x ∈ payloads, P x) →
    Regular P (.canceled (payloadsField (payloads.map .existing)))
  | terminated {payloads : List Value} : (∀ x ∈ payloads, P x) →
    Regular P (.terminated (payloadsField (payloads.map .existing)))
  | server (nonRetryable : Bool) : Regular P (.server (.bool nonRetryable))
  | activity (scheduledEventId startedEventId identity activityType activityId : Value) {code : Nat} :
    code ≤ 7 →
      Regular P (.activity scheduledEventId startedEventId identity activityType activityId
        (.number (.ofInt code)))
  | childWorkflow (namespaceName workflowId runId workflowType initiatedEventId startedEventId : Value)
    {code : Nat} : code ≤ 7 →
      Regular P (.childWorkflow namespaceName workflowId runId workflowType initiatedEventId startedEventId
        (.number (.ofInt code)))

/-- A link such as a converter writes, with payloads of a property: with its own source, and with the
message and the stack trace in their places. -/
structure WireLink.Regular (o : ConverterOptions) (P : Value → Prop) (link : WireLink) : Prop where
  message : link.message.IsText
  source : link.source = o.source
  stackTrace : link.stackTrace.IsText
  attributes : link.encodedAttributes = none
  info : link.info.Regular P

/-! ## Codes and delays -/

theorem codeToWire_timeoutTypeFromWire {code : Nat} (h : code ≤ 4) :
    codeToWire (timeoutTypeFromWire (codeToWire (.number (.ofInt code)))) =
      codeToWire (.number (.ofInt code)) := by
  interval_cases code <;> decide +kernel

theorem timeoutTypeFromWire_four :
    timeoutTypeFromWire (codeToWire (.number (.ofInt (4 : Nat)))) = .number TimeoutType.heartbeat.code := by
  decide +kernel

theorem codeToWire_retryStateFromWire {code : Nat} (h : code ≤ 7) :
    codeToWire (retryStateFromWire (codeToWire (.number (.ofInt code)))) = codeToWire (.number (.ofInt code)) := by
  interval_cases code <;> decide +kernel

theorem WireDuration.IsRegular.exists_delay {d : WireDuration} (h : d.IsRegular) :
    ∃ delay : Number, ofMillis delay = d ∧ d.toMillis = delay := by
  obtain ⟨seconds, millis, hs, hlow, hhigh, rfl⟩ := h
  refine ⟨.ofInt (seconds * 1000 + millis), ?_, toMillis_ofInt (by omega) (by omega)⟩
  have hseconds : (seconds * 1000 + millis) / 1000 = seconds := by omega
  have hmillis : (seconds * 1000 + millis) % 1000 = millis := by omega
  rw [ofMillis_ofInt (by omega), hseconds, hmillis]

/-! ## Stable kinds -/

namespace FailureKind

/-- What arrives for a kind, with as many details as it was sent with, is sent as it was. -/
structure Stable (k : FailureKind Document) (count : Nat) : Prop where
  typed : ∀ g, k.Typed g
  count_eq_zero : k.details? = none → count = 0
  info : ∀ ds payloads, ((k.arrived ds).getD .generic).info payloads = k.info payloads
  details : ∀ ds, ds.length = count →
    ((k.arrived (Document.alignFrom 1 ds)).getD .generic).details? =
      k.details?.map fun _ => .list (Document.alignFrom 1 ds)

theorem stable_application {type nonRetryable delay : Value} (count : Nat) (htype : type.IsOptionalText)
    (hflag : orFalse nonRetryable = nonRetryable) (hdelay : delay.IsOptionalNumber)
    (hsame : delay.conveyed = delay) : Stable (.application type (.list []) nonRetryable delay) count where
  typed _ := .application htype .empty hdelay
  count_eq_zero := nofun
  info ds payloads := by
    have htype : type.conveyedType.orElse (.text "") = type.orElse (.text "") := by
      rcases htype with rfl | ⟨s, rfl⟩
      · rfl
      · by_cases hempty : s = ""
        · subst hempty
          rfl
        · rw [Value.conveyedType_of_ne_empty (.inr ⟨s, hempty, rfl⟩)]
    simp only [arrived, Option.getD_some, ofApplication, info, hflag, hsame, htype]
  details _ _ := rfl

theorem stable_timeout {type : Value} {count : Nat}
    (hkept : codeToWire (timeoutTypeFromWire (codeToWire type)) = codeToWire type)
    (hheartbeat : count ≠ 0 → timeoutTypeFromWire (codeToWire type) = .number TimeoutType.heartbeat.code) :
    Stable (.timeout type (.list [])) count where
  typed _ := .timeout .empty
  count_eq_zero := nofun
  info ds payloads := by simp only [arrived, Option.getD_some, ofTimeout, info, hkept]
  details ds hds := by
    show some _ = some _
    by_cases hcount : count = 0
    · have hnone : ds = [] := List.length_eq_zero_iff.1 (hds.trans hcount)
      simp [hnone, Document.alignFrom]
    · rw [if_pos (hheartbeat hcount)]

theorem stable_cancelled (count : Nat) : Stable (.cancelled (.list [])) count where
  typed _ := .cancelled .empty
  count_eq_zero := nofun
  info _ _ := rfl
  details _ _ := rfl

theorem stable_terminated (count : Nat) : Stable (.terminated (.list [])) count where
  typed _ := .terminated .empty
  count_eq_zero := nofun
  info _ _ := rfl
  details _ _ := rfl

theorem stable_server {nonRetryable : Value} (hflag : orFalse nonRetryable = nonRetryable) :
    Stable (.server nonRetryable) 0 where
  typed _ := .server _
  count_eq_zero _ := rfl
  info _ _ := by simp only [arrived, Option.getD_some, ofServer, info, hflag]
  details _ _ := rfl

theorem stable_generic : Stable .generic 0 where
  typed _ := .generic
  count_eq_zero _ := rfl
  info _ _ := rfl
  details _ _ := rfl

theorem stable_activity (scheduledEventId startedEventId identity activityType activityId : Value)
    {retryState : Value} (hkept : codeToWire (retryStateFromWire (codeToWire retryState)) = codeToWire retryState) :
    Stable (.activity scheduledEventId startedEventId identity activityType activityId retryState) 0 where
  typed _ := .activity ..
  count_eq_zero _ := rfl
  info ds payloads := by simp only [arrived, Option.getD_some, info, hkept]
  details _ _ := rfl

theorem stable_childWorkflow
    (namespaceName workflowId runId workflowType initiatedEventId startedEventId : Value) {retryState : Value}
    (hkept : codeToWire (retryStateFromWire (codeToWire retryState)) = codeToWire retryState) :
    Stable (.childWorkflow namespaceName workflowId runId workflowType initiatedEventId startedEventId
      retryState) 0 where
  typed _ := .childWorkflow ..
  count_eq_zero _ := rfl
  info ds payloads := by simp only [arrived, Option.getD_some, info, hkept]
  details _ _ := rfl

theorem typed_arrived {g g' : Graph} {k : FailureKind Document} {details : Value} (ds : List Document)
    (hk : k.Typed g) (hd : k.details? ≠ none → g'.Listed (.existing details)) :
    ((((k.arrived ds).getD .generic).map fun _ => details).map .existing).Typed g' := by
  cases hk with
  | application htype _ hdelay =>
    refine .application ?_ (hd nofun) ?_
    · unfold Value.conveyedType
      split
      · exact htype
      · exact .inl rfl
    · rcases hdelay with rfl | ⟨n, rfl⟩
      · exact .inl rfl
      · exact .inr ⟨_, rfl⟩
  | cancelled _ => exact .cancelled (hd nofun)
  | terminated _ => exact .terminated (hd nofun)
  | timeout _ => exact .timeout (hd nofun)
  | server => exact .server _
  | activity => exact .activity ..
  | childWorkflow => exact .childWorkflow ..
  | generic | alreadyStarted => exact .generic

theorem info_map_existing (k : FailureKind Document) (f : Document → Value) (payloads : List Document) :
    ((k.map f).map .existing).info payloads = k.info payloads := by
  cases k <;> rfl

theorem isSome_arrived (k : FailureKind Document) (ds payloads : List Document) :
    (k.arrived ds).isSome = (k.info payloads).isMapped := by
  cases k <;> rfl

end FailureKind

/-- **Regular information is information about a stable kind.** -/
theorem FailureInfo.Regular.exists_kind {P : Value → Prop} {info : FailureInfo Document}
    (h : info.Regular P) :
    ∃ (k : FailureKind Document) (payloads : List Value), k.Stable payloads.length ∧
      info = k.info (payloads.map .existing) ∧ ∀ x ∈ payloads, P x := by
  cases h with
  | unmapped => exact ⟨.generic, [], FailureKind.stable_generic, rfl, nofun⟩
  | @application type nonRetryable payloads delay hp hdelay =>
    -- the delay is that of a number, or there is none
    obtain ⟨value, hvalue, hsame, hfield⟩ : ∃ value : Value, value.IsOptionalNumber ∧
        value.conveyed = value ∧ delayField value = delay.map (·.document) := by
      cases delay with
      | none => exact ⟨.undefined, .inl rfl, rfl, rfl⟩
      | some d =>
        obtain ⟨n, hd, hn⟩ := (hdelay d rfl).exists_delay
        refine ⟨.number n, .inr ⟨n, rfl⟩, ?_, ?_⟩
        · rw [Value.conveyed, hd, hn]
        · rw [delayField, ← hd]
          rfl
    have hflag : orFalse (.bool nonRetryable) = .bool nonRetryable := rfl
    refine ⟨_, payloads, FailureKind.stable_application _ (.inr ⟨type, rfl⟩) hflag hvalue hsame, ?_, hp⟩
    rw [FailureKind.info, hfield]
    rfl
  | timeout hcode hheartbeat hp =>
    refine ⟨_, _, FailureKind.stable_timeout (codeToWire_timeoutTypeFromWire hcode) fun hcount => ?_, rfl, hp⟩
    rw [hheartbeat (fun hnone => hcount (List.length_eq_zero_iff.2 hnone))]
    exact timeoutTypeFromWire_four
  | canceled hp => exact ⟨_, _, FailureKind.stable_cancelled _, rfl, hp⟩
  | terminated hp => exact ⟨_, _, FailureKind.stable_terminated _, rfl, hp⟩
  | server nonRetryable =>
    have hflag : orFalse (.bool nonRetryable) = .bool nonRetryable := rfl
    exact ⟨_, [], FailureKind.stable_server hflag, rfl, nofun⟩
  | activity scheduledEventId startedEventId identity activityType activityId hcode =>
    exact ⟨_, [], FailureKind.stable_activity _ _ _ _ _ (codeToWire_retryStateFromWire hcode), rfl, nofun⟩
  | childWorkflow namespaceName workflowId runId workflowType initiatedEventId startedEventId hcode =>
    exact ⟨_, [], FailureKind.stable_childWorkflow _ _ _ _ _ _ (codeToWire_retryStateFromWire hcode), rfl, nofun⟩

end FailureWire
