import Mathlib.Logic.Relation
import FailureWire.Proofs.Value.Order
import FailureWire.Proofs.Wire.Shape

/-!
# Parsed wire failures

`g.IsWireFailure v` spells the wire format out: which properties a failure has, of what sort each of them is, and what
information of each known case looks like. `wire_format_parsed` says that `parseWireFailure` accepts exactly the
values of the format, as long as no failure is a cause of itself. What is returned is `v` without whatever the format
does not name (`g.Trimmed v d`), and it is returned unchanged when it is parsed again.

The walk along causes is bounded by the number of objects: the failures on the way are different ones
(`Ancestors`).
-/

namespace FailureWire

/-! ## The format -/

namespace WireFormat

/-- The cases of failure information that the format knows. -/
def caseNames : List String :=
  ["applicationFailureInfo", "timeoutFailureInfo", "canceledFailureInfo", "terminatedFailureInfo",
    "serverFailureInfo", "resetWorkflowFailureInfo", "activityFailureInfo",
    "childWorkflowExecutionFailureInfo", "nexusOperationExecutionFailureInfo", "nexusHandlerFailureInfo"]

end WireFormat

namespace Value

def IsBool (v : Value) : Prop := ∃ b, v = .bool b

def IsFiniteNumber (v : Value) : Prop := ∃ n, v = .number n ∧ n.isFinite = true

def IsSafeInteger (v : Value) : Prop := ∃ n i, v = .number n ∧ n.toSafeInt? = some i

/-- A value is missing, or as wanted. -/
def Optionally (wanted : Value → Prop) (v : Value) : Prop := v = .undefined ∨ wanted v

end Value

namespace Graph

/-- A payload: bytes, and a plain record of bytes, in which a field `__proto__` is not looked at. -/
structure IsWirePayload (g : Graph) (v : Value) : Prop where
  isKeyed : g.isKeyed v = true
  metadata : ∃ fields, g.recordOf? (g.read v "metadata") = some fields ∧
    ∀ f ∈ fields, f.1 ≠ "__proto__" → (g.bytesOf? f.2).isSome = true
  data : (g.bytesOf? (g.read v "data")).isSome = true

structure IsPayloadList (g : Graph) (v : Value) : Prop where
  isKeyed : g.isKeyed v = true
  payloads : ∃ items, g.listOf? (g.read v "payloads") = some items ∧ ∀ p ∈ items, g.IsWirePayload p

structure IsDuration (g : Graph) (v : Value) : Prop where
  isKeyed : g.isKeyed v = true
  seconds : (g.read v "seconds").IsFiniteNumber
  nanos : (g.read v "nanos").IsSafeInteger

structure IsNamed (g : Graph) (v : Value) : Prop where
  isKeyed : g.isKeyed v = true
  name : (g.read v "name").IsText

structure IsExecution (g : Graph) (v : Value) : Prop where
  isKeyed : g.isKeyed v = true
  workflowId : (g.read v "workflowId").IsText
  runId : (g.read v "runId").IsText

/-- The value that information of each case has. -/
inductive IsInfoValue (g : Graph) (v : Value) : String → Prop
  | application : (g.read v "type").IsText → (g.read v "nonRetryable").IsBool →
    (g.read v "details").Optionally g.IsPayloadList → (g.read v "nextRetryDelay").Optionally g.IsDuration →
      IsInfoValue g v "applicationFailureInfo"
  | timeout : (g.read v "timeoutType").IsSafeInteger →
    (g.read v "lastHeartbeatDetails").Optionally g.IsPayloadList → IsInfoValue g v "timeoutFailureInfo"
  | canceled : (g.read v "details").Optionally g.IsPayloadList → IsInfoValue g v "canceledFailureInfo"
  | terminated : (g.read v "details").Optionally g.IsPayloadList → IsInfoValue g v "terminatedFailureInfo"
  | server : (g.read v "nonRetryable").IsBool → IsInfoValue g v "serverFailureInfo"
  | resetWorkflow : (g.read v "lastHeartbeatDetails").Optionally g.IsPayloadList →
    IsInfoValue g v "resetWorkflowFailureInfo"
  | activity : (g.read v "scheduledEventId").IsSafeInteger → (g.read v "startedEventId").IsSafeInteger →
    (g.read v "identity").IsText → g.IsNamed (g.read v "activityType") → (g.read v "activityId").IsText →
      (g.read v "retryState").IsSafeInteger → IsInfoValue g v "activityFailureInfo"
  | childWorkflow : (g.read v "namespace").IsText → g.IsExecution (g.read v "workflowExecution") →
    g.IsNamed (g.read v "workflowType") → (g.read v "initiatedEventId").IsSafeInteger →
      (g.read v "startedEventId").IsSafeInteger → (g.read v "retryState").IsSafeInteger →
        IsInfoValue g v "childWorkflowExecutionFailureInfo"
  | nexusOperation : (g.read v "scheduledEventId").IsSafeInteger → (g.read v "endpoint").IsText →
    (g.read v "service").IsText → (g.read v "operation").IsText → (g.read v "operationToken").IsText →
      IsInfoValue g v "nexusOperationExecutionFailureInfo"
  | nexusHandler : (g.read v "type").IsText → IsInfoValue g v "nexusHandlerFailureInfo"

/-- Failure information: any object of a case that the format does not know, lists included, or an object of
a known case with the value of that case. -/
inductive IsInfo (g : Graph) (v : Value) : Prop
  | unknown : (g.objectOf? v).isSome = true →
    (∀ name ∈ WireFormat.caseNames, g.read v "case" ≠ .text name) → IsInfo g v
  | known (name : String) : g.isKeyed v = true → g.read v "case" = .text name →
    g.isKeyed (g.read v "value") = true → g.IsInfoValue (g.read v "value") name → IsInfo g v

/-- A wire failure: an object, other than a list, with a message and whatever else it has well formed, and so
is its cause, if it has one. -/
inductive IsWireFailure (g : Graph) : Value → Prop
  | intro {v : Value} (isKeyed : g.isKeyed v = true) (message : (g.read v "message").IsText)
    (source : (g.read v "source").Optionally Value.IsText)
    (stackTrace : (g.read v "stackTrace").Optionally Value.IsText)
    (encodedAttributes : (g.read v "encodedAttributes").Optionally g.IsWirePayload)
    (cause : g.read v "cause" ≠ .undefined → IsWireFailure g (g.read v "cause"))
    (failureInfo : (g.read v "failureInfo").Optionally g.IsInfo) : IsWireFailure g v

variable {g g' : Graph} {first : ObjectId} {v w r : Value} {name : String}

theorem IsInfo.ne_undefined (h : g.IsInfo v) : v ≠ .undefined := by
  rintro rfl
  cases h with
  | unknown hobject => cases hobject
  | known _ hkeyed => cases hkeyed

theorem IsWireFailure.ne_undefined (h : g.IsWireFailure v) : v ≠ .undefined := by
  rintro rfl
  obtain ⟨hkeyed, -⟩ := h
  cases hkeyed

/-! ## The format as schemas -/

theorem conforms_payload : g.Conforms Schema.payload v ↔ g.IsWirePayload v :=
  ⟨fun ⟨hkeyed, hmetadata, hdata, _⟩ => ⟨hkeyed, hmetadata, hdata⟩,
    fun h => ⟨h.isKeyed, h.metadata, h.data, trivial⟩⟩

theorem conforms_payloads : g.Conforms Schema.payloads v ↔ g.IsPayloadList v :=
  ⟨fun ⟨hkeyed, ⟨items, hitems, hall⟩, _⟩ =>
      ⟨hkeyed, items, hitems, fun p hp => conforms_payload.1 (hall p hp)⟩,
    fun ⟨hkeyed, items, hitems, hall⟩ =>
      ⟨hkeyed, ⟨items, hitems, fun p hp => conforms_payload.2 (hall p hp)⟩, trivial⟩⟩

theorem conforms_duration : g.Conforms Schema.duration v ↔ g.IsDuration v :=
  ⟨fun ⟨hkeyed, hseconds, hnanos, _⟩ => ⟨hkeyed, hseconds, hnanos⟩,
    fun h => ⟨h.isKeyed, h.seconds, h.nanos, trivial⟩⟩

theorem conforms_named : g.Conforms Schema.named v ↔ g.IsNamed v :=
  ⟨fun ⟨hkeyed, hname, _⟩ => ⟨hkeyed, hname⟩, fun h => ⟨h.isKeyed, h.name, trivial⟩⟩

theorem conforms_optional {s : Schema} {wanted : Value → Prop} (h : ∀ x, g.Conforms s x ↔ wanted x) :
    g.Conforms (.optional s) v ↔ v.Optionally wanted :=
  or_congr_right (h v)

/-- **The table of cases says what the format says.** -/
theorem isInfoValue_iff : g.isKeyed v = true ∧ g.IsInfoValue v name ↔
    ∃ s, Fields.get? Schema.infoCases name = some s ∧ g.Conforms s v := by
  have hdetails {x : Value} := conforms_optional (v := x) fun y => conforms_payloads (g := g) (v := y)
  have hdelay {x : Value} := conforms_optional (v := x) fun y => conforms_duration (g := g) (v := y)
  constructor
  · rintro ⟨hkeyed, h⟩
    cases h with
    | application htype hretry hpayloads hduration =>
      exact ⟨_, rfl, hkeyed, htype, hretry, hdetails.2 hpayloads, hdelay.2 hduration, trivial⟩
    | timeout htype hpayloads => exact ⟨_, rfl, hkeyed, htype, hdetails.2 hpayloads, trivial⟩
    | canceled hpayloads | terminated hpayloads | resetWorkflow hpayloads =>
      exact ⟨_, rfl, hkeyed, hdetails.2 hpayloads, trivial⟩
    | server hretry => exact ⟨_, rfl, hkeyed, hretry, trivial⟩
    | activity hscheduled hstarted hidentity htype hid hstate =>
      exact ⟨_, rfl, hkeyed, hscheduled, hstarted, hidentity, conforms_named.2 htype, hid, hstate, trivial⟩
    | childWorkflow hnamespace hexecution htype hinitiated hstarted hstate =>
      exact ⟨_, rfl, hkeyed, hnamespace,
        ⟨hexecution.isKeyed, hexecution.workflowId, hexecution.runId, trivial⟩, conforms_named.2 htype,
        hinitiated, hstarted, hstate, trivial⟩
    | nexusOperation hscheduled hendpoint hservice hoperation htoken =>
      exact ⟨_, rfl, hkeyed, hscheduled, hendpoint, hservice, hoperation, htoken, trivial⟩
    | nexusHandler htype => exact ⟨_, rfl, hkeyed, htype, trivial⟩
  · rintro ⟨s, hs, h⟩
    have hmem := Fields.mem_of_get? hs
    simp only [Schema.infoCases, List.mem_cons, Prod.mk.injEq, List.not_mem_nil, or_false] at hmem
    rcases hmem with ⟨rfl, rfl⟩ | ⟨rfl, rfl⟩ | ⟨rfl, rfl⟩ | ⟨rfl, rfl⟩ | ⟨rfl, rfl⟩ | ⟨rfl, rfl⟩ |
      ⟨rfl, rfl⟩ | ⟨rfl, rfl⟩ | ⟨rfl, rfl⟩ | ⟨rfl, rfl⟩
    · obtain ⟨hkeyed, htype, hretry, hpayloads, hduration, -⟩ := h
      exact ⟨hkeyed, .application htype hretry (hdetails.1 hpayloads) (hdelay.1 hduration)⟩
    · obtain ⟨hkeyed, htype, hpayloads, -⟩ := h
      exact ⟨hkeyed, .timeout htype (hdetails.1 hpayloads)⟩
    · exact ⟨h.1, .canceled (hdetails.1 h.2.1)⟩
    · exact ⟨h.1, .terminated (hdetails.1 h.2.1)⟩
    · exact ⟨h.1, .server h.2.1⟩
    · exact ⟨h.1, .resetWorkflow (hdetails.1 h.2.1)⟩
    · obtain ⟨hkeyed, hscheduled, hstarted, hidentity, htype, hid, hstate, -⟩ := h
      exact ⟨hkeyed, .activity hscheduled hstarted hidentity (conforms_named.1 htype) hid hstate⟩
    · obtain ⟨hkeyed, hnamespace, ⟨hexecution, hworkflow, hrun, -⟩, htype, hinitiated, hstarted, hstate, -⟩ :=
        h
      exact ⟨hkeyed, .childWorkflow hnamespace ⟨hexecution, hworkflow, hrun⟩ (conforms_named.1 htype)
        hinitiated hstarted hstate⟩
    · obtain ⟨hkeyed, hscheduled, hendpoint, hservice, hoperation, htoken, -⟩ := h
      exact ⟨hkeyed, .nexusOperation hscheduled hendpoint hservice hoperation htoken⟩
    · exact ⟨h.1, .nexusHandler h.2.1⟩

theorem ofCase?_eq_none : Schema.ofCase? v = none ↔ ∀ name ∈ WireFormat.caseNames, v ≠ .text name := by
  cases v with
  | text s =>
    have hnames : Schema.infoCases.map (·.1) = WireFormat.caseNames := rfl
    rw [Schema.ofCase?, Value.text?, Option.bind_some, Fields.get?_eq_none_iff, Fields.names, hnames]
    constructor
    · rintro hs name hname ⟨⟩
      exact hs hname
    · exact fun hs hmem => hs s hmem rfl
  | undefined | null | bool | number | big | object => simp [Schema.ofCase?, Value.text?]

theorem fieldsConform_leading : g.FieldsConform WireFormat.leading v ↔
    (g.read v "message").IsText ∧ (g.read v "source").Optionally Value.IsText ∧
      (g.read v "stackTrace").Optionally Value.IsText ∧
        (g.read v "encodedAttributes").Optionally g.IsWirePayload := by
  constructor
  · rintro ⟨hmessage, hsource, hstack, hattributes, -⟩
    exact ⟨hmessage, hsource, hstack, (conforms_optional fun _ => conforms_payload).1 hattributes⟩
  · rintro ⟨hmessage, hsource, hstack, hattributes⟩
    exact ⟨hmessage, hsource, hstack, (conforms_optional fun _ => conforms_payload).2 hattributes, trivial⟩

/-! ## What is kept -/

/-- Failure information without what the format does not name. -/
def trimInfo (g : Graph) (v : Value) : Document :=
  match Schema.ofCase? (g.read v "case") with
  | some s => .record [("case", .existing (g.read v "case")), ("value", g.trim s (g.read v "value"))]
  | none => .record [("case", .undefined)]

/-- An optional property, copied if there is something. -/
def trimOptional (g : Graph) (v : Value) (name : String) (copy : Value → Document) : Fields Document :=
  ((g.get? v name).map fun w => (name, if w = .undefined then .undefined else copy w)).toList

/-- A document is a failure, and so on along causes, without what the format does not name. -/
inductive Trimmed (g : Graph) : Value → Document → Prop
  | intro {v : Value} {d : Document} : (g.read v "cause" ≠ .undefined → Trimmed g (g.read v "cause") d) →
    Trimmed g v (.record (g.trimFields WireFormat.leading v ++ g.trimOptional v "cause" (fun _ => d) ++
      g.trimOptional v "failureInfo" g.trimInfo))

/-! ## Checks of information and of optional properties -/

/-- **Information is accepted exactly where it is of the format.** -/
theorem checkInfo_of_isInfo (h : g.IsInfo v) : WireFormat.checkInfo g v = .ok (g.trimInfo v) := by
  unfold WireFormat.checkInfo trimInfo
  cases h with
  | unknown hobject hcase =>
    rw [if_pos hobject]
    dsimp only
    rw [ofCase?_eq_none.2 hcase]
  | known name hkeyed hcase hvalue hinfo =>
    obtain ⟨s, hs, hconforms⟩ := isInfoValue_iff.1 ⟨hvalue, hinfo⟩
    obtain ⟨-, n, -, hn⟩ := objectOf?_of_isKeyed hkeyed
    have hofCase : Schema.ofCase? (g.read v "case") = some s := by rw [hcase]; exact hs
    rw [if_pos (by rw [hn]; rfl)]
    dsimp only
    rw [hofCase]
    dsimp only
    rw [check_of_conforms hconforms, Checked.under_ok, if_pos (by rw [hkeyed]; rfl)]
    rfl

theorem isInfo_of_findings (h : (WireFormat.checkInfo g v).findings = []) : g.IsInfo v := by
  unfold WireFormat.checkInfo at h
  split at h
  next hobject =>
    dsimp only at h
    cases hcase : Schema.ofCase? (g.read v "case") with
    | none => exact .unknown hobject (ofCase?_eq_none.1 hcase)
    | some s =>
      rw [hcase] at h
      dsimp only at h
      split at h
      next hkept =>
        obtain ⟨hkeyed, -⟩ := Bool.and_eq_true_iff.1 hkept
        have hconforms := findings_check.1 (Checked.findings_under.1 h)
        obtain ⟨name, hname, hs⟩ := Option.bind_eq_some_iff.1 hcase
        obtain ⟨hvalue, hinfo⟩ := isInfoValue_iff.2 ⟨s, hs, hconforms⟩
        exact .known name hkeyed (Value.text?_eq_some.1 hname) hvalue hinfo
      next => cases h
  next => cases h

theorem checkOptional_ok {check : Value → Checked} (copy : Value → Document)
    (h : g.read v name ≠ .undefined → check (g.read v name) = .ok (copy (g.read v name))) :
    WireFormat.checkOptional g v name check =
      (g.trimOptional v name copy).map fun f => (f.1, .ok f.2) := by
  unfold WireFormat.checkOptional trimOptional
  cases hv : g.get? v name with
  | none => rfl
  | some w =>
    rw [read_eq_of_get? hv] at h
    cases w with
    | undefined => rfl
    | null | bool | number | text | big | object =>
      dsimp only
      rw [h nofun]
      rfl

theorem findings_of_checkOptional {check : Value → Checked}
    (h : ∀ f ∈ WireFormat.checkOptional g v name check, f.2.findings = []) :
    g.read v name ≠ .undefined → (check (g.read v name)).findings = [] := by
  intro hdefined
  unfold WireFormat.checkOptional at h
  cases hv : g.get? v name with
  | none => exact absurd (read_eq_undefined hv) hdefined
  | some w =>
    rw [read_eq_of_get? hv] at hdefined ⊢
    rw [hv] at h
    cases w with
    | undefined => exact absurd rfl hdefined
    | null | bool | number | text | big | object =>
      exact Checked.findings_under.1 (h _ (List.mem_singleton_self _))

/-! ## Chains of causes -/

def Blames (g : Graph) (v w : Value) : Prop := g.get? v "cause" = some w

/-- No value on the way along causes is a cause of itself, as in every value without cycles. -/
def Unwound (g : Graph) (v : Value) : Prop :=
  ∀ x, Relation.ReflTransGen g.Blames v x → ¬ Relation.TransGen g.Blames x x

theorem Unwound.cause (h : g.Unwound v) (hw : g.Blames v w) : g.Unwound w := fun x hx => h x (hx.head hw)

theorem unwound_of_forall (h : ∀ w, g.Blames v w → g.Unwound w) : g.Unwound v := by
  intro x hx
  rcases hx.cases_head with rfl | ⟨w, hw, hrest⟩
  · intro hloop
    obtain ⟨w, hw, hback⟩ := Relation.TransGen.head'_iff.1 hloop
    exact h w hw v hback hloop
  · exact h w hw x hrest

theorem unwound_undefined : g.Unwound .undefined := unwound_of_forall nofun

/-- The causes of a wire failure come to an end. -/
theorem IsWireFailure.unwound (h : g.IsWireFailure v) : g.Unwound v := by
  induction h with
  | @intro v _ _ _ _ _ _ _ ih =>
    refine unwound_of_forall fun w hw => ?_
    obtain rfl := read_eq_of_get? hw
    by_cases hundefined : g.read v "cause" = .undefined
    · rw [hundefined]
      exact unwound_undefined
    · exact ih hundefined

/-- The failures that a walk has met on its way to a value. -/
structure Ancestors (g : Graph) (outer : List (ObjectId × Nat)) (v : Value) : Prop where
  blames : ∀ e ∈ outer, Relation.TransGen g.Blames (.object e.1) v
  nodup : (outer.map (·.1)).Nodup
  lt : ∀ e ∈ outer, e.1 < g.size

section
variable {outer : List (ObjectId × Nat)}

theorem ancestors_nil (g : Graph) (v : Value) : g.Ancestors [] v := ⟨nofun, List.nodup_nil, nofun⟩

/-- There are no more of them than there are objects. -/
theorem Ancestors.length_le (h : g.Ancestors outer v) : outer.length ≤ g.size := by
  have hsubset : outer.map (·.1) ⊆ List.range g.size := by
    intro id hid
    obtain ⟨e, he, rfl⟩ := List.mem_map.1 hid
    exact List.mem_range.2 (h.lt e he)
  simpa using (h.nodup.subperm hsubset).length_le

/-- None of them is met again. -/
theorem Ancestors.lookup (h : g.Ancestors outer v) (hv : g.Unwound v) :
    (v.id?.bind fun id => outer.lookup id) = none := by
  cases v with
  | object id =>
    refine List.lookup_eq_none_iff.2 fun e he => ?_
    rw [bne_iff_ne]
    rintro rfl
    exact hv _ .refl (h.blames e he)
  | undefined | null | bool | number | text | big => rfl

/-- The walk goes on. -/
theorem Ancestors.cause (h : g.Ancestors outer v) (hv : g.Unwound v) (hw : g.Blames v w) (count : Nat) :
    g.Ancestors ((v.id?.map fun id => (id, count)).toList ++ outer) w := by
  cases v with
  | object id =>
    have hlt : id < g.size := by
      unfold Blames Graph.get? at hw
      cases hn : g.objectOf? (.object id) with
      | none => simp [hn] at hw
      | some n => exact (List.getElem?_eq_some_iff.1 hn).1
    refine ⟨fun e he => ?_, List.nodup_cons.2 ⟨fun hid => ?_, h.nodup⟩, fun e he => ?_⟩
    · rcases List.mem_cons.1 he with rfl | he
      · exact .single hw
      · exact (h.blames e he).tail hw
    · obtain ⟨e, he, rfl⟩ := List.mem_map.1 hid
      exact hv _ .refl (h.blames e he)
    · rcases List.mem_cons.1 he with rfl | he
      · exact hlt
      · exact h.lt e he
  | undefined | null | bool | number | text | big => cases hw

end

/-! ## Parsing -/

/-- **A wire failure is accepted**, and returned without what the format does not name. -/
theorem checkFailure_of_isWireFailure (fuel count : Nat) {outer : List (ObjectId × Nat)}
    (h : g.IsWireFailure v) (houter : g.Ancestors outer v) (hfuel : g.size < fuel + outer.length) :
    ∃ d, WireFormat.checkFailure g fuel outer count v = .ok d ∧ g.Trimmed v d := by
  induction fuel generalizing v outer count with
  | zero =>
    have := houter.length_le
    omega
  | succ fuel ih =>
    have hunwound := h.unwound
    obtain ⟨hkeyed, hmessage, hsource, hstack, hattributes, hcause, hinfo⟩ := h
    have hleading := fieldsConform_leading.2 ⟨hmessage, hsource, hstack, hattributes⟩
    simp only [WireFormat.checkFailure, houter.lookup hunwound, hkeyed, if_true]
    generalize List.foldl _ (count + 1) _ = inner
    -- what is made of the cause, if there is one
    obtain ⟨d, hd⟩ : ∃ d, g.read v "cause" ≠ .undefined →
        WireFormat.checkFailure g fuel ((v.id?.map fun id => (id, count)).toList ++ outer) inner
          (g.read v "cause") = .ok d ∧ g.Trimmed (g.read v "cause") d := by
      by_cases hundefined : g.read v "cause" = .undefined
      · exact ⟨.undefined, fun hdefined => absurd hundefined hdefined⟩
      · obtain ⟨id, n, rfl, -⟩ := objectOf?_of_isKeyed hkeyed
        obtain ⟨w, hw⟩ := Option.ne_none_iff_exists'.1 fun hnone => hundefined (read_eq_undefined hnone)
        have hcause := hcause hundefined
        rw [read_eq_of_get? hw] at hcause ⊢
        have hroom : g.size < fuel + (((Value.object id).id?.map fun id => (id, count)).toList ++ outer).length := by
          show g.size < fuel + (outer.length + 1)
          omega
        obtain ⟨d, hd⟩ := ih inner hcause (houter.cause hunwound hw count) hroom
        exact ⟨d, fun _ => hd⟩
    refine ⟨_, ?_, .intro fun hdefined => (hd hdefined).2⟩
    rw [checkFields_of_conform hleading, checkOptional_ok (fun _ => d) fun hdefined => (hd hdefined).1,
      checkOptional_ok g.trimInfo fun hdefined => checkInfo_of_isInfo (hinfo.resolve_left hdefined), ← List.map_append,
      ← List.map_append, Checked.recordOf_ok]

theorem isWireFailure_of_findings {fuel : Nat} {outer : List (ObjectId × Nat)} {count : Nat}
    (h : (WireFormat.checkFailure g fuel outer count v).findings = []) (hunwound : g.Unwound v)
    (houter : g.Ancestors outer v) (hfuel : g.size < fuel + outer.length) : g.IsWireFailure v := by
  induction fuel generalizing v outer count with
  | zero =>
    have := houter.length_le
    omega
  | succ fuel ih =>
    simp only [WireFormat.checkFailure, houter.lookup hunwound] at h
    split at h
    next hkeyed =>
      generalize List.foldl _ (count + 1) _ = inner at h
      have hall := Checked.findings_recordOf.1 h
      have hleading := fieldsConform_of_findings fun f hf =>
        hall f (List.mem_append_left _ (List.mem_append_left _ hf))
      obtain ⟨hmessage, hsource, hstack, hattributes⟩ := fieldsConform_leading.1 hleading
      have hcause := findings_of_checkOptional fun f hf =>
        hall f (List.mem_append_left _ (List.mem_append_right _ hf))
      have hinfo := findings_of_checkOptional fun f hf => hall f (List.mem_append_right _ hf)
      refine .intro hkeyed hmessage hsource hstack hattributes (fun hdefined => ?_) ?_
      · obtain ⟨id, n, rfl, -⟩ := objectOf?_of_isKeyed hkeyed
        obtain ⟨w, hw⟩ := Option.ne_none_iff_exists'.1 fun hnone => hdefined (read_eq_undefined hnone)
        have hcause := hcause hdefined
        rw [read_eq_of_get? hw] at hcause ⊢
        refine ih hcause (hunwound.cause hw) (houter.cause hunwound hw count) ?_
        show g.size < fuel + (outer.length + 1)
        omega
      · by_cases hundefined : g.read v "failureInfo" = .undefined
        · exact .inl hundefined
        · exact .inr (isInfo_of_findings (hinfo hundefined))
    next => cases h

/-- A failure is trimmed in one way only. -/
theorem Trimmed.unique {d d' : Document} (h : g.Trimmed v d) (h' : g.Trimmed v d') : d = d' := by
  induction h generalizing d' with
  | @intro v d _ ih =>
    obtain ⟨hcause⟩ := h'
    rename_i d'
    have hsame : g.trimOptional v "cause" (fun _ => d) = g.trimOptional v "cause" fun _ => d' := by
      unfold trimOptional
      cases hv : g.get? v "cause" with
      | none => rfl
      | some w =>
        rw [read_eq_of_get? hv] at hcause ih
        by_cases hundefined : w = .undefined
        · rw [Option.map_some, Option.map_some, if_pos hundefined, if_pos hundefined]
        · rw [ih hundefined (hcause hundefined)]
    rw [hsame]

/-! ## Parsing again -/

theorem get?_trimOptional (v : Value) (name other : String) (copy : Value → Document) :
    Fields.get? (g.trimOptional v name copy) other =
      if name = other then (g.get? v name).map fun w => if w = .undefined then .undefined else copy w
      else none := by
  unfold trimOptional
  cases g.get? v name with
  | none => simp
  | some w => simp [Fields.get?_cons]

theorem trimOptional_shown {copy : Value → Document} (copy' : Value → Document)
    (hr : Option.Rel (g'.Shows first)
      ((g.get? v name).map fun w => if w = .undefined then .undefined else copy w) (g'.get? r name))
    (h : g.read v name ≠ .undefined → ∀ x, g'.Shows first (copy (g.read v name)) x →
      x ≠ .undefined ∧ copy' x = copy (g.read v name)) :
    g'.trimOptional r name copy' = g.trimOptional v name copy ∧
      (g'.read r name ≠ .undefined → g.read v name ≠ .undefined ∧
        g'.Shows first (copy (g.read v name)) (g'.read r name)) := by
  unfold trimOptional
  generalize hfound : g'.get? r name = found at hr
  cases hv : g.get? v name with
  | none =>
    rw [hv] at hr
    cases hr
    exact ⟨rfl, fun hdefined => absurd (read_eq_undefined hfound) hdefined⟩
  | some w =>
    rw [hv] at hr
    rw [read_eq_of_get? hv] at h ⊢
    cases hr with
    | @some _ x hshow =>
      rw [read_eq_of_get? hfound, Option.map_some, Option.map_some]
      dsimp only at hshow
      by_cases hundefined : w = .undefined
      · rw [if_pos hundefined] at hshow ⊢
        obtain rfl : x = .undefined := hshow
        exact ⟨rfl, fun hdefined => absurd rfl hdefined⟩
      · rw [if_neg hundefined] at hshow ⊢
        obtain ⟨hx, hcopy⟩ := h hundefined x hshow
        rw [if_neg hx, hcopy]
        exact ⟨rfl, fun _ => ⟨hundefined, hshow⟩⟩

/-- What is returned of information is information, and nothing of it is left out a second time. -/
theorem trimInfo_shown (hle : g ≤ g') (hv : g.IsInfo v) (hr : g'.Shows first (g.trimInfo v) r) :
    g'.IsInfo r ∧ g'.trimInfo r = g.trimInfo v := by
  have hread := g'.reading_shows first
  cases hcase : Schema.ofCase? (g.read v "case") with
  | none =>
    simp only [trimInfo, hcase] at hr ⊢
    have hr_case : g'.read r "case" = .undefined := hread.read hr "case" rfl
    obtain ⟨id, rfl⟩ := hread.isObject hr
    obtain ⟨copies, hcopies, -⟩ := hr
    refine ⟨.unknown (by rw [hcopies]; rfl) (by rw [hr_case]; exact fun _ _ => nofun), ?_⟩
    rw [hr_case]
    rfl
  | some s =>
    obtain ⟨name, hname, hs⟩ := Option.bind_eq_some_iff.1 hcase
    have htext := Value.text?_eq_some.1 hname
    have hconforms : g.Conforms s (g.read v "value") := by
      cases hv with
      | unknown _ hunknown => rw [ofCase?_eq_none.2 hunknown] at hcase; cases hcase
      | known name' _ hcase' hvalue hinfo =>
        rw [htext] at hcase'
        cases hcase'
        obtain ⟨s', hs', hconforms⟩ := isInfoValue_iff.1 ⟨hvalue, hinfo⟩
        cases hs.symm.trans hs'
        exact hconforms
    have hdistinct : s.isDistinct = true :=
      (by decide : ∀ f ∈ Schema.infoCases, f.2.isDistinct = true) _ (Fields.mem_of_get? hs)
    simp only [trimInfo, hcase] at hr ⊢
    have hr_case : g'.read r "case" = g.read v "case" := hread.read_existing hr "case" rfl
    have hr_value : g'.Shows first (g.trim s (g.read v "value")) (g'.read r "value") :=
      hread.read hr "value" rfl
    obtain ⟨hconforms', htrim⟩ := trim_shown hle hdistinct hconforms hr_value
    obtain ⟨hvalue, hinfo⟩ := isInfoValue_iff.2 ⟨s, hs, hconforms'⟩
    obtain ⟨copies, hcopies, -⟩ := hr
    refine ⟨.known name (by rw [isKeyed, hcopies]) (hr_case.trans htext) hvalue hinfo, ?_⟩
    rw [hr_case, hcase]
    dsimp only
    rw [htrim]

theorem shows_trimmed {d : Document} (hr : g'.Shows first (.record (g.trimFields WireFormat.leading v ++
    g.trimOptional v "cause" (fun _ => d) ++ g.trimOptional v "failureInfo" g.trimInfo)) r) :
    ShowsTrimmed g g' first WireFormat.leading v r ∧
      Option.Rel (g'.Shows first) ((g.get? v "cause").map fun w => if w = .undefined then .undefined else d)
        (g'.get? r "cause") ∧
      Option.Rel (g'.Shows first)
        ((g.get? v "failureInfo").map fun w => if w = .undefined then .undefined else g.trimInfo w)
        (g'.get? r "failureInfo") := by
  have hread := (g'.reading_shows first).get? hr
  have hcause := hread "cause"
  have hinfo := hread "failureInfo"
  rw [Fields.get?_append, Fields.get?_append, get?_trimFields_of_not_mem (by decide), get?_trimOptional,
    get?_trimOptional, if_pos rfl, if_neg (by decide), Option.none_or, Option.or_none] at hcause
  rw [Fields.get?_append, Fields.get?_append, get?_trimFields_of_not_mem (by decide), get?_trimOptional,
    get?_trimOptional, if_pos rfl, if_neg (by decide), Option.none_or, Option.none_or] at hinfo
  refine ⟨fun name s hmem => ?_, hcause, hinfo⟩
  have hother : ∀ other ∈ ["cause", "failureInfo"], other ∉ WireFormat.leading.map (·.1) := by decide
  have hne : "cause" ≠ name ∧ "failureInfo" ≠ name := by
    constructor <;> rintro rfl
    · exact hother _ (by simp) (List.mem_map.2 ⟨_, hmem, rfl⟩)
    · exact hother _ (by simp) (List.mem_map.2 ⟨_, hmem, rfl⟩)
  have hname := hread name
  rwa [Fields.get?_append, Fields.get?_append, get?_trimFields (by decide) hmem, get?_trimOptional,
    get?_trimOptional, if_neg hne.1, if_neg hne.2, Option.or_none, Option.or_none] at hname

/-- **What is returned is a wire failure again**, and nothing of it is left out a second time. -/
theorem Trimmed.shown (hle : g ≤ g') {d : Document} (h : g.Trimmed v d) (hv : g.IsWireFailure v)
    (hr : g'.Shows first d r) : g'.IsWireFailure r ∧ g'.Trimmed r d := by
  induction h generalizing r with
  | @intro v d _ ih =>
    obtain ⟨_, hmessage, hsource, hstack, hattributes, hcause, hinfo⟩ := hv
    obtain ⟨hleading, hcauseRead, hinfoRead⟩ := shows_trimmed hr
    obtain ⟨hfields, htrimmed⟩ := trimFields_shown hle (by decide)
      (fieldsConform_leading.2 ⟨hmessage, hsource, hstack, hattributes⟩) hleading
    obtain ⟨hmessage', hsource', hstack', hattributes'⟩ := fieldsConform_leading.1 hfields
    obtain ⟨hcauseSame, hcauseShown⟩ := trimOptional_shown (fun _ => d) hcauseRead
      fun hdefined x hx => ⟨(ih hdefined (hcause hdefined) hx).1.ne_undefined, rfl⟩
    obtain ⟨hinfoSame, hinfoShown⟩ := trimOptional_shown g'.trimInfo hinfoRead fun hdefined x hx => by
      obtain ⟨hx, htrim⟩ := trimInfo_shown hle (hinfo.resolve_left hdefined) hx
      exact ⟨hx.ne_undefined, htrim⟩
    refine ⟨.intro ?_ hmessage' hsource' hstack' hattributes' (fun hdefined => ?_) ?_, ?_⟩
    · obtain ⟨copies, hcopies, -⟩ := hr
      rw [isKeyed, hcopies]
    · obtain ⟨hdefined, hshow⟩ := hcauseShown hdefined
      exact (ih hdefined (hcause hdefined) hshow).1
    · by_cases hundefined : g'.read r "failureInfo" = .undefined
      · exact .inl hundefined
      · obtain ⟨hdefined, hshow⟩ := hinfoShown hundefined
        exact .inr (trimInfo_shown hle (hinfo.resolve_left hdefined) hshow).1
    · rw [← htrimmed, ← hcauseSame, ← hinfoSame]
      exact .intro fun hdefined => by
        obtain ⟨hdefined, hshow⟩ := hcauseShown hdefined
        exact (ih hdefined (hcause hdefined) hshow).2

theorem parseFailure_of_isWireFailure (h : g.IsWireFailure v) :
    ∃ d, WireFormat.parseFailure g v = .ok d ∧ g.Trimmed v d := by
  obtain ⟨d, hd, htrimmed⟩ := checkFailure_of_isWireFailure (g.size + 2) 0 h
    (ancestors_nil g v) (by simp)
  refine ⟨d, ?_, htrimmed⟩
  rw [WireFormat.parseFailure, hd]
  rfl

/-- What is parsed is a wire failure, and is returned without what the format does not name. -/
theorem trimmed_of_parseFailure {d : Document} (hunwound : g.Unwound v) (h : WireFormat.parseFailure g v = .ok d) :
    g.IsWireFailure v ∧ g.Trimmed v d := by
  have hfailure : g.IsWireFailure v := by
    unfold WireFormat.parseFailure at h
    dsimp only at h
    split at h
    next hok => exact isWireFailure_of_findings (List.isEmpty_iff.1 hok) hunwound (ancestors_nil g v) (by simp)
    next => cases h
  obtain ⟨d', hd', htrimmed⟩ := parseFailure_of_isWireFailure hfailure
  cases h.symm.trans hd'
  exact ⟨hfailure, htrimmed⟩

end Graph

end FailureWire
