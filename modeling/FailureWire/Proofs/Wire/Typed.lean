import FailureWire.Conversion.Receive
import FailureWire.Proofs.Error.Typed
import FailureWire.Proofs.Wire.View
import FailureWire.Wire.Format

/-!
# Typed wire failures

`g.TypedWire f` says that `f` and everything met along its causes are of the shapes that the wire format
names for them: texts where it has texts, payloads where it has payloads. The information about the kind of a
failure may be of a case that the format does not know; of one that it knows it has the shape of the case.
Chains may be cyclic and of any length.

What a conversion reads of a typed failure is there to be read (`exists_infoAt_of_typed`,
`payloadsOf_of_ofShape`, `payloadOf_of_ofShape`), and both walks along its causes meet the same links
(`wireWalk_eq_walk`).
-/

namespace FailureWire

/-! ## Fields -/

namespace Fields

variable {α : Type}

theorem get?_cons_of_ne {n name : String} (hn : n ≠ name) (a : α) (rest : Fields α) :
    get? ((n, a) :: rest) name = get? rest name := by
  rw [get?_cons, if_neg hn]

theorem slotsFrom_mapValues_some {gap : α} : ∀ {fields : Fields α} {i : Nat},
    (∀ a ∈ slotsFrom gap i fields, a ≠ gap) →
      slotsFrom none i (fields.mapValues some) = (slotsFrom gap i fields).map some
  | [], _, _ => rfl
  | (n, a) :: rest, i, h => by
    cases hp : positionOf? n with
    | none =>
      simp only [slotsFrom, mapValues, List.map_cons, hp] at h ⊢
      exact slotsFrom_mapValues_some h
    | some p =>
      simp only [slotsFrom, mapValues, List.map_cons, hp] at h ⊢
      have hzero : p - i = 0 := by
        by_contra hne
        exact h gap (List.mem_append_left _ (List.mem_replicate.2 ⟨hne, rfl⟩)) rfl
      have hrest : slotsFrom none (p + 1) (mapValues some rest) = (slotsFrom gap (p + 1) rest).map some :=
        slotsFrom_mapValues_some fun b hb => h b (List.mem_append_right _ (List.mem_cons_of_mem a hb))
      rw [mapValues] at hrest
      rw [hzero, hrest]
      simp

end Fields

/-! ## Values of a shape -/

namespace Graph

mutual
/-- A value is of a shape. A number may be any number here, be it whole or finite or not. -/
def OfShape (g : Graph) : Schema → Value → Prop
  | .text, v => v.IsText
  | .bool, v => ∃ b, v = .bool b
  | .number, v | .integer, v => ∃ n, v = .number n
  | .bytes, v => ∃ data, g.bytesOf? v = some data
  | .table values, v => ∃ fields, g.recordOf? v = some fields ∧ ∀ f ∈ fields, OfShape g values f.2
  | .list items, v => ∃ vs, g.listOf? v = some vs ∧ ∀ x ∈ vs, OfShape g items x
  | .record fields, v => g.isKeyed v = true ∧ FieldsOfShape g fields v
  | .optional s, v => v = .undefined ∨ OfShape g s v
termination_by structural s => s

/-- The properties of a value are of their shapes. -/
def FieldsOfShape (g : Graph) : List (String × Schema) → Value → Prop
  | [], _ => True
  | (name, s) :: rest, v => OfShape g s (g.read v name) ∧ FieldsOfShape g rest v
termination_by structural fs => fs
end

variable {g : Graph} {v x : Value}

theorem FieldsOfShape.read : ∀ {fields : List (String × Schema)} {name : String} {s : Schema},
    g.FieldsOfShape fields v → (name, s) ∈ fields → g.OfShape s (g.read v name)
  | [], _, _, _, hmem => by cases hmem
  | (n, s') :: rest, name, s, ⟨hhere, hrest⟩, hmem => by
    rcases List.mem_cons.1 hmem with heq | hmem
    · cases heq
      exact hhere
    · exact hrest.read hmem

theorem recordOf?_eq_some {fields : Fields Value} :
    g.recordOf? v = some fields ↔ g.objectOf? v = some (.record fields) := by
  unfold recordOf?
  split <;> simp_all

theorem objectOf?_of_isKeyed (h : g.isKeyed v = true) : ∃ id n, v = .object id ∧ g.objectOf? v = some n := by
  cases hn : g.objectOf? v with
  | none => simp [isKeyed, hn] at h
  | some n =>
    obtain ⟨id, rfl, -⟩ := objectOf?_eq_some.1 hn
    exact ⟨id, n, rfl, rfl⟩

theorem readOf_of_isKeyed (h : g.isKeyed v = true) (name : String) : g.readOf v name = .ok (g.read v name) := by
  obtain ⟨id, n, rfl, -⟩ := objectOf?_of_isKeyed h
  rfl

theorem ofShape_of_truthyAt {s : Schema} {name : String} (h : g.OfShape (.optional s) (g.read v name)) :
    ∀ w, g.truthyAt v name = some w → g.OfShape s w := by
  intro w hw
  obtain ⟨heq, htruthy⟩ := Option.filter_eq_some_iff.1 hw
  cases heq
  rcases h with hnone | hs
  · rw [hnone] at htruthy
    cases htruthy
  · exact hs

/-! ## Payloads -/

theorem memoryOf?_of_bytesOf? {data : Bytes} (h : g.bytesOf? v = some data) :
    g.memoryOf? v = some data ∧ v ≠ .undefined := by
  have hn := bytesOf?_eq_some.1 h
  refine ⟨?_, eq_undefined_of_objectOf? hn⟩
  rw [memoryOf?, hn]

theorem isPayload_of_ofShape (h : g.OfShape Schema.payload v) : g.isPayload v = true := by
  obtain ⟨-, ⟨fields, hfields, hentries⟩, ⟨data, hdata⟩, -⟩ := h
  have hrecord : g.objectOf? (g.read v "metadata") = some (.record fields) := recordOf?_eq_some.1 hfields
  simp only [isPayload, hdata, hrecord, listing, Option.isSome_some, Bool.and_self, Bool.true_and, List.all_eq_true]
  intro entry hentry
  obtain ⟨f, hf, rfl⟩ := List.mem_map.1 hentry
  exact Option.isSome_iff_exists.2 (hentries f hf)

/-- **A typed payload is read as its metadata and its data.** -/
theorem payloadOf_of_ofShape (h : g.OfShape Schema.payload v) :
    ∃ metadata data, g.payloadOf v = .ok ⟨metadata, some data⟩ := by
  obtain ⟨hkeyed, ⟨fields, hfields, hentries⟩, ⟨data, hdata⟩, -⟩ := h
  have hrecord : g.objectOf? (g.read v "metadata") = some (.record fields) := recordOf?_eq_some.1 hfields
  have hencoding : ((g.read (g.read v "metadata") Payload.encodingKey).isTruthy &&
      (g.memoryOf? (g.read (g.read v "metadata") Payload.encodingKey)).isNone) = false := by
    rw [read, get?_of_record hrecord]
    cases hget : Fields.get? fields Payload.encodingKey with
    | none => rfl
    | some w =>
      obtain ⟨bytes, hbytes⟩ := hentries _ (Fields.mem_of_get? hget)
      simp [Value.ofOption, (memoryOf?_of_bytesOf? hbytes).1]
  obtain ⟨hmemory, hdefined⟩ := memoryOf?_of_bytesOf? hdata
  refine ⟨g.metadataOf (g.read v "metadata"), data, ?_⟩
  rw [payloadOf, readOf_of_isKeyed hkeyed, Except.ok_bind]
  have hmetadata : g.readOf (g.read v "metadata") Payload.encodingKey =
      .ok (g.read (g.read v "metadata") Payload.encodingKey) := by
    rw [readOf, isMissing_of_objectOf? hrecord]
    rfl
  rw [hmetadata, Except.ok_bind, if_neg (by simp [hencoding])]
  dsimp only
  rw [if_neg hdefined, hmemory]
  rfl

/-- **The payloads of a typed record of payloads are read one by one.** -/
theorem payloadsOf_of_ofShape (h : g.OfShape Schema.payloads v) :
    ∃ items, g.listOf? (g.read v "payloads") = some items ∧ g.payloadsOf v = .ok (items.map some) ∧
      ∀ p ∈ items, g.OfShape Schema.payload p := by
  obtain ⟨-, ⟨items, hitems, htyped⟩, -⟩ := h
  refine ⟨items, hitems, ?_, htyped⟩
  obtain ⟨n, hn, hlist⟩ := Option.bind_eq_some_iff.1 hitems
  unfold payloadsOf
  rw [hn]
  cases n with
  | list values =>
    cases hlist
    rfl
  | sparse fields =>
    cases hlist
    have hgaps : ∀ a ∈ fields.slots .undefined, a ≠ Value.undefined := by
      rintro a ha rfl
      obtain ⟨hkeyed, -⟩ := htyped _ ha
      obtain ⟨id, -, habsurd, -⟩ := objectOf?_of_isKeyed hkeyed
      cases habsurd
    exact congrArg Except.ok (Fields.slotsFrom_mapValues_some hgaps)
  | record | set | map | date | pattern | bytes | numbers | boxed | error => cases hlist

end Graph

/-! ## Information -/

/-- The class of the errors that stand for a case; none for cases without one. -/
def classOfCase? (case : Value) : Option ErrorClass :=
  case.text?.bind <| Fields.get?
    [("applicationFailureInfo", .application), ("timeoutFailureInfo", .timeout),
      ("canceledFailureInfo", .cancelled), ("terminatedFailureInfo", .terminated),
      ("serverFailureInfo", .server), ("activityFailureInfo", .activity),
      ("childWorkflowExecutionFailureInfo", .childWorkflow)]

/-- The class of the errors for information. -/
def FailureInfo.class? {π : Type} : FailureInfo π → Option ErrorClass
  | .unmapped _ => none
  | .application .. => some .application
  | .timeout .. => some .timeout
  | .canceled _ => some .cancelled
  | .terminated _ => some .terminated
  | .server _ => some .server
  | .activity .. => some .activity
  | .childWorkflow .. => some .childWorkflow

/-- Information holds texts, payloads and durations where they are expected. -/
inductive FailureInfo.Typed (g : Graph) : FailureInfo Value → Prop
  | unmapped (case : Value) : Typed g (.unmapped case)
  | application {type : Value} (nonRetryable : Value) {details nextRetryDelay : Option Value} :
    type.IsText → (∀ d, details = some d → g.OfShape Schema.payloads d) →
      (∀ d, nextRetryDelay = some d → g.OfShape Schema.duration d) →
        Typed g (.application type nonRetryable details nextRetryDelay)
  | timeout (type : Value) {details : Option Value} :
    (∀ d, details = some d → g.OfShape Schema.payloads d) → Typed g (.timeout type details)
  | canceled {details : Option Value} : (∀ d, details = some d → g.OfShape Schema.payloads d) →
    Typed g (.canceled details)
  | terminated {details : Option Value} : (∀ d, details = some d → g.OfShape Schema.payloads d) →
    Typed g (.terminated details)
  | server (nonRetryable : Value) : Typed g (.server nonRetryable)
  | activity (scheduledEventId startedEventId identity activityType activityId retryState : Value) :
    Typed g (.activity scheduledEventId startedEventId identity activityType activityId retryState)
  | childWorkflow (namespaceName workflowId runId workflowType initiatedEventId startedEventId
      retryState : Value) :
    Typed g
      (.childWorkflow namespaceName workflowId runId workflowType initiatedEventId startedEventId retryState)

namespace Graph

variable {g : Graph} {v x : Value}

/-- There is no information, or it is an object whose value is of the shape of its case, if the case has one. -/
def TypedInfo (g : Graph) (info : Value) : Prop :=
  info = .undefined ∨ g.isKeyed info = true ∧
    ∀ s, Schema.ofCase? (g.read info "case") = some s → g.OfShape s (g.read info "value")

/-- The class of errors that the information of a wire failure names. -/
def classAt? (g : Graph) (x : Value) : Option ErrorClass := classOfCase? (g.read (g.read x "failureInfo") "case")

theorem exists_infoOfCase {case value : Value}
    (h : ∀ s, Schema.ofCase? case = some s → g.OfShape s value) :
    ∃ info, g.infoOfCase case value = .ok info ∧ info.Typed g ∧ info.case = case ∧
      info.class? = classOfCase? case := by
  unfold infoOfCase
  split
  · obtain ⟨hkeyed, htype, -, hdetails, hdelay, -⟩ := h _ rfl
    rw [readOf_of_isKeyed hkeyed]
    exact ⟨_, rfl, .application _ htype (ofShape_of_truthyAt hdetails) (ofShape_of_truthyAt hdelay), rfl, rfl⟩
  · obtain ⟨hkeyed, -, hdetails, -⟩ := h _ rfl
    rw [readOf_of_isKeyed hkeyed]
    exact ⟨_, rfl, .timeout _ (ofShape_of_truthyAt hdetails), rfl, rfl⟩
  · obtain ⟨hkeyed, hdetails, -⟩ := h _ rfl
    rw [readOf_of_isKeyed hkeyed]
    exact ⟨_, rfl, .canceled (ofShape_of_truthyAt hdetails), rfl, rfl⟩
  · obtain ⟨hkeyed, hdetails, -⟩ := h _ rfl
    rw [readOf_of_isKeyed hkeyed]
    exact ⟨_, rfl, .terminated (ofShape_of_truthyAt hdetails), rfl, rfl⟩
  · obtain ⟨hkeyed, -⟩ := h _ rfl
    rw [readOf_of_isKeyed hkeyed]
    exact ⟨_, rfl, .server _, rfl, rfl⟩
  · obtain ⟨hkeyed, -, -, -, ⟨hnamed, -⟩, -⟩ := h _ rfl
    rw [readOf_of_isKeyed hkeyed, Except.ok_bind, readOf_of_isKeyed hnamed]
    exact ⟨_, rfl, .activity .., rfl, rfl⟩
  · obtain ⟨hkeyed, -, ⟨hexecution, -⟩, ⟨hnamed, -⟩, -⟩ := h _ rfl
    rw [readOf_of_isKeyed hkeyed, Except.ok_bind, readOf_of_isKeyed hexecution, Except.ok_bind,
      readOf_of_isKeyed hkeyed, Except.ok_bind, readOf_of_isKeyed hnamed]
    exact ⟨_, rfl, .childWorkflow .., rfl, rfl⟩
  next h₁ h₂ h₃ h₄ h₅ h₆ h₇ =>
    refine ⟨_, rfl, .unmapped _, rfl, ?_⟩
    cases case with
    | text s =>
      have hne {name : String} (hcase : Value.text s = .text name → False) : ¬ name = s := by
        rintro rfl
        exact hcase rfl
      rw [classOfCase?, Value.text?, Option.bind_some, Fields.get?_cons_of_ne (hne h₁),
        Fields.get?_cons_of_ne (hne h₂), Fields.get?_cons_of_ne (hne h₃), Fields.get?_cons_of_ne (hne h₄),
        Fields.get?_cons_of_ne (hne h₅), Fields.get?_cons_of_ne (hne h₆), Fields.get?_cons_of_ne (hne h₇)]
      rfl
    | undefined | null | bool | number | big | object => rfl

/-- **Typed information is read.** -/
theorem exists_infoAt_of_typed (h : g.TypedInfo (g.read x "failureInfo")) :
    ∃ info, g.infoAt x = .ok info ∧ info.Typed g ∧ info.case = g.read (g.read x "failureInfo") "case" ∧
      info.class? = g.classAt? x := by
  unfold infoAt classAt?
  dsimp only
  rcases h with hnone | ⟨hkeyed, hvalue⟩
  · rw [hnone]
    exact ⟨_, rfl, .unmapped _, rfl, rfl⟩
  · obtain ⟨id, n, hid, -⟩ := objectOf?_of_isKeyed hkeyed
    rw [hid] at hvalue ⊢
    exact exists_infoOfCase hvalue

/-! ## Failures -/

/-- A value is a link of a wire failure: its properties before the cause are of their shapes, and so is its
information. -/
structure TypedLink (g : Graph) (x : Value) : Prop where
  isKeyed : g.isKeyed x = true
  leading : g.FieldsOfShape WireFormat.leading x
  info : g.TypedInfo (g.read x "failureInfo")

/-- A value is a wire failure: it is a link, and so is whatever is met along causes. -/
structure TypedWire (g : Graph) (f : Value) : Prop where
  link : g.TypedLink f
  causes : ∀ i, g.causeAt i f = .undefined ∨ g.TypedLink (g.causeAt i f)

theorem typedWire_of_closed (links : List Value) (h : ∀ x ∈ links, g.TypedLink x)
    (hcauses : ∀ x ∈ links, g.causeOf x = .undefined ∨ g.causeOf x ∈ links) :
    ∀ f ∈ links, g.TypedWire f := by
  have hway (i : Nat) : ∀ x, x = .undefined ∨ x ∈ links → g.causeAt i x = .undefined ∨ g.causeAt i x ∈ links := by
    induction i with
    | zero => exact fun x hx => hx
    | succ i ih =>
      rintro x (rfl | hx)
      · exact ih _ (.inl rfl)
      · exact ih _ (hcauses x hx)
  intro f hf
  refine ⟨h f hf, fun i => ?_⟩
  rcases hway i f (.inr hf) with hnone | hmem
  · exact .inl hnone
  · exact .inr (h _ hmem)

theorem TypedLink.isObject (h : g.TypedLink x) : ∃ id, x = .object id := by
  obtain ⟨id, -, hid, -⟩ := objectOf?_of_isKeyed h.isKeyed
  exact ⟨id, hid⟩

theorem TypedLink.isMissing (h : g.TypedLink x) : x.isMissing = false := by
  obtain ⟨id, rfl⟩ := h.isObject
  rfl

theorem TypedLink.message (h : g.TypedLink x) : (g.read x "message").IsText :=
  h.leading.read (s := .text) (by simp [WireFormat.leading])

theorem TypedLink.encodedAttributes (h : g.TypedLink x) :
    ∀ p, g.truthyAt x "encodedAttributes" = some p → g.OfShape Schema.payload p :=
  ofShape_of_truthyAt (h.leading.read (by simp [WireFormat.leading]))

/-! ## Walks -/

/-- Along objects both walks go the same way. -/
theorem wireWalkFrom_eq_walkFrom : ∀ (left : Nat) (seen : List ObjectId) {v : Value},
    (∀ i, g.causeAt i v = .undefined ∨ ∃ id, g.causeAt i v = .object id) →
      g.wireWalkFrom left seen v = .ok (g.walkFrom left seen v)
  | 0, seen, v, h => by
    rcases h 0 with hv | ⟨id, hv⟩
    · obtain rfl : v = .undefined := hv
      rfl
    · obtain rfl : v = .object id := hv
      rfl
  | left + 1, seen, v, h => by
    rcases h 0 with hv | ⟨id, hv⟩
    · obtain rfl : v = .undefined := hv
      rfl
    · obtain rfl : v = .object id := hv
      have hrest := wireWalkFrom_eq_walkFrom left (id :: seen) (v := g.causeOf (.object id)) fun i => h (i + 1)
      rw [wireWalkFrom, walkFrom, if_pos (Value.isTruthy_object id),
        if_neg (show ¬ (Value.object id).isMissing = true from Bool.false_ne_true)]
      simp only [Value.id?]
      by_cases hseen : seen.contains id = true
      · rw [if_pos hseen, if_pos hseen]
      · rw [if_neg hseen, if_neg hseen, hrest]
        rfl

/-- **The two walks agree on wire failures.** -/
theorem TypedWire.wireWalk_eq_walk {f : Value} (h : g.TypedWire f) (d : Depth) :
    g.wireWalk d f = .ok (g.walk d f) := by
  refine wireWalkFrom_eq_walkFrom (d.linksIn g) [] fun i => ?_
  rcases h.causes i with hnone | hlink
  · exact .inl hnone
  · exact .inr hlink.isObject

/-- The links that are converted for a wire failure are typed. -/
theorem TypedWire.typedLink_of_mem {f : Value} (h : g.TypedWire f) (d : Depth) :
    ∀ x ∈ ConverterOptions.linksOrSelf (g.walk d f) f, g.TypedLink x := by
  intro x hx
  unfold ConverterOptions.linksOrSelf at hx
  split at hx
  · rw [List.mem_singleton.1 hx]
    exact h.link
  · obtain ⟨i, hi⟩ := List.mem_iff_getElem?.1 hx
    have hat := (g.causePath_walk d f).getElem? hi
    rcases h.causes i with hnone | hlink
    · have hmissing := isMissing_of_mem_walkFrom (d.linksIn g) [] f x hx
      rw [hat, hnone] at hmissing
      cases hmissing
    · exact hat ▸ hlink

end Graph
end FailureWire
