import FailureWire.Payload.Codec
import FailureWire.Proofs.Conversion.Emission
import FailureWire.Proofs.Graph.Reachable

/-!
# What the standard codec encodes

Payload text can be written of any value, shared and cyclic ones included, unless a name of a field could
change what other objects inherit. `g.Encodable v` says that no such name stands in an object that can be
reached from `v`, or that `v` is a payload, which stays as it is. It is all that the standard codec asks
for (`exists_encodeValue_iff`), and details can be encoded exactly if each of their items can
(`exists_encodeDetails_iff`).
-/

namespace FailureWire

namespace Document

mutual
/-- The unsafe key that is found in a document is the first one of its field names that is unsafe. -/
theorem unsafeKey?_eq : ∀ d : Document, d.unsafeKey? = d.keys.find? isUnsafeKey
  | .record fields | .sparse fields => unsafeKeyInFields?_eq fields
  | .list items | .set items => unsafeKeyInItems?_eq items
  | .map entries => unsafeKeyInEntries?_eq entries
  | .error name message cause stack => by
    rw [unsafeKey?, keys, List.find?_append, List.find?_append, unsafeKey?_eq name, unsafeKey?_eq message,
      unsafeKeyInCause?_eq cause, Option.or_assoc]
    simp only [Option.orElse_eq_orElse, Option.orElse_eq_or]
  | .undefined | .null | .bool _ | .number _ | .text _ | .big _ | .date _ | .pattern .. | .bytes _ | .numbers ..
  | .boxed _ | .again _ | .existing _ => rfl

theorem unsafeKeyInFields?_eq : ∀ fields : List (String × Document),
    unsafeKeyInFields? fields = (keysInFields fields).find? isUnsafeKey
  | [] => rfl
  | (name, d) :: rest => by
    rw [unsafeKeyInFields?, keysInFields, List.cons_append, List.find?_cons, List.find?_append, unsafeKey?_eq d,
      unsafeKeyInFields?_eq rest]
    simp only [Option.orElse_eq_orElse, Option.orElse_eq_or]
    cases isUnsafeKey name with
    | true => rfl
    | false => rfl

theorem unsafeKeyInItems?_eq : ∀ items : List Document,
    unsafeKeyInItems? items = (keysInItems items).find? isUnsafeKey
  | [] => rfl
  | d :: rest => by
    rw [unsafeKeyInItems?, keysInItems, List.find?_append, unsafeKey?_eq d, unsafeKeyInItems?_eq rest]
    simp only [Option.orElse_eq_orElse, Option.orElse_eq_or]

theorem unsafeKeyInEntries?_eq : ∀ entries : List (Document × Document),
    unsafeKeyInEntries? entries = (keysInEntries entries).find? isUnsafeKey
  | [] => rfl
  | (k, d) :: rest => by
    rw [unsafeKeyInEntries?, keysInEntries, List.find?_append, List.find?_append, unsafeKey?_eq k, unsafeKey?_eq d,
      unsafeKeyInEntries?_eq rest, Option.or_assoc]
    simp only [Option.orElse_eq_orElse, Option.orElse_eq_or]

theorem unsafeKeyInCause?_eq : ∀ cause : Option Document,
    unsafeKeyInCause? cause = (keysInCause cause).find? isUnsafeKey
  | none => rfl
  | some d => unsafeKey?_eq d
end

end Document

/-! ## Values -/

/-- A value can be encoded: it is a payload, or no object that can be reached from it has an unsafe key. -/
def Graph.Encodable (g : Graph) (v : Value) : Prop :=
  g.isPayload v = true ∨ ∀ id, g.Reaches v id → ∀ key ∈ g.keysOf id, Document.isUnsafeKey key = false

namespace Graph

variable {g : Graph} {v : Value}

/-- Payload text is written of a value exactly if no key in it is unsafe. -/
theorem exists_encodeText_iff :
    (∃ text, Payload.encodeText (g.document v) = .ok text) ↔
      ∀ id, g.Reaches v id → ∀ key ∈ g.keysOf id, Document.isUnsafeKey key = false := by
  have hkeys : (∀ id, g.Reaches v id → ∀ key ∈ g.keysOf id, Document.isUnsafeKey key = false) ↔
      ∀ key ∈ (g.document v).keys, Document.isUnsafeKey key = false := by
    simp only [mem_keys_document]
    grind
  rw [hkeys, Payload.encodeText, Document.unsafeKey?_eq]
  cases hfound : (g.document v).keys.find? Document.isUnsafeKey with
  | none =>
    constructor
    · intro _ key hkey
      simpa using List.find?_eq_none.1 hfound key hkey
    · intro _
      exact ⟨_, rfl⟩
  | some key =>
    constructor
    · rintro ⟨text, ⟨⟩⟩
    · intro hall
      have hunsafe := List.find?_some hfound
      rw [hall key (List.mem_of_find?_eq_some hfound)] at hunsafe
      cases hunsafe

/-- A value can be encoded if it is among objects without unsafe keys that contain no others. -/
theorem encodable_of_closed (ids : List ObjectId) (hv : ∀ id, v = .object id → id ∈ ids)
    (hclosed : ∀ id ∈ ids, ∀ part ∈ g.partsOf id, part.id?.all ids.contains = true)
    (hsafe : ∀ id ∈ ids, ∀ key ∈ g.keysOf id, Document.isUnsafeKey key = false) : g.Encodable v := by
  refine .inr ?_
  rintro id ⟨start, hstart, hreach⟩
  refine hsafe id ?_
  induction hreach with
  | refl => exact hv start hstart
  | @tail mid last _ hlast ih =>
    have hmem := hclosed mid ih _ hlast
    simpa [Value.id?] using hmem

theorem encodable_of_primitive (h : v.id? = none) : g.Encodable v := by
  refine .inr ?_
  rintro id ⟨start, rfl, -⟩
  cases h

end Graph

namespace Codec

variable {g : Graph} {v : Value}

/-- **A value is encoded exactly if it can be.** -/
theorem exists_encodeValue_iff (host : Host) : (∃ d, (standard host).encodeValue g v = .ok d) ↔ g.Encodable v := by
  unfold Graph.Encodable encodeValue
  cases hpayload : g.isPayload v with
  | true =>
    have hencode : (standard host).encode g v = .ok .itself := by simp [standard, ofFormat, hpayload]
    rw [hencode]
    exact ⟨fun _ => .inl rfl, fun _ => ⟨_, rfl⟩⟩
  | false =>
    have hencode : (standard host).encode g v = (do
        let text ← Payload.encodeText (g.document v)
        return .payload (.inEncoding Payload.textEncoding (Utf8.encode text))) := by
      simp [standard, ofFormat, TextFormat.annotated, hpayload]
    rw [hencode, ← Graph.exists_encodeText_iff]
    constructor
    · rintro ⟨d, hd⟩
      obtain ⟨_, hencoded, -⟩ := Except.bind_eq_ok.1 hd
      obtain ⟨text, htext, -⟩ := Except.bind_eq_ok.1 hencoded
      exact .inr ⟨text, htext⟩
    · rintro (hfalse | ⟨text, htext⟩)
      · cases hfalse
      · rw [htext]
        exact ⟨_, rfl⟩

end Codec

/-! ## Details -/

namespace Fields

variable {α : Type} {gap : α} {P : α → Prop}

/-- A list without length has no items at positions. -/
theorem filter_eq_nil_of_extent {fields : Fields α} (h : fields.extent = 0) :
    fields.filter (fun f => (positionOf? f.1).isSome) = [] := by
  have hfold : ∀ {fields : Fields α} {n : Nat},
      fields.foldl (fun n f => ((positionOf? f.1).map (· + 1)).getD n) n = 0 →
        n = 0 ∧ ∀ f ∈ fields, positionOf? f.1 = none := by
    intro fields
    induction fields with
    | nil => simp
    | cons f rest ih =>
      intro n hn
      obtain ⟨hzero, hrest⟩ := ih hn
      dsimp only at hzero
      cases hp : positionOf? f.1 with
      | none =>
        rw [hp] at hzero
        exact ⟨hzero, List.forall_mem_cons.2 ⟨hp, hrest⟩⟩
      | some p =>
        rw [hp] at hzero
        cases hzero
  rw [List.filter_eq_nil_iff]
  intro f hf
  rw [(hfold h).2 f hf]
  exact Bool.false_ne_true

end Fields

namespace Codec

variable {g : Graph} {v : Value}

/-- **Details are encoded exactly if each item can be**; a gap can always. -/
theorem exists_encodeDetails_iff (host : Host) {items : List Value} (h : g.listOf? v = some items) :
    (∃ d, (standard host).encodeDetails g (.existing v) = .ok d) ↔ ∀ x ∈ items, g.Encodable x := by
  obtain ⟨n, hn, hitems⟩ := Option.bind_eq_some_iff.1 h
  rw [encodeDetails, g.add_existing]
  cases n with
  | list values =>
    cases hitems
    cases items with
    | nil =>
      simp only [hn]
      exact ⟨fun _ => List.forall_mem_nil _, fun _ => ⟨_, rfl⟩⟩
    | cons x rest =>
      simp only [hn, ← exists_encodeValue_iff host, ← Except.exists_mapM_iff]
      exact Except.exists_return_iff
  | sparse fields =>
    cases hitems
    have hgap : g.Encodable .undefined := Graph.encodable_of_primitive rfl
    rw [Fields.slots, Fields.forall_mem_slotsFrom_iff hgap]
    simp only [hn]
    by_cases hextent : fields.extent = 0
    · rw [if_pos hextent, Fields.filter_eq_nil_of_extent hextent]
      exact ⟨fun _ => List.forall_mem_nil _, fun _ => ⟨_, rfl⟩⟩
    · rw [if_neg hextent]
      have hfield (f : String × Value) : g.Encodable f.2 ↔
          ∃ field, (do return (f.1, ← (standard host).encodeValue g f.2) : Except Fault (String × Document)) =
            .ok field := by
        rw [← exists_encodeValue_iff host]
        exact Except.exists_return_iff.symm
      simp only [hfield, ← Except.exists_mapM_iff]
      exact Except.exists_return_iff
  | record | set | map | date | pattern | bytes | numbers | boxed | error => cases hitems

/-- A new record of texts has no unsafe keys, so that a message and a stack trace can always be encoded. -/
theorem exists_encodeAttributes (host : Host) (g : Graph) {message stackTrace : Value} (hmessage : message.IsText)
    (htrace : stackTrace.IsText) : ∃ a, (standard host).encodeAttributes g message stackTrace = .ok a := by
  obtain ⟨m, rfl⟩ := hmessage
  obtain ⟨t, rfl⟩ := htrace
  let record : Node := .record [("message", .text m), ("stack_trace", .text t)]
  have hadd : g.add (.record [("message", .existing (.text m)), ("stack_trace", .existing (.text t))]) =
      g.push record := rfl
  rw [encodeAttributes, hadd, exists_encodeValue_iff]
  have hnode : (g.push record).1.node? g.size = some record := Graph.node?_push_self g record
  refine .inr ?_
  rintro id ⟨start, hstart, hreach⟩ key hkey
  cases hstart
  -- the texts in the record lead nowhere
  have hid : id = g.size := by
    rcases Relation.ReflTransGen.cases_head hreach with heq | ⟨next, hnext, -⟩
    · exact heq.symm
    · unfold Graph.Contains Graph.partsOf at hnext
      rw [hnode] at hnext
      simp [record, Node.parts, Fields.values] at hnext
  rw [hid, Graph.keysOf, hnode] at hkey
  simp only [record, Option.elim_some, Node.keys, Fields.names, List.map_cons, List.map_nil, List.mem_cons,
    List.not_mem_nil, or_false] at hkey
  rcases hkey with rfl | rfl
  · decide
  · decide

end Codec
end FailureWire
