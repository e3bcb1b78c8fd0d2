import Mathlib.Order.Basic
import FailureWire.Value.Graph

/-!
# Graphs that grow

`g ≤ g'` says that `g'` holds the objects of `g` under the identities that they have in `g`. Conversions
only add objects, so what is known about a value before a conversion is known after it, as long as the
value does not refer to an object that is yet to be added: `g.Holds v`.
-/

namespace FailureWire.Graph

instance : Preorder Graph where
  le g g' := g.nodes <+: g'.nodes
  le_refl g := List.prefix_refl g.nodes
  le_trans _ _ _ h h' := h.trans h'

theorem le_def {g g' : Graph} : g ≤ g' ↔ g.nodes <+: g'.nodes := Iff.rfl

theorem le_push (g : Graph) (n : Node) : g ≤ (g.push n).1 := List.prefix_append _ _

theorem le_add (g : Graph) (d : Document) : g ≤ (g.add d).1 := List.prefix_append _ _

theorem le_addError (g : Graph) (e : ThrownError Document) : g ≤ (g.addError e).1 :=
  (le_add g _).trans (le_push _ _)

theorem size_le {g g' : Graph} (h : g ≤ g') : g.size ≤ g'.size := h.length_le

variable {g g' : Graph} {v : Value} {n : Node}

/-! ## Objects that are there -/

theorem node?_of_le (h : g ≤ g') {id : ObjectId} (hn : g.node? id = some n) : g'.node? id = some n := by
  obtain ⟨more, hm⟩ := le_def.1 h
  obtain ⟨hlt, -⟩ := List.getElem?_eq_some_iff.1 hn
  rw [node?, ← hm, List.getElem?_append_left hlt]
  exact hn

theorem objectOf?_eq_some : g.objectOf? v = some n ↔ ∃ id, v = .object id ∧ g.node? id = some n := by
  cases v <;> simp [objectOf?, Value.id?]

theorem objectOf?_of_le (h : g ≤ g') (hn : g.objectOf? v = some n) : g'.objectOf? v = some n := by
  obtain ⟨id, rfl, hid⟩ := objectOf?_eq_some.1 hn
  exact objectOf?_eq_some.2 ⟨id, rfl, node?_of_le h hid⟩

theorem errorOf?_eq_some {e : ThrownError Value} :
    g.errorOf? v = some e ↔ g.objectOf? v = some (.error e) := by
  unfold errorOf?
  split <;> simp_all

theorem errorOf?_of_le (h : g ≤ g') {e : ThrownError Value} (he : g.errorOf? v = some e) :
    g'.errorOf? v = some e :=
  errorOf?_eq_some.2 (objectOf?_of_le h (errorOf?_eq_some.1 he))

theorem bytesOf?_eq_some {data : Bytes} :
    g.bytesOf? v = some data ↔ g.objectOf? v = some (.bytes data) := by
  unfold bytesOf?
  split <;> simp_all

theorem isMissing_of_objectOf? (hn : g.objectOf? v = some n) : v.isMissing = false := by
  obtain ⟨id, rfl, -⟩ := objectOf?_eq_some.1 hn
  rfl

theorem isTruthy_of_objectOf? (hn : g.objectOf? v = some n) : v.isTruthy = true := by
  obtain ⟨id, rfl, -⟩ := objectOf?_eq_some.1 hn
  rfl

theorem eq_undefined_of_objectOf? (hn : g.objectOf? v = some n) : v ≠ .undefined := by
  obtain ⟨id, rfl, -⟩ := objectOf?_eq_some.1 hn
  exact Value.noConfusion

theorem isMissing_of_errorOf? {e : ThrownError Value} (he : g.errorOf? v = some e) :
    v.isMissing = false :=
  isMissing_of_objectOf? (errorOf?_eq_some.1 he)

/-! ## Values that stay as they are -/

/-- A value that refers to nothing outside a graph. -/
def Holds (g : Graph) (v : Value) : Prop := ∀ id, v = .object id → id < g.size

theorem holds_of_objectOf? (hn : g.objectOf? v = some n) : g.Holds v := by
  rintro id rfl
  exact (List.getElem?_eq_some_iff.1 hn).1

theorem objectOf?_eq_of_le (h : g ≤ g') (hv : g.Holds v) : g'.objectOf? v = g.objectOf? v := by
  cases v with
  | object id =>
    obtain ⟨more, hm⟩ := le_def.1 h
    show g'.nodes[id]? = g.nodes[id]?
    rw [← hm, List.getElem?_append_left (hv id rfl)]
  | _ => rfl

theorem get?_eq_of_le (h : g ≤ g') (hv : g.Holds v) (name : String) : g'.get? v name = g.get? v name := by
  rw [get?, get?, objectOf?_eq_of_le h hv]

theorem read_eq_of_le (h : g ≤ g') (hv : g.Holds v) (name : String) : g'.read v name = g.read v name := by
  rw [read, read, get?_eq_of_le h hv]

/-! ## Properties of records -/

theorem get?_of_record {fields : Fields Value} (hv : g.objectOf? v = some (.record fields))
    (name : String) : g.get? v name = Fields.get? fields name := by
  rw [get?, hv]

theorem get?_of_error {e : ThrownError Value} (he : g.errorOf? v = some e) (name : String) :
    g.get? v name = Fields.get? e.properties name := by
  rw [get?, errorOf?_eq_some.1 he]

theorem read_eq_of_get? {name : String} {w : Value} (h : g.get? v name = some w) :
    g.read v name = w := by
  rw [read, h]
  rfl

theorem read_eq_undefined {name : String} (h : g.get? v name = none) : g.read v name = .undefined := by
  rw [read, h]
  rfl

end FailureWire.Graph
