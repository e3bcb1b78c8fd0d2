import FailureWire.Proofs.Graph.Same

/-!
# Values that are carried over

A graph is closed if it holds all that its objects hold: `g.Closed`. Objects that are added behind those of a
closed graph cannot be reached from its values, so that the values mean what they meant.

`g.CarriesOver g' R` says so of two graphs and of a relation that tells which values of the second one stand for
those of the first one. It asks for less than `Corresponds`: an error may also stand for itself, whatever its
context says, if all that it holds stands for itself. This is the case of the values of a closed graph in every
larger one (`carriesOver_of_le`), also where one more object was put behind both (`carriesOver_push`).
-/

namespace FailureWire

/-! ## What objects hold -/

theorem Fields.mem_values_of_get? {α : Type} {fields : Fields α} {name : String} {a : α}
    (h : fields.get? name = some a) : a ∈ fields.values :=
  List.mem_map.2 ⟨_, Fields.mem_of_get? h, rfl⟩

theorem Option.rel_self {α : Type} {R : α → α → Prop} {a : Option α} (h : ∀ x, a = some x → R x x) :
    Option.Rel R a a := by
  cases a with
  | none => exact .none
  | some x => exact .some (h x rfl)

/-- The values that an error holds; its context is one of them if it is a value. -/
def ThrownError.values (e : ThrownError Value) : List Value :=
  e.properties.values ++
    match e.body.context? with
    | some (.existing v) => [v]
    | _ => []

/-- The values that an object holds. -/
def Node.values : Node → List Value
  | .record fields | .sparse fields => fields.values
  | .list items | .set items => items
  | .map entries => entries.flatMap fun e => [e.1, e.2]
  | .error e => e.values
  | .date _ | .pattern .. | .bytes _ | .numbers .. | .boxed _ => []

namespace ThrownError

variable {e : ThrownError Value} {v : Value}

theorem mem_values_of_mem_properties (h : v ∈ e.properties.values) : v ∈ e.values := List.mem_append_left _ h

theorem name_mem_values (e : ThrownError Value) : e.name ∈ e.values :=
  mem_values_of_mem_properties (by simp [properties, classProperties, Fields.values])

theorem message_mem_values (e : ThrownError Value) : e.message ∈ e.values :=
  mem_values_of_mem_properties (by simp [properties, classProperties, Fields.values])

theorem stack_mem_values (h : e.stack = some v) : v ∈ e.values :=
  mem_values_of_mem_properties (by simp [properties, classProperties, Fields.values, h])

theorem cause_mem_values (h : e.cause = some v) : v ∈ e.values :=
  mem_values_of_mem_properties (by simp [properties, classProperties, Fields.values, h])

theorem mem_values_of_mem_body (h : v ∈ e.body.properties.values) : v ∈ e.values := by
  refine mem_values_of_mem_properties ?_
  rw [properties, classProperties, Fields.values, List.map_append, List.map_append]
  exact List.mem_append_left _ (List.mem_append_right _ h)

theorem mem_values_of_mem_extra (h : v ∈ e.extra.values) : v ∈ e.values := by
  refine mem_values_of_mem_properties ?_
  rw [properties, Fields.values, List.map_append]
  exact List.mem_append_right _ h

theorem context_mem_values (h : e.body.context? = some (.existing v)) : v ∈ e.values := by
  rw [values, h]
  exact List.mem_append_right _ (List.mem_singleton_self v)

theorem mem_values_of_mem_listing {name : String} (h : (name, .existing v) ∈ e.listing) : v ∈ e.values := by
  have hproperty {fields : Fields Value} (hmem : (name, .existing v) ∈ fields.mapValues Document.existing) :
      v ∈ fields.values := by
    obtain ⟨f, hf, hv⟩ := List.mem_map.1 hmem
    cases hv
    exact List.mem_map_of_mem hf
  rw [listing, List.mem_append, List.mem_append] at h
  rcases h with (hname | hcontext) | hrest
  · unfold listedName at hname
    split at hname
    · cases hname
    · cases List.mem_singleton.1 hname
      exact e.name_mem_values
  · unfold listedContext at hcontext
    cases hbody : e.body.context? with
    | none => simp [hbody] at hcontext
    | some d =>
      rw [hbody] at hcontext
      cases List.mem_singleton.1 hcontext
      exact context_mem_values hbody
  · have hmem := hproperty hrest
    rw [Fields.values, List.map_append, List.map_append, List.mem_append, List.mem_append] at hmem
    rcases hmem with (hbody | hcause) | hextra
    · exact mem_values_of_mem_body hbody
    · unfold listedCause at hcause
      split at hcause
      · cases he : e.cause with
        | none => simp [he] at hcause
        | some c =>
          obtain rfl : v = c := by simpa [he] using hcause
          exact cause_mem_values he
      · cases hcause
    · exact mem_values_of_mem_extra hextra

end ThrownError

/-! ## Objects that are carried over -/

/-- Objects that resemble each other, or one error, if what it holds is related to itself. -/
inductive Node.Carried (R : Value → Value → Prop) : Node → Node → Prop
  | moved {n m : Node} : n.Moved R m → Carried R n m
  | error {e e' : ThrownError Value} : e.Resembles R e' → Carried R (.error e) (.error e')
  | kept {e : ThrownError Value} : (∀ v ∈ e.values, R v v) → Carried R (.error e) (.error e)

theorem Node.Resembles.carried {R : Value → Value → Prop} {n m : Node} (h : n.Resembles R m) : n.Carried R m := by
  cases h with
  | moved hn => exact .moved hn
  | error he => exact .error he

namespace Graph

/-- A relation that carries values of one graph over to another one: it is the equality on values that are no
objects, and one-to-one on objects that are carried over. -/
structure CarriesOver (g g' : Graph) (R : Value → Value → Prop) : Prop where
  plain : ∀ {v}, v.id? = none → R v v
  carried : ∀ {v w}, R v w → (v.id? = none ∧ v = w) ∨
    ∃ n m, g.objectOf? v = some n ∧ g'.objectOf? w = some m ∧ n.Carried R m
  injective : ∀ {i j i' j'}, R (.object i) (.object i') → R (.object j) (.object j') → (i = j ↔ i' = j')

section
variable {g g' : Graph} {R : Value → Value → Prop} {v w : Value} {n : Node}

theorem Corresponds.carriesOver (h : g.Corresponds g' R) : g.CarriesOver g' R where
  plain := h.plain
  carried hvw := (h.compares hvw).imp_right fun ⟨n, m, hn, hm, hnm⟩ => ⟨n, m, hn, hm, hnm.carried⟩
  injective := h.injective

theorem CarriesOver.objectOf? (h : g.CarriesOver g' R) (hvw : R v w) :
    Option.Rel (Node.Carried R) (g.objectOf? v) (g'.objectOf? w) := by
  rcases h.carried hvw with ⟨hid, rfl⟩ | ⟨n, m, hn, hm, hnm⟩
  · rw [Graph.objectOf?, Graph.objectOf?, hid]
    exact .none
  · rw [hn, hm]
    exact .some hnm

/-! ## Closed graphs -/

/-- A graph holds all that its objects hold. -/
def Closed (g : Graph) : Prop := ∀ n ∈ g.nodes, ∀ v ∈ n.values, g.Holds v

instance (g : Graph) (v : Value) : Decidable (g.Holds v) :=
  decidable_of_iff (∀ id ∈ v.id?, id < g.size) <| by
    cases v <;> simp [Holds, Value.id?]

instance (g : Graph) : Decidable g.Closed :=
  inferInstanceAs (Decidable (∀ n ∈ g.nodes, ∀ v ∈ n.values, g.Holds v))

theorem Closed.holds (hg : g.Closed) (hn : g.objectOf? v = some n) (hw : w ∈ n.values) : g.Holds w := by
  obtain ⟨id, rfl, hid⟩ := objectOf?_eq_some.1 hn
  exact hg n (List.mem_of_getElem? hid) w hw

theorem holds_of_plain (hv : v.id? = none) : g.Holds v := by
  rintro id rfl
  cases hv

theorem Holds.mono (h : g ≤ g') (hv : g.Holds v) : g'.Holds v :=
  fun id hid => Nat.lt_of_lt_of_le (hv id hid) (size_le h)

theorem Holds.cases (hv : g.Holds v) : v.id? = none ∨ ∃ n, g.objectOf? v = some n := by
  cases v with
  | object id => exact .inr ⟨_, List.getElem?_eq_getElem (hv id rfl)⟩
  | _ => exact .inl rfl

theorem mem_values_of_get? {name : String} (h : g.get? v name = some w) :
    ∃ n, g.objectOf? v = some n ∧ w ∈ n.values := by
  unfold get? at h
  split at h
  next fields hn => exact ⟨_, hn, Fields.mem_values_of_get? h⟩
  next e hn => exact ⟨_, hn, ThrownError.mem_values_of_mem_properties (Fields.mem_values_of_get? h)⟩
  next => cases h

/-- What is read of a closed graph is held by it. -/
theorem Closed.holds_read (hg : g.Closed) (v : Value) (name : String) : g.Holds (g.read v name) := by
  cases hw : g.get? v name with
  | none =>
    rw [read_eq_undefined hw]
    exact holds_of_plain rfl
  | some w =>
    rw [read_eq_of_get? hw]
    obtain ⟨n, hn, hmem⟩ := mem_values_of_get? hw
    exact hg.holds hn hmem

end

end Graph
end FailureWire
