import Mathlib.Data.Finset.Card
import Mathlib.Logic.Relation
import FailureWire.Proofs.Graph.Closed

/-!
# What the document of a value describes

The document of a value describes the objects that can be reached from it: through fields, items, members
and entries, and through the name, the message and the cause of an error. It is found by a depth-first
search, which names an object that it has met before. `g.Explored own vs keys before after` says what such a
search has done between two states: whatever is new can be reached from the values `vs`, and everything that
a new object holds has been met. The fuel of the search suffices for as many objects inside each other as
there are (`explores_describe`), so that the field names in a document are those of the objects that are
reached (`mem_keys_document`).
-/

namespace FailureWire

/-! ## What objects hold -/

/-- The values that an object holds, as far as a document without stacks describes them. -/
def Node.parts : Node → List Value
  | .record fields | .sparse fields => fields.values
  | .list items | .set items => items
  | .map entries => entries.flatMap fun entry => [entry.1, entry.2]
  | .error e => e.name :: e.message :: e.cause.toList
  | .date _ | .pattern .. | .bytes _ | .numbers .. | .boxed _ => []

/-- The names of the fields of an object. -/
def Node.keys : Node → List String
  | .record fields | .sparse fields => fields.names
  | _ => []

namespace Graph

/-- The values that the object with an identity holds. -/
def partsOf (g : Graph) (id : ObjectId) : List Value := (g.node? id).elim [] Node.parts

/-- The names of the fields of the object with an identity. -/
def keysOf (g : Graph) (id : ObjectId) : List String := (g.node? id).elim [] Node.keys

/-- An object contains another one. -/
def Contains (g : Graph) (a b : ObjectId) : Prop := .object b ∈ g.partsOf a

/-- An object can be reached from a value: it is the value, or it is held by an object that can. -/
def Reaches (g : Graph) (v : Value) (id : ObjectId) : Prop :=
  ∃ start, v = .object start ∧ Relation.ReflTransGen g.Contains start id

variable {g : Graph} {v : Value} {id : ObjectId}

theorem reaches_object (id : ObjectId) : g.Reaches (.object id) id := ⟨id, rfl, .refl⟩

theorem reaches_of_mem_parts (hv : v ∈ g.partsOf id) {other : ObjectId} (h : g.Reaches v other) :
    g.Reaches (.object id) other := by
  obtain ⟨start, rfl, hreach⟩ := h
  exact ⟨id, rfl, hreach.head hv⟩

end Graph

/-! ## Field names of a document -/

namespace Document

mutual
/-- The field names in a document. -/
def keys : Document → List String
  | .record fields | .sparse fields => keysInFields fields
  | .list items | .set items => keysInItems items
  | .map entries => keysInEntries entries
  | .error name message cause _ => keys name ++ keys message ++ keysInCause cause
  | _ => []
termination_by structural d => d

def keysInFields : List (String × Document) → List String
  | [] => []
  | (name, d) :: rest => name :: keys d ++ keysInFields rest
termination_by structural fs => fs

def keysInItems : List Document → List String
  | [] => []
  | d :: rest => keys d ++ keysInItems rest
termination_by structural ds => ds

def keysInEntries : List (Document × Document) → List String
  | [] => []
  | (k, d) :: rest => keys k ++ keys d ++ keysInEntries rest
termination_by structural es => es

def keysInCause : Option Document → List String
  | none => []
  | some d => keys d
termination_by structural d => d
end

end Document

namespace Graph

/-! ## Searches -/

/-- A search has gone on from the objects `before` to the objects `after`, along the values `vs`. It has
written down the field names `keys`: those of the new objects, and `own`. -/
structure Explored (g : Graph) (own : List String) (vs : List Value) (keys : List String)
    (before after : List ObjectId) : Prop where
  subset : before ⊆ after
  root : ∀ id, .object id ∈ vs → id ∈ after
  reached : ∀ id ∈ after, id ∈ before ∨ ∃ v ∈ vs, g.Reaches v id
  closed : ∀ id ∈ after, id ∈ before ∨ ∀ part, g.Contains id part → part ∈ after
  mem_keys : ∀ key, key ∈ keys ↔ key ∈ own ∨ ∃ id ∈ after, id ∉ before ∧ key ∈ g.keysOf id

section
variable {g : Graph} {own own' keys keys' : List String} {vs vs' : List Value} {v : Value} {id : ObjectId}
  {before mid after : List ObjectId}

/-- Where everything has been met before there is nothing to search. -/
theorem explored_refl (h : ∀ id, .object id ∈ vs → id ∈ before) : g.Explored [] vs [] before before where
  subset := List.Subset.refl before
  root := h
  reached _ hid := .inl hid
  closed _ hid := .inl hid
  mem_keys key := by
    constructor
    · intro hkey
      cases hkey
    · rintro (hown | ⟨id, hid, hnew, -⟩)
      · cases hown
      · exact absurd hid hnew

/-- One search goes on where another one has stopped. -/
theorem Explored.append (h : g.Explored own vs keys before mid) (h' : g.Explored own' vs' keys' mid after) :
    g.Explored (own ++ own') (vs ++ vs') (keys ++ keys') before after where
  subset := List.Subset.trans h.subset h'.subset
  root id hid := by
    rcases List.mem_append.1 hid with hid | hid
    · exact h'.subset (h.root id hid)
    · exact h'.root id hid
  reached id hid := by
    rcases h'.reached id hid with hmid | ⟨v, hv, hreach⟩
    · rcases h.reached id hmid with hbefore | ⟨v, hv, hreach⟩
      · exact .inl hbefore
      · exact .inr ⟨v, List.mem_append_left vs' hv, hreach⟩
    · exact .inr ⟨v, List.mem_append_right vs hv, hreach⟩
  closed id hid := by
    rcases h'.closed id hid with hmid | hparts
    · rcases h.closed id hmid with hbefore | hparts
      · exact .inl hbefore
      · exact .inr fun part hpart => h'.subset (hparts part hpart)
    · exact .inr hparts
  mem_keys key := by
    rw [List.mem_append, List.mem_append, h.mem_keys, h'.mem_keys]
    constructor
    · rintro ((hown | ⟨id, hmid, hnew, hkey⟩) | hown | ⟨id, hid, hnew, hkey⟩)
      · exact .inl (.inl hown)
      · exact .inr ⟨id, h'.subset hmid, hnew, hkey⟩
      · exact .inl (.inr hown)
      · exact .inr ⟨id, hid, fun hbefore => hnew (h.subset hbefore), hkey⟩
    · rintro ((hown | hown) | ⟨id, hid, hnew, hkey⟩)
      · exact .inl (.inl hown)
      · exact .inr (.inl hown)
      · by_cases hmid : id ∈ mid
        · exact .inl (.inr ⟨id, hmid, hnew, hkey⟩)
        · exact .inr (.inr ⟨id, hid, hmid, hkey⟩)

/-- A new object is searched with all that it holds. -/
theorem Explored.enter (hid : id ∉ before)
    (h : g.Explored (g.keysOf id) (g.partsOf id) keys (before ++ [id]) after) :
    g.Explored [] [.object id] keys before after where
  subset := List.Subset.trans (List.subset_append_left before [id]) h.subset
  root other hother := by
    cases List.mem_singleton.1 hother
    exact h.subset (by simp)
  reached other hother := by
    rcases h.reached other hother with hmem | ⟨v, hv, hreach⟩
    · rcases List.mem_append.1 hmem with hbefore | hself
      · exact .inl hbefore
      · cases List.mem_singleton.1 hself
        exact .inr ⟨_, List.mem_singleton_self _, reaches_object _⟩
    · exact .inr ⟨_, List.mem_singleton_self _, reaches_of_mem_parts hv hreach⟩
  closed other hother := by
    rcases h.closed other hother with hmem | hparts
    · rcases List.mem_append.1 hmem with hbefore | hself
      · exact .inl hbefore
      · cases List.mem_singleton.1 hself
        exact .inr fun part hpart => h.root part hpart
    · exact .inr hparts
  mem_keys key := by
    rw [h.mem_keys]
    constructor
    · rintro (hown | ⟨other, hother, hnew, hkey⟩)
      · exact .inr ⟨id, h.subset (by simp), hid, hown⟩
      · exact .inr ⟨other, hother, fun hbefore => hnew (by simp [hbefore]), hkey⟩
    · rintro (hown | ⟨other, hother, hnew, hkey⟩)
      · simp at hown
      · by_cases heq : other = id
        · subst heq
          exact .inl hkey
        · exact .inr ⟨other, hother, by simp [hnew, heq], hkey⟩

/-- **A search from nothing meets everything that can be reached.** -/
theorem Explored.mem_of_reaches (h : g.Explored own vs keys [] after) (hv : v ∈ vs) (hreach : g.Reaches v id) :
    id ∈ after := by
  obtain ⟨start, rfl, hpath⟩ := hreach
  induction hpath with
  | refl => exact h.root start hv
  | @tail mid last _ hlast ih =>
    rcases h.closed mid ih with hnone | hparts
    · cases hnone
    · exact hparts last hlast

end

/-! ## Objects that have not been met -/

/-- The number of objects that a search has not met. -/
def unmet (g : Graph) (met : List ObjectId) : Nat := (Finset.range g.size \ met.toFinset).card

theorem unmet_le_of_subset {g : Graph} {before after : List ObjectId} (h : before ⊆ after) :
    g.unmet after ≤ g.unmet before := by
  refine Finset.card_le_card fun id hid => ?_
  simp only [Finset.mem_sdiff, Finset.mem_range, List.mem_toFinset] at hid ⊢
  exact ⟨hid.1, fun hbefore => hid.2 (h hbefore)⟩

/-- Whoever meets an object leaves one less. -/
theorem unmet_lt_of_new {g : Graph} {met : List ObjectId} {id : ObjectId} (hid : id < g.size) (hnew : id ∉ met) :
    g.unmet (met ++ [id]) < g.unmet met := by
  refine Finset.card_lt_card ⟨fun other hother => ?_, fun hsubset => ?_⟩
  · simp only [Finset.mem_sdiff, Finset.mem_range, List.mem_toFinset, List.mem_append, not_or] at hother ⊢
    exact ⟨hother.1, hother.2.1⟩
  · have hmem : id ∈ Finset.range g.size \ (met ++ [id]).toFinset := hsubset (by simp [hid, hnew])
    simp at hmem

theorem unmet_nil (g : Graph) : g.unmet [] = g.size := by simp [unmet]

/-! ## Reading as a search -/

/-- A computation searches along values, wherever fewer objects than `fuel` have not been met. -/
def Explores {α : Type} (g : Graph) (fuel : Nat) (own : List String) (vs : List Value)
    (keys : α → List String) (x : StateM (List ObjectId) α) : Prop :=
  ∀ before, g.unmet before < fuel → g.Explored own vs (keys (x.run before).1) before (x.run before).2

section
variable {α β γ : Type} {g : Graph} {fuel : Nat} {own own' : List String} {vs vs' : List Value}
  {keys : α → List String} {keys' : β → List String} {all : γ → List String}
  {x : StateM (List ObjectId) α} {y : StateM (List ObjectId) β}

theorem explores_pure {a : α} (ha : keys a = []) : g.Explores fuel [] [] keys (pure a) := by
  intro before _
  show g.Explored [] [] (keys a) before before
  rw [ha]
  exact explored_refl nofun

/-- What is made of the outcome of a search has the same field names. -/
theorem Explores.map (f : α → β) (h : g.Explores fuel own vs keys x) (hkeys : ∀ a, keys' (f a) = keys a) :
    g.Explores fuel own vs keys' (do return f (← x)) := by
  intro before hroom
  show g.Explored own vs (keys' (f (x.run before).1)) before (x.run before).2
  rw [hkeys]
  exact h before hroom

theorem Explores.field (name : String) (h : g.Explores fuel [] vs keys x) :
    g.Explores fuel [name] vs (fun field => field.1 :: keys field.2) (do return (name, ← x)) := by
  intro before hroom
  obtain ⟨hsubset, hroot, hreached, hclosed, hkeys⟩ := h before hroom
  refine ⟨hsubset, hroot, hreached, hclosed, fun key => ?_⟩
  show key ∈ name :: keys (x.run before).1 ↔
    key ∈ [name] ∨ ∃ id ∈ (x.run before).2, id ∉ before ∧ key ∈ g.keysOf id
  simp only [List.mem_cons, hkeys, List.not_mem_nil, false_or, or_false]

/-- One search after another is a search. -/
theorem Explores.pair (f : α → β → γ) (hx : g.Explores fuel own vs keys x)
    (hy : g.Explores fuel own' vs' keys' y) (hall : ∀ a b, all (f a b) = keys a ++ keys' b) :
    g.Explores fuel (own ++ own') (vs ++ vs') all (do
      let a ← x
      let b ← y
      return f a b) := by
  intro before hroom
  have hfirst := hx before hroom
  have hrest := hy (x.run before).2 (Nat.lt_of_le_of_lt (unmet_le_of_subset hfirst.subset) hroom)
  show g.Explored _ _ (all (f (x.run before).1 (y.run (x.run before).2).1)) before
    (y.run (x.run before).2).2
  rw [hall]
  exact hfirst.append hrest

end

section
variable {g : Graph} {fuel : Nat} {f : Value → StateM (List ObjectId) Document}
  (h : ∀ v, g.Explores fuel [] [v] Document.keys (f v))
include h

theorem explores_items : ∀ items : List Value,
    g.Explores fuel [] items Document.keysInItems (items.mapM f)
  | [] => explores_pure rfl
  | v :: rest => by
    rw [List.mapM_cons]
    exact (h v).pair List.cons (explores_items rest) fun _ _ => rfl

theorem explores_fields : ∀ fields : Fields Value,
    g.Explores fuel fields.names fields.values Document.keysInFields
      (fields.mapM fun (name, v) => do return (name, ← f v))
  | [] => explores_pure rfl
  | (name, v) :: rest => by
    rw [List.mapM_cons]
    exact ((h v).field name).pair List.cons (explores_fields rest) fun _ _ => rfl

theorem explores_entries : ∀ entries : List (Value × Value),
    g.Explores fuel [] (entries.flatMap fun entry => [entry.1, entry.2]) Document.keysInEntries
      (entries.mapM fun (k, v) => do return (← f k, ← f v))
  | [] => explores_pure rfl
  | (k, v) :: rest => by
    rw [List.mapM_cons]
    have hentry : g.Explores fuel [] [k, v] (fun entry => entry.1.keys ++ entry.2.keys)
        (do return (← f k, ← f v)) := (h k).pair Prod.mk (h v) fun _ _ => rfl
    exact hentry.pair List.cons (explores_entries rest) fun _ _ => rfl

theorem explores_cause : ∀ cause : Option Value,
    g.Explores fuel [] cause.toList Document.keysInCause (cause.mapM f)
  | none => explores_pure rfl
  | some v => (h v).map some fun _ => rfl

end

variable {g : Graph} {fuel : Nat}

/-- An object is searched by searching what it holds. -/
theorem explores_describeNode (h : ∀ v, g.Explores fuel [] [v] Document.keys (g.describe false fuel v))
    (n : Node) : g.Explores fuel n.keys n.parts Document.keys (g.describeNode false fuel (some n)) := by
  cases n with
  | record fields => exact (explores_fields h fields).map Document.record fun _ => rfl
  | sparse fields => exact (explores_fields h fields).map Document.sparse fun _ => rfl
  | list items => exact (explores_items h items).map Document.list fun _ => rfl
  | set items => exact (explores_items h items).map Document.set fun _ => rfl
  | map entries => exact (explores_entries h entries).map Document.map fun _ => rfl
  | error e =>
    have hfirst : g.Explores fuel [] [e.name, e.message] (fun p => p.1.keys ++ p.2.keys) (do
        let name ← g.describe false fuel e.name
        let message ← g.describe false fuel e.message
        return (name, message)) := (h e.name).pair Prod.mk (h e.message) fun _ _ => rfl
    -- the stack is described, but not searched
    have hstack : g.Explores fuel [] [] (fun _ => []) (g.describeStack false fuel e.stack) := by
      unfold describeStack
      cases e.stack with
      | none => exact explores_pure rfl
      | some stack => exact explores_pure rfl
    have hlast : g.Explores fuel [] (e.cause.toList ++ []) (fun p => Document.keysInCause p.1) (do
        let cause ← e.cause.mapM (g.describe false fuel)
        let stack ← g.describeStack false fuel e.stack
        return (cause, stack)) :=
      (explores_cause h e.cause).pair Prod.mk hstack fun _ _ => (List.append_nil _).symm
    rw [List.append_nil] at hlast
    have hboth : g.Explores fuel [] ([e.name, e.message] ++ e.cause.toList)
        (fun parts => parts.1.1.keys ++ parts.1.2.keys ++ Document.keysInCause parts.2.1)
        (g.describeParts false fuel e) := hfirst.pair Prod.mk hlast fun _ _ => rfl
    have hkeys (parts : (Document × Document) × Option Document × Document) :
        (Document.error parts.1.1 parts.1.2 parts.2.1 parts.2.2).keys =
          parts.1.1.keys ++ parts.1.2.keys ++ Document.keysInCause parts.2.1 := rfl
    rw [describeNode_error]
    exact hboth.map _ hkeys
  | date | pattern | bytes | numbers | boxed => exact explores_pure rfl

/-- **Reading a value is a search along it**: the fuel is never used up. -/
theorem explores_describe : ∀ (fuel : Nat) (v : Value),
    g.Explores fuel [] [v] Document.keys (g.describe false fuel v)
  | 0, _ => fun _ hroom => absurd hroom (Nat.not_lt_zero _)
  | fuel + 1, v => by
    intro before hroom
    cases v with
    | object id =>
      rw [run_describe_object]
      cases hid : before.idxOf? id with
      | some k =>
        have hmem : id ∈ before := by
          by_contra hnew
          rw [List.idxOf?_eq_none_iff.2 hnew] at hid
          cases hid
        exact explored_refl fun other hother => by cases List.mem_singleton.1 hother; exact hmem
      | none =>
        have hnew := List.idxOf?_eq_none_iff.1 hid
        refine Explored.enter hnew ?_
        show g.Explored _ _ ((g.describeNode false fuel (g.node? id)).run (before ++ [id])).1.keys _
          ((g.describeNode false fuel (g.node? id)).run (before ++ [id])).2
        unfold keysOf partsOf
        cases hn : g.node? id with
        | none => exact explored_refl nofun
        | some n =>
          have hlt : id < g.size := (List.getElem?_eq_some_iff.1 hn).1
          have hless := unmet_lt_of_new hlt hnew
          exact explores_describeNode (explores_describe fuel) n _ (by omega)
    | undefined | null | bool | number | text | big => exact explored_refl (by simp)

/-- **The field names in the document of a value** are those of the objects that can be reached from it. -/
theorem mem_keys_document {v : Value} {key : String} :
    key ∈ (g.document v).keys ↔ ∃ id, g.Reaches v id ∧ key ∈ g.keysOf id := by
  have h := explores_describe (g := g) (g.size + 2) v [] (by rw [unmet_nil]; omega)
  rw [show (g.document v).keys = ((g.describe false (g.size + 2) v).run []).1.keys from rfl, h.mem_keys]
  constructor
  · rintro (hown | ⟨id, hid, -, hkey⟩)
    · cases hown
    · rcases h.reached id hid with hnone | ⟨w, hw, hreach⟩
      · cases hnone
      · rw [List.mem_singleton.1 hw] at hreach
        exact ⟨id, hreach, hkey⟩
  · rintro ⟨id, hreach, hkey⟩
    exact .inr ⟨id, h.mem_of_reaches (List.mem_singleton_self v) hreach, List.not_mem_nil, hkey⟩

end Graph
end FailureWire
