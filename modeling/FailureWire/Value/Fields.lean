/-!
# Fields in order

A record is a list of named fields. Its order shows in payload text and in key lists: names that are
array positions (`0`, `10`, not `01`) come first in ascending order, then the others in the order in
which they were first set. `Fields.set` keeps this order, so that a list built by `Fields.ofList` has
it, with one field for each name.

Fields can also stand for a list that has gaps, or parts whose names are no positions: `Fields.slots`
are its items.

The order is that of `Object.keys`.
-/

namespace FailureWire

/-- Named fields, in order. -/
abbrev Fields (α : Type) := List (String × α)

def positionName (i : Nat) : String := String.ofList (Nat.toDigits 10 i)

/-- The array position that a name spells, if it is one: no leading zero, below 2^32 - 1. -/
def positionOf? (name : String) : Option Nat :=
  match name.toList with
  | [] => none
  | '0' :: _ :: _ => none
  | cs =>
    if cs.all Char.isDigit then
      let n := Nat.ofDigitChars 10 cs 0
      if n < Nat.pow 2 32 - 1 then some n else none
    else none

namespace Fields

variable {α β : Type}

/-- The value of the field of this name. -/
def get? : Fields α → String → Option α
  | [], _ => none
  | (n, a) :: rest, name => if n = name then some a else get? rest name

def has (fields : Fields α) (name : String) : Bool := (fields.get? name).isSome

def names (fields : Fields α) : List String := fields.map (·.1)

def values (fields : Fields α) : List α := fields.map (·.2)

/-- Sets a field at an array position that is not taken. -/
def insertPosition (name : String) (position : Nat) (a : α) : Fields α → Fields α
  | [] => [(name, a)]
  | (n, b) :: rest =>
    match positionOf? n with
    | some p =>
      if position < p then (name, a) :: (n, b) :: rest
      else (n, b) :: insertPosition name position a rest
    | none => (name, a) :: (n, b) :: rest

/-- Gives the field of this name a new value, where it stands. -/
def replace (name : String) (a : α) : Fields α → Fields α
  | [] => []
  | (n, b) :: rest => if n = name then (n, a) :: rest else (n, b) :: replace name a rest

/-- Sets a field: in its place when the name is taken, else where the order puts it. -/
def set (fields : Fields α) (name : String) (a : α) : Fields α :=
  if fields.has name then fields.replace name a
  else match positionOf? name with
    | some p => fields.insertPosition name p a
    | none => fields ++ [(name, a)]

def setAll (fields : Fields α) (others : Fields α) : Fields α :=
  others.foldl (fun fs f => fs.set f.1 f.2) fields

/-- The record that setting these fields one after the other gives. -/
def ofList (fields : Fields α) : Fields α := setAll [] fields

def mapValues (f : α → β) (fields : Fields α) : Fields β := fields.map fun (n, a) => (n, f a)

/-! ## Lists as fields -/

def ofItems (items : List α) : Fields α := items.mapIdx fun i a => (positionName i, a)

/-- The items from position `i` on of a list with these fields, where a gap holds `gap`. -/
def slotsFrom (gap : α) (i : Nat) : Fields α → List α
  | [] => []
  | (n, a) :: rest =>
    match positionOf? n with
    | some p => List.replicate (p - i) gap ++ a :: slotsFrom gap (p + 1) rest
    | none => slotsFrom gap i rest

def slots (gap : α) (fields : Fields α) : List α := slotsFrom gap 0 fields

/-- The length of a list with these fields: its last position counts. -/
def extent (fields : Fields α) : Nat :=
  fields.foldl (fun n f => ((positionOf? f.1).map (· + 1)).getD n) 0

/-! ## Facts -/

theorem get?_cons (n : String) (a : α) (rest : Fields α) (name : String) :
    get? ((n, a) :: rest) name = if n = name then some a else get? rest name := rfl

theorem get?_replace_self {name : String} {a : α} {fields : Fields α}
    (h : has fields name = true) : get? (replace name a fields) name = some a := by
  induction fields with
  | nil => simp [has, get?] at h
  | cons f rest ih =>
    obtain ⟨n, b⟩ := f
    by_cases hn : n = name
    · simp [replace, hn, get?_cons]
    · have hrest : has rest name = true := by simpa [has, get?_cons, hn] using h
      simp [replace, hn, get?_cons, ih hrest]

theorem get?_replace_of_ne {name other : String} {a : α} {fields : Fields α}
    (h : other ≠ name) : get? (replace name a fields) other = get? fields other := by
  induction fields with
  | nil => rfl
  | cons f rest ih =>
    obtain ⟨n, b⟩ := f
    by_cases hn : n = name
    · simp [replace, hn, get?_cons, h.symm]
    · simp [replace, hn, get?_cons, ih]

theorem get?_insertPosition {name : String} {p : Nat} {a : α} {fields : Fields α}
    (h : get? fields name = none) (other : String) :
    get? (insertPosition name p a fields) other =
      if name = other then some a else get? fields other := by
  induction fields with
  | nil => simp [insertPosition, get?]
  | cons f rest ih =>
    obtain ⟨n, b⟩ := f
    have hne : n ≠ name := fun e => by simp [get?_cons, e] at h
    have hrest : get? rest name = none := by simpa [get?_cons, hne] using h
    have later : get? ((n, b) :: insertPosition name p a rest) other =
        if name = other then some a else get? ((n, b) :: rest) other := by
      by_cases ho : name = other
      · subst ho
        simp [get?_cons, hne, ih hrest]
      · simp [get?_cons, ih hrest, ho]
    simp only [insertPosition]
    split
    · split
      · simp [get?_cons]
      · exact later
    · simp [get?_cons]

theorem get?_append_single {name : String} {a : α} {fields : Fields α}
    (h : get? fields name = none) (other : String) :
    get? (fields ++ [(name, a)]) other = if name = other then some a else get? fields other := by
  induction fields with
  | nil => simp [get?]
  | cons f rest ih =>
    obtain ⟨n, b⟩ := f
    have hne : n ≠ name := fun e => by simp [get?_cons, e] at h
    have hrest : get? rest name = none := by simpa [get?_cons, hne] using h
    by_cases ho : name = other
    · subst ho
      simpa [get?_cons, hne] using ih hrest
    · simp [get?_cons, ih hrest, ho]

/-- Setting a field changes what that name reads, and nothing else. -/
theorem get?_set (fields : Fields α) (name : String) (a : α) (other : String) :
    get? (set fields name a) other = if name = other then some a else get? fields other := by
  unfold set
  by_cases h : has fields name
  · rw [if_pos h]
    by_cases ho : name = other
    · subst ho
      rw [if_pos rfl, get?_replace_self h]
    · rw [if_neg ho, get?_replace_of_ne (Ne.symm ho)]
  · rw [if_neg h]
    have hnone : get? fields name = none := by simpa [has] using h
    split
    · exact get?_insertPosition hnone other
    · exact get?_append_single hnone other

theorem mem_of_get? : ∀ {fields : Fields α} {name : String} {a : α},
    get? fields name = some a → (name, a) ∈ fields
  | (n, b) :: rest, name, a, h => by
    rw [get?_cons] at h
    split at h
    next hn =>
      cases h
      subst hn
      exact List.mem_cons_self ..
    next => exact List.mem_cons_of_mem _ (mem_of_get? h)

theorem forall_mem_slotsFrom_iff {gap : α} {P : α → Prop} (hgap : P gap) : ∀ {fields : Fields α} {i : Nat},
    (∀ a ∈ fields.slotsFrom gap i, P a) ↔ ∀ f ∈ fields.filter (fun f => (positionOf? f.1).isSome), P f.2
  | [], _ => by simp [slotsFrom]
  | (name, a) :: rest, i => by
    rw [slotsFrom]
    cases hp : positionOf? name with
    | none =>
      simp only [List.filter_cons, hp]
      exact forall_mem_slotsFrom_iff hgap
    | some p =>
      simp only [List.filter_cons, hp, Option.isSome_some, if_true, List.forall_mem_append, List.forall_mem_cons]
      rw [forall_mem_slotsFrom_iff hgap]
      constructor
      · rintro ⟨-, ha, hrest⟩
        exact ⟨ha, hrest⟩
      · rintro ⟨ha, hrest⟩
        refine ⟨fun b hb => ?_, ha, hrest⟩
        rw [(List.mem_replicate.1 hb).2]
        exact hgap

end Fields
end FailureWire
