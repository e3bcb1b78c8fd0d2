import FailureWire.Value.Graph

/-!
# Documents that are read off a graph

A document that is read off a graph speaks of nothing outside itself: it contains no value of the graph,
and `again k` only for an object that it describes. `d.Within n` says so for objects below the number `n`.
Reading numbers the objects that it reaches: it reaches as many as the document describes
(`describe_numbers`), so that the document of a value is within its own number of objects
(`within_fullDocument`).
-/

namespace FailureWire

namespace Document

mutual
/-- A document speaks of its own objects only, which have numbers below `n`. -/
def Within (n : Nat) : Document → Prop
  | .record fields | .sparse fields => WithinFields n fields
  | .list items | .set items => WithinItems n items
  | .map entries => WithinEntries n entries
  | .error name message cause stack =>
    Within n name ∧ Within n message ∧ WithinCause n cause ∧ Within n stack
  | .again k => k < n
  | .existing _ => False
  | _ => True
termination_by structural d => d

def WithinFields (n : Nat) : List (String × Document) → Prop
  | [] => True
  | (_, d) :: rest => Within n d ∧ WithinFields n rest
termination_by structural fs => fs

def WithinItems (n : Nat) : List Document → Prop
  | [] => True
  | d :: rest => Within n d ∧ WithinItems n rest
termination_by structural ds => ds

def WithinEntries (n : Nat) : List (Document × Document) → Prop
  | [] => True
  | (k, d) :: rest => Within n k ∧ Within n d ∧ WithinEntries n rest
termination_by structural es => es

def WithinCause (n : Nat) : Option Document → Prop
  | none => True
  | some d => Within n d
termination_by structural d => d
end

section
variable {n m : Nat}

mutual
theorem Within.mono (h : n ≤ m) : ∀ {d : Document}, d.Within n → d.Within m
  | .record _, hd | .sparse _, hd => WithinFields.mono h hd
  | .list _, hd | .set _, hd => WithinItems.mono h hd
  | .map _, hd => WithinEntries.mono h hd
  | .error .., ⟨hn, hm, hc, hs⟩ => ⟨hn.mono h, hm.mono h, WithinCause.mono h hc, hs.mono h⟩
  | .again _, hk => Nat.lt_of_lt_of_le hk h
  | .undefined, _ | .null, _ | .bool _, _ | .number _, _ | .text _, _ | .big _, _ | .date _, _
  | .pattern .., _ | .bytes _, _ | .numbers .., _ | .boxed _, _ => trivial

theorem WithinFields.mono (h : n ≤ m) : ∀ {fields : List (String × Document)},
    WithinFields n fields → WithinFields m fields
  | [], _ => trivial
  | _ :: _, ⟨hd, hrest⟩ => ⟨hd.mono h, hrest.mono h⟩

theorem WithinItems.mono (h : n ≤ m) : ∀ {items : List Document}, WithinItems n items → WithinItems m items
  | [], _ => trivial
  | _ :: _, ⟨hd, hrest⟩ => ⟨hd.mono h, hrest.mono h⟩

theorem WithinEntries.mono (h : n ≤ m) : ∀ {entries : List (Document × Document)},
    WithinEntries n entries → WithinEntries m entries
  | [], _ => trivial
  | _ :: _, ⟨hk, hd, hrest⟩ => ⟨hk.mono h, hd.mono h, hrest.mono h⟩

theorem WithinCause.mono (h : n ≤ m) : ∀ {cause : Option Document}, WithinCause n cause → WithinCause m cause
  | none, _ => trivial
  | some _, hd => Within.mono h hd
end

end
end Document

namespace Graph

/-! ## Reading an object -/

/-- The document of a stack, where there is one and stacks are described. -/
def describeStack (g : Graph) (withStacks : Bool) (fuel : Nat) (stack : Option Value) :
    StateM (List ObjectId) Document :=
  match stack with
  | some stack => if withStacks then g.describe withStacks fuel stack else pure .undefined
  | none => pure .undefined

/-- The document of an object whose number is given. -/
def describeNode (g : Graph) (withStacks : Bool) (fuel : Nat) (n : Option Node) :
    StateM (List ObjectId) Document := do
  match n with
  | none => pure (.record [])
  | some (.record fields) =>
    return .record (← fields.mapM fun (name, v) => do return (name, ← g.describe withStacks fuel v))
  | some (.list items) => return .list (← items.mapM (g.describe withStacks fuel))
  | some (.sparse fields) =>
    return .sparse (← fields.mapM fun (name, v) => do return (name, ← g.describe withStacks fuel v))
  | some (.set members) => return .set (← members.mapM (g.describe withStacks fuel))
  | some (.map entries) =>
    return .map (← entries.mapM fun (k, v) => do
      return (← g.describe withStacks fuel k, ← g.describe withStacks fuel v))
  | some (.date time) => pure (.date time)
  | some (.pattern source flags) => pure (.pattern source flags)
  | some (.bytes data) => pure (.bytes data)
  | some (.numbers element items) => pure (.numbers element items)
  | some (.boxed content) => pure (.boxed content)
  | some (.error e) =>
    let name ← g.describe withStacks fuel e.name
    let message ← g.describe withStacks fuel e.message
    let cause ← e.cause.mapM (g.describe withStacks fuel)
    let stack ← g.describeStack withStacks fuel e.stack
    return .error name message cause stack

/-- The documents of the parts of an error, two by two. -/
def describeParts (g : Graph) (withStacks : Bool) (fuel : Nat) (e : ThrownError Value) :
    StateM (List ObjectId) ((Document × Document) × Option Document × Document) := do
  let shown ← (do
    let name ← g.describe withStacks fuel e.name
    let message ← g.describe withStacks fuel e.message
    return (name, message))
  let behind ← (do
    let cause ← e.cause.mapM (g.describe withStacks fuel)
    let stack ← g.describeStack withStacks fuel e.stack
    return (cause, stack))
  return (shown, behind)

theorem describeNode_error (g : Graph) (withStacks : Bool) (fuel : Nat) (e : ThrownError Value) :
    g.describeNode withStacks fuel (some (.error e)) = (do
      let parts ← g.describeParts withStacks fuel e
      return .error parts.1.1 parts.1.2 parts.2.1 parts.2.2) := by
  simp only [describeNode, describeParts, bind_assoc, pure_bind]

/-- An object is reached: it gets the next number. -/
def reach (id : ObjectId) : StateM (List ObjectId) Unit := modify fun reached => reached ++ [id]

variable {g : Graph} {withStacks : Bool} {fuel : Nat}

theorem run_describe_object (id : ObjectId) (reached : List ObjectId) :
    (g.describe withStacks (fuel + 1) (.object id)).run reached =
      match reached.idxOf? id with
      | some k => (.again k, reached)
      | none => (do reach id; g.describeNode withStacks fuel (g.node? id)).run reached := by
  rw [describe]
  simp only [StateT.run_bind, StateT.run_get, pure_bind]
  cases reached.idxOf? id with
  | some k => rfl
  | none =>
    cases hn : g.node? id with
    | none => rw [describeNode]; rfl
    | some n =>
      cases n with
      | error e =>
        obtain ⟨subclasses, name, message, stack, cause, listsCause, body, extra⟩ := e
        cases stack with
        | none => rfl
        | some stack => cases withStacks <;> rfl
      | _ => rfl

/-! ## Numbers of objects -/

/-- A computation numbers objects: as many as its outcome has, which speaks of no later ones. -/
def Numbers {α : Type} (count : α → Nat) (within : Nat → α → Prop) (x : StateM (List ObjectId) α) : Prop :=
  ∀ reached, (x.run reached).2.length = reached.length + count (x.run reached).1 ∧
    within (x.run reached).2.length (x.run reached).1

theorem numbers_pure {α : Type} {count : α → Nat} {within : Nat → α → Prop} {a : α} (hcount : count a = 0)
    (hwithin : ∀ n, within n a) : Numbers count within (pure a) :=
  fun reached => ⟨(Nat.add_zero reached.length).symm.trans (congrArg (reached.length + ·) hcount.symm), hwithin _⟩

theorem Numbers.map {α β : Type} {count : α → Nat} {within : Nat → α → Prop} {count' : β → Nat}
    {within' : Nat → β → Prop} {x : StateM (List ObjectId) α} {f : α → β} (h : Numbers count within x)
    (hcount : ∀ a, count' (f a) = count a) (hwithin : ∀ n a, within n a → within' n (f a)) :
    Numbers count' within' (do return f (← x)) := by
  intro reached
  obtain ⟨hlength, hx⟩ := h reached
  exact ⟨hlength.trans (by rw [← hcount]; rfl), hwithin _ _ hx⟩

theorem Numbers.pair {α β γ : Type} {count : α → Nat} {within : Nat → α → Prop} {count' : β → Nat}
    {within' : Nat → β → Prop} {total : γ → Nat} {all : Nat → γ → Prop} {x : StateM (List ObjectId) α}
    {y : StateM (List ObjectId) β} (f : α → β → γ) (hx : Numbers count within x)
    (hy : Numbers count' within' y) (htotal : ∀ a b, total (f a b) = count a + count' b)
    (hall : ∀ n m a b, n ≤ m → within n a → within' m b → all m (f a b)) :
    Numbers total all (do
      let a ← x
      let b ← y
      return f a b) := by
  intro reached
  obtain ⟨hlength, hwithin⟩ := hx reached
  obtain ⟨hlength', hwithin'⟩ := hy (x.run reached).2
  have hle := Nat.le_add_right (x.run reached).2.length (count' (y.run (x.run reached).2).1)
  refine ⟨?_, hall _ _ _ _ (hlength' ▸ hle) hwithin hwithin'⟩
  show (y.run (x.run reached).2).2.length =
    reached.length + total (f (x.run reached).1 (y.run (x.run reached).2).1)
  rw [hlength', hlength, htotal, Nat.add_assoc]

section
variable {f : Value → StateM (List ObjectId) Document}
  (h : ∀ v, Numbers Document.objectCount Document.Within (f v))
include h

theorem numbers_items : ∀ items : List Value,
    Numbers Document.countInItems Document.WithinItems (items.mapM f)
  | [] => numbers_pure rfl fun _ => trivial
  | v :: rest => by
    rw [List.mapM_cons]
    exact Numbers.pair List.cons (h v) (numbers_items rest) (fun _ _ => rfl) fun _ _ _ _ hle hd hrest =>
      ⟨hd.mono hle, hrest⟩

theorem numbers_fields : ∀ fields : Fields Value,
    Numbers Document.countInFields Document.WithinFields
      (fields.mapM fun (name, v) => do return (name, ← f v))
  | [] => numbers_pure rfl fun _ => trivial
  | (name, v) :: rest => by
    rw [List.mapM_cons]
    have hfield : Numbers (fun field => field.2.objectCount) (fun n field => field.2.Within n)
        (do return (name, ← f v)) := (h v).map (fun _ => rfl) fun _ _ hd => hd
    exact Numbers.pair List.cons hfield (numbers_fields rest) (fun _ _ => rfl) fun _ _ _ _ hle hd hrest =>
      ⟨hd.mono hle, hrest⟩

theorem numbers_entries : ∀ entries : List (Value × Value),
    Numbers Document.countInEntries Document.WithinEntries
      (entries.mapM fun (k, v) => do return (← f k, ← f v))
  | [] => numbers_pure rfl fun _ => trivial
  | (k, v) :: rest => by
    rw [List.mapM_cons]
    have hentry : Numbers (fun entry => entry.1.objectCount + entry.2.objectCount)
        (fun n entry => entry.1.Within n ∧ entry.2.Within n) (do return (← f k, ← f v)) :=
      Numbers.pair Prod.mk (h k) (h v) (fun _ _ => rfl) fun _ _ _ _ hle hk hd => ⟨hk.mono hle, hd⟩
    exact Numbers.pair List.cons hentry (numbers_entries rest) (fun _ _ => rfl) fun _ _ _ _ hle hd hrest =>
      ⟨hd.1.mono hle, hd.2.mono hle, hrest⟩

theorem numbers_cause : ∀ cause : Option Value,
    Numbers Document.countInCause Document.WithinCause (cause.mapM f)
  | none => numbers_pure rfl fun _ => trivial
  | some v => (h v).map (fun _ => rfl) fun _ _ hd => hd

end

theorem numbers_reach (id : ObjectId) : Numbers (fun _ => 1) (fun _ _ => True) (reach id) :=
  fun _ => ⟨List.length_append, trivial⟩

theorem numbers_object {α : Type} {count : α → Nat} {within : Nat → α → Prop} (id : ObjectId)
    {x : StateM (List ObjectId) α} (f : α → Document) (hx : Numbers count within x)
    (hcount : ∀ a, (f a).objectCount = 1 + count a) (hwithin : ∀ n a, within n a → (f a).Within n) :
    Numbers Document.objectCount Document.Within (do reach id; return f (← x)) :=
  (numbers_reach id).pair (fun _ a => f a) hx (fun _ a => hcount a) fun _ m _ a _ _ ha => hwithin m a ha

theorem numbers_describeNode (h : ∀ v, Numbers Document.objectCount Document.Within (g.describe withStacks fuel v))
    (id : ObjectId) (n : Option Node) :
    Numbers Document.objectCount Document.Within (do reach id; g.describeNode withStacks fuel n) := by
  cases n with
  | none => exact (numbers_reach id).map (fun _ => rfl) fun _ _ _ => trivial
  | some n =>
    cases n with
    | record fields =>
      exact numbers_object id Document.record (numbers_fields h fields) (fun _ => rfl) fun _ _ hd => hd
    | sparse fields =>
      exact numbers_object id Document.sparse (numbers_fields h fields) (fun _ => rfl) fun _ _ hd => hd
    | list items =>
      exact numbers_object id Document.list (numbers_items h items) (fun _ => rfl) fun _ _ hd => hd
    | set items =>
      exact numbers_object id Document.set (numbers_items h items) (fun _ => rfl) fun _ _ hd => hd
    | map entries =>
      exact numbers_object id Document.map (numbers_entries h entries) (fun _ => rfl) fun _ _ hd => hd
    | error e =>
      have hstack : Numbers Document.objectCount Document.Within (g.describeStack withStacks fuel e.stack) := by
        unfold describeStack
        split
        · split
          · exact h _
          · exact numbers_pure rfl fun _ => trivial
        · exact numbers_pure rfl fun _ => trivial
      have hfirst : Numbers (fun p => p.1.objectCount + p.2.objectCount)
          (fun n p => p.1.Within n ∧ p.2.Within n) (do
            let name ← g.describe withStacks fuel e.name
            let message ← g.describe withStacks fuel e.message
            return (name, message)) :=
        Numbers.pair Prod.mk (h e.name) (h e.message) (fun _ _ => rfl) fun _ _ _ _ hle hn hm => ⟨hn.mono hle, hm⟩
      have hlast : Numbers (fun p => Document.countInCause p.1 + p.2.objectCount)
          (fun n p => Document.WithinCause n p.1 ∧ p.2.Within n) (do
            let cause ← e.cause.mapM (g.describe withStacks fuel)
            let stack ← g.describeStack withStacks fuel e.stack
            return (cause, stack)) :=
        Numbers.pair Prod.mk (numbers_cause h e.cause) hstack (fun _ _ => rfl) fun _ _ _ _ hle hc hs =>
          ⟨hc.mono hle, hs⟩
      have hboth : Numbers
          (fun r => r.1.1.objectCount + r.1.2.objectCount + (Document.countInCause r.2.1 + r.2.2.objectCount))
          (fun n r => (r.1.1.Within n ∧ r.1.2.Within n) ∧ Document.WithinCause n r.2.1 ∧ r.2.2.Within n)
          (g.describeParts withStacks fuel e) :=
        Numbers.pair Prod.mk hfirst hlast (fun _ _ => rfl) fun _ _ _ _ hle hp hq => ⟨⟨hp.1.mono hle, hp.2.mono hle⟩, hq⟩
      have hnode := numbers_object id (fun r => Document.error r.1.1 r.1.2 r.2.1 r.2.2) hboth
        (fun r => by simp only [Document.objectCount]; omega) fun _ _ hr => ⟨hr.1.1, hr.1.2, hr.2.1, hr.2.2⟩
      rw [describeNode_error]
      exact hnode
    | date | pattern | bytes | numbers | boxed => exact (numbers_reach id).map (fun _ => rfl) fun _ _ _ => trivial

/-- **Reading a value numbers the objects of its document.** -/
theorem numbers_describe : ∀ (fuel : Nat) (v : Value),
    Numbers Document.objectCount Document.Within (g.describe withStacks fuel v)
  | 0, _ => numbers_pure rfl fun _ => trivial
  | fuel + 1, v => by
    cases v with
    | object id =>
      intro reached
      rw [run_describe_object]
      cases hid : reached.idxOf? id with
      | some k =>
        obtain ⟨hk, -⟩ := List.findIdx?_eq_some_iff_getElem.1 hid
        exact ⟨rfl, hk⟩
      | none => exact numbers_describeNode (numbers_describe fuel) id (g.node? id) reached
    | _ => exact numbers_pure rfl fun _ => trivial

/-- **The document of a value speaks of its own objects only.** -/
theorem within_fullDocument (g : Graph) (v : Value) :
    (g.fullDocument v).Within (g.fullDocument v).objectCount := by
  have hread : Numbers Document.objectCount Document.Within (g.describe true (g.size + 2) v) :=
    numbers_describe (g.size + 2) v
  obtain ⟨hlength, hwithin⟩ := hread []
  rw [hlength, List.length_nil, Nat.zero_add] at hwithin
  exact hwithin

end Graph
end FailureWire
