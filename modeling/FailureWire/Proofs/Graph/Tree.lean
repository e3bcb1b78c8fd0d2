import FailureWire.Proofs.Graph.Same
import FailureWire.Proofs.Value.Plain
import Mathlib.Data.List.Range

/-!
# Values that are trees

A value is a tree if none of its objects stands at more than one place of it: `g.Spells d v ids` says that a value
is written out as a document, and that its objects, in the order in which they are reached, have these identities.
If the identities are different, the document is what is read off the graph (`document_of_spells`), and a document
that spells a value is spelled by whatever it is put into (`spells_of_placed`). Values that one document spells are
deeply equal (`same_of_spells`).
-/

namespace FailureWire.Graph

/-- An error of the host that was given a cause and no stack. -/
def plainError (name message cause : Value) : ThrownError Value :=
  { subclasses := [], name, message, stack := some .undefined, cause := some cause, body := .host true, extra := [] }

mutual
/-- A value is written out as a document, and its objects have these identities. No object is a list with gaps, or
an error with more to it than its name, its message and its cause. -/
def Spells (g : Graph) : Document → Value → List ObjectId → Prop
  | .undefined, v, ids => v = .undefined ∧ ids = []
  | .null, v, ids => v = .null ∧ ids = []
  | .bool b, v, ids => v = .bool b ∧ ids = []
  | .number n, v, ids => v = .number n ∧ ids = []
  | .text s, v, ids => v = .text s ∧ ids = []
  | .big n, v, ids => v = .big n ∧ ids = []
  | .date time, v, ids => ∃ id, v = .object id ∧ g.node? id = some (.date time) ∧ ids = [id]
  | .pattern source flags, v, ids => ∃ id, v = .object id ∧ g.node? id = some (.pattern source flags) ∧ ids = [id]
  | .bytes data, v, ids => ∃ id, v = .object id ∧ g.node? id = some (.bytes data) ∧ ids = [id]
  | .numbers element items, v, ids => ∃ id, v = .object id ∧ g.node? id = some (.numbers element items) ∧ ids = [id]
  | .record fields, v, ids => ∃ id values inner, v = .object id ∧ g.node? id = some (.record values) ∧
      SpellsFields g fields values inner ∧ ids = id :: inner
  | .list items, v, ids => ∃ id values inner, v = .object id ∧ g.node? id = some (.list values) ∧
      SpellsItems g items values inner ∧ ids = id :: inner
  | .set members, v, ids => ∃ id values inner, v = .object id ∧ g.node? id = some (.set values) ∧
      SpellsItems g members values inner ∧ ids = id :: inner
  | .map entries, v, ids => ∃ id values inner, v = .object id ∧ g.node? id = some (.map values) ∧
      SpellsEntries g entries values inner ∧ ids = id :: inner
  | .error name message cause stack, v, ids => ∃ id n m c first second third, v = .object id ∧
      g.node? id = some (.error (plainError n m c)) ∧ Spells g name n first ∧ Spells g message m second ∧
      SpellsCause g cause c third ∧ stack = .undefined ∧ ids = id :: (first ++ second ++ third)
  | .boxed content, v, ids => ∃ id, v = .object id ∧ g.node? id = some (.boxed content) ∧ ids = [id]
  | .sparse _, _, _ | .again _, _, _ | .existing _, _, _ => False
termination_by structural d => d

def SpellsFields (g : Graph) : List (String × Document) → Fields Value → List ObjectId → Prop
  | [], values, ids => values = [] ∧ ids = []
  | (name, d) :: rest, values, ids => ∃ v more here there, values = (name, v) :: more ∧ Spells g d v here ∧
      SpellsFields g rest more there ∧ ids = here ++ there
termination_by structural fs => fs

def SpellsItems (g : Graph) : List Document → List Value → List ObjectId → Prop
  | [], values, ids => values = [] ∧ ids = []
  | d :: rest, values, ids => ∃ v more here there, values = v :: more ∧ Spells g d v here ∧
      SpellsItems g rest more there ∧ ids = here ++ there
termination_by structural ds => ds

def SpellsEntries (g : Graph) : List (Document × Document) → List (Value × Value) → List ObjectId → Prop
  | [], values, ids => values = [] ∧ ids = []
  | (k, d) :: rest, values, ids => ∃ key v more first here there, values = (key, v) :: more ∧
      Spells g k key first ∧ Spells g d v here ∧ SpellsEntries g rest more there ∧ ids = first ++ here ++ there
termination_by structural es => es

def SpellsCause (g : Graph) : Option Document → Value → List ObjectId → Prop
  | none, _, _ => False
  | some d, v, ids => Spells g d v ids
termination_by structural cause => cause
end

/-! ## Reading -/

section
variable {g : Graph}

theorem lt_of_node? {id : ObjectId} {n : Node} (h : g.node? id = some n) : id < g.size :=
  (List.getElem?_eq_some_iff.1 h).1

mutual
theorem Spells.lt : ∀ {d : Document} {v : Value} {ids : List ObjectId}, g.Spells d v ids → ∀ id ∈ ids, id < g.size
  | .undefined, _, _, h | .null, _, _, h | .bool _, _, _, h | .number _, _, _, h | .text _, _, _, h
  | .big _, _, _, h => by
    rw [h.2]
    simp
  | .date _, _, _, ⟨id, _, hn, hids⟩ | .pattern _ _, _, _, ⟨id, _, hn, hids⟩ | .bytes _, _, _, ⟨id, _, hn, hids⟩
  | .numbers _ _, _, _, ⟨id, _, hn, hids⟩ | .boxed _, _, _, ⟨id, _, hn, hids⟩ => by
    rw [hids]
    simpa using lt_of_node? hn
  | .record _, _, _, ⟨id, _, inner, _, hn, hparts, hids⟩ => by
    rw [hids]
    exact List.forall_mem_cons.2 ⟨lt_of_node? hn, hparts.lt⟩
  | .list _, _, _, ⟨id, _, inner, _, hn, hparts, hids⟩ | .set _, _, _, ⟨id, _, inner, _, hn, hparts, hids⟩ => by
    rw [hids]
    exact List.forall_mem_cons.2 ⟨lt_of_node? hn, hparts.lt⟩
  | .map _, _, _, ⟨id, _, inner, _, hn, hparts, hids⟩ => by
    rw [hids]
    exact List.forall_mem_cons.2 ⟨lt_of_node? hn, hparts.lt⟩
  | .error _ _ _ _, _, _, ⟨id, _, _, _, _, _, _, _, hn, hname, hmessage, hcause, _, hids⟩ => by
    rw [hids]
    exact List.forall_mem_cons.2 ⟨lt_of_node? hn,
      List.forall_mem_append.2 ⟨List.forall_mem_append.2 ⟨hname.lt, hmessage.lt⟩, hcause.lt⟩⟩

theorem SpellsFields.lt : ∀ {fields : List (String × Document)} {values : Fields Value} {ids : List ObjectId},
    g.SpellsFields fields values ids → ∀ id ∈ ids, id < g.size
  | [], _, _, h => by
    rw [h.2]
    simp
  | _ :: _, _, _, ⟨_, _, here, there, _, hd, hrest, hids⟩ => by
    rw [hids]
    exact List.forall_mem_append.2 ⟨hd.lt, hrest.lt⟩

theorem SpellsItems.lt : ∀ {items : List Document} {values : List Value} {ids : List ObjectId},
    g.SpellsItems items values ids → ∀ id ∈ ids, id < g.size
  | [], _, _, h => by
    rw [h.2]
    simp
  | _ :: _, _, _, ⟨_, _, here, there, _, hd, hrest, hids⟩ => by
    rw [hids]
    exact List.forall_mem_append.2 ⟨hd.lt, hrest.lt⟩

theorem SpellsEntries.lt : ∀ {entries : List (Document × Document)} {values : List (Value × Value)}
    {ids : List ObjectId}, g.SpellsEntries entries values ids → ∀ id ∈ ids, id < g.size
  | [], _, _, h => by
    rw [h.2]
    simp
  | _ :: _, _, _, ⟨_, _, _, first, here, there, _, hk, hd, hrest, hids⟩ => by
    rw [hids]
    exact List.forall_mem_append.2 ⟨List.forall_mem_append.2 ⟨hk.lt, hd.lt⟩, hrest.lt⟩

theorem SpellsCause.lt : ∀ {cause : Option Document} {v : Value} {ids : List ObjectId}, g.SpellsCause cause v ids →
    ∀ id ∈ ids, id < g.size
  | some _, _, _, hd => Spells.lt hd
end

/-- A computation reaches these objects, if they are new, and has this outcome. -/
def Reads {α : Type} (x : StateM (List ObjectId) α) (ids : List ObjectId) (a : α) : Prop :=
  ∀ reached, (reached ++ ids).Nodup → x.run reached = (a, reached ++ ids)

theorem reads_pure {α : Type} (a : α) : Reads (pure a) [] a := fun reached _ => by
  rw [List.append_nil]
  rfl

theorem Reads.bind {α β : Type} {x : StateM (List ObjectId) α} {f : α → StateM (List ObjectId) β}
    {ids more : List ObjectId} {a : α} {b : β} (hx : Reads x ids a) (hf : Reads (f a) more b) :
    Reads (x >>= f) (ids ++ more) b := by
  intro reached hnodup
  rw [← List.append_assoc] at hnodup ⊢
  rw [StateT.run_bind, hx reached (hnodup.sublist (List.sublist_append_left ..))]
  exact hf _ hnodup

theorem Reads.map {α β : Type} {x : StateM (List ObjectId) α} {ids : List ObjectId} {a : α} (hx : Reads x ids a)
    (f : α → β) : Reads (do return f (← x)) ids (f a) := by
  have hbind : Reads (do return f (← x)) (ids ++ []) (f a) := hx.bind (reads_pure (f a))
  rwa [List.append_nil] at hbind

/-- A new object is reached, and then its parts. -/
theorem Reads.object {withStacks : Bool} {fuel : Nat} {id : ObjectId} {inner : List ObjectId} {d : Document}
    (h : Reads (g.describeNode withStacks fuel (g.node? id)) inner d) :
    Reads (g.describe withStacks (fuel + 1) (.object id)) (id :: inner) d := by
  intro reached hnodup
  rw [← List.singleton_append, ← List.append_assoc] at hnodup ⊢
  have hid : id ∉ reached := fun hmem =>
    (List.nodup_append.1 (List.nodup_append.1 hnodup).1).2.2 id hmem id (List.mem_singleton_self id) rfl
  rw [run_describe_object, List.idxOf?_eq_none_iff.2 hid]
  exact h _ hnodup

mutual
/-- **What spells a value is what is read of it.** -/
theorem Spells.reads (withStacks : Bool) : ∀ {d : Document} {v : Value} {ids : List ObjectId}, g.Spells d v ids →
    ∀ {fuel : Nat}, ids.length < fuel → Reads (g.describe withStacks fuel v) ids d
  | .undefined, _, _, ⟨rfl, rfl⟩, _ + 1, _ | .null, _, _, ⟨rfl, rfl⟩, _ + 1, _
  | .bool _, _, _, ⟨rfl, rfl⟩, _ + 1, _ | .number _, _, _, ⟨rfl, rfl⟩, _ + 1, _
  | .text _, _, _, ⟨rfl, rfl⟩, _ + 1, _ | .big _, _, _, ⟨rfl, rfl⟩, _ + 1, _ => reads_pure _
  | .date _, _, _, ⟨id, rfl, hn, rfl⟩, fuel + 1, _ | .pattern _ _, _, _, ⟨id, rfl, hn, rfl⟩, fuel + 1, _
  | .bytes _, _, _, ⟨id, rfl, hn, rfl⟩, fuel + 1, _ | .numbers _ _, _, _, ⟨id, rfl, hn, rfl⟩, fuel + 1, _
  | .boxed _, _, _, ⟨id, rfl, hn, rfl⟩, fuel + 1, _ => by
    refine .object ?_
    rw [hn]
    exact reads_pure _
  | .record fields, _, _, ⟨id, values, inner, rfl, hn, hparts, rfl⟩, fuel + 1, hfuel => by
    refine .object ?_
    rw [hn]
    exact (hparts.reads withStacks (Nat.lt_of_succ_lt_succ hfuel)).map Document.record
  | .list items, _, _, ⟨id, values, inner, rfl, hn, hparts, rfl⟩, fuel + 1, hfuel => by
    refine .object ?_
    rw [hn]
    exact (hparts.reads withStacks (Nat.lt_of_succ_lt_succ hfuel)).map Document.list
  | .set members, _, _, ⟨id, values, inner, rfl, hn, hparts, rfl⟩, fuel + 1, hfuel => by
    refine .object ?_
    rw [hn]
    exact (hparts.reads withStacks (Nat.lt_of_succ_lt_succ hfuel)).map Document.set
  | .map entries, _, _, ⟨id, values, inner, rfl, hn, hparts, rfl⟩, fuel + 1, hfuel => by
    refine .object ?_
    rw [hn]
    exact (hparts.reads withStacks (Nat.lt_of_succ_lt_succ hfuel)).map Document.map
  | .error name message cause _, _, _, ⟨id, n, m, c, first, second, third, rfl, hn, hname, hmessage, hcause, rfl, rfl⟩,
      fuel + 1, hfuel => by
    rw [List.length_cons, List.length_append, List.length_append] at hfuel
    refine .object ?_
    rw [hn, describeNode_error]
    -- the stack of a plain error is described as nothing, whether stacks are asked for or not
    have hstack : Reads (g.describeStack withStacks fuel (some .undefined)) [] .undefined := by
      obtain ⟨fuel, rfl⟩ := Nat.exists_eq_add_one_of_ne_zero (n := fuel) (by omega)
      cases withStacks <;> exact reads_pure _
    have hshown : Reads (do
        let name ← g.describe withStacks fuel n
        let message ← g.describe withStacks fuel m
        return (name, message)) (first ++ second) (name, message) :=
      (hname.reads withStacks (by omega)).bind ((hmessage.reads withStacks (by omega)).map (Prod.mk name))
    have hbehind : Reads (do
        let cause ← (some c).mapM (g.describe withStacks fuel)
        let stack ← g.describeStack withStacks fuel (some .undefined)
        return (cause, stack)) (third ++ []) (cause, .undefined) :=
      (hcause.reads withStacks (by omega)).bind (hstack.map (Prod.mk cause))
    rw [List.append_nil] at hbehind
    have hparts : Reads (g.describeParts withStacks fuel (plainError n m c)) (first ++ second ++ third)
        ((name, message), cause, .undefined) := hshown.bind (hbehind.map (Prod.mk (name, message)))
    exact hparts.map fun parts : (Document × Document) × Option Document × Document =>
      Document.error parts.1.1 parts.1.2 parts.2.1 parts.2.2

theorem SpellsFields.reads (withStacks : Bool) : ∀ {fields : List (String × Document)} {values : Fields Value}
    {ids : List ObjectId}, g.SpellsFields fields values ids → ∀ {fuel : Nat}, ids.length < fuel →
      Reads (values.mapM fun field => do return (field.1, ← g.describe withStacks fuel field.2)) ids fields
  | [], _, _, ⟨rfl, rfl⟩, _, _ => reads_pure []
  | (name, d) :: rest, _, _, ⟨v, more, here, there, rfl, hd, hrest, rfl⟩, fuel, hfuel => by
    rw [List.length_append] at hfuel
    rw [List.mapM_cons]
    exact ((hd.reads withStacks (by omega)).map (Prod.mk name)).bind
      ((hrest.reads withStacks (by omega)).map (List.cons (name, d)))

theorem SpellsItems.reads (withStacks : Bool) : ∀ {items : List Document} {values : List Value}
    {ids : List ObjectId}, g.SpellsItems items values ids → ∀ {fuel : Nat}, ids.length < fuel →
      Reads (values.mapM (g.describe withStacks fuel)) ids items
  | [], _, _, ⟨rfl, rfl⟩, _, _ => reads_pure []
  | d :: rest, _, _, ⟨v, more, here, there, rfl, hd, hrest, rfl⟩, fuel, hfuel => by
    rw [List.length_append] at hfuel
    rw [List.mapM_cons]
    exact (hd.reads withStacks (by omega)).bind ((hrest.reads withStacks (by omega)).map (List.cons d))

theorem SpellsEntries.reads (withStacks : Bool) : ∀ {entries : List (Document × Document)}
    {values : List (Value × Value)} {ids : List ObjectId}, g.SpellsEntries entries values ids →
      ∀ {fuel : Nat}, ids.length < fuel → Reads (values.mapM fun entry => do
        return (← g.describe withStacks fuel entry.1, ← g.describe withStacks fuel entry.2)) ids entries
  | [], _, _, ⟨rfl, rfl⟩, _, _ => reads_pure []
  | (k, d) :: rest, _, _, ⟨key, v, more, first, here, there, rfl, hk, hd, hrest, rfl⟩, fuel, hfuel => by
    rw [List.length_append, List.length_append] at hfuel
    rw [List.mapM_cons]
    exact ((hk.reads withStacks (by omega)).bind ((hd.reads withStacks (by omega)).map (Prod.mk k))).bind
      ((hrest.reads withStacks (by omega)).map (List.cons (k, d)))

theorem SpellsCause.reads (withStacks : Bool) : ∀ {cause : Option Document} {v : Value} {ids : List ObjectId},
    g.SpellsCause cause v ids → ∀ {fuel : Nat}, ids.length < fuel →
      Reads ((some v).mapM (g.describe withStacks fuel)) ids cause
  | some _, _, _, hd, _, hfuel => (Spells.reads withStacks hd hfuel).map some
end

theorem Spells.length_le {d : Document} {v : Value} {ids : List ObjectId} (h : g.Spells d v ids)
    (hids : ids.Nodup) : ids.length ≤ g.size := by
  have hsub : ids.Subperm (List.range g.size) := hids.subperm fun id hid => List.mem_range.2 (h.lt id hid)
  simpa using hsub.length_le

/-- **The document of a tree is what spells it.** -/
theorem document_of_spells {d : Document} {v : Value} {ids : List ObjectId} (h : g.Spells d v ids)
    (hids : ids.Nodup) : g.document v = d ∧ g.fullDocument v = d := by
  have hfuel : ids.length < g.size + 2 := Nat.lt_add_right 1 (Nat.lt_succ_of_le (h.length_le hids))
  exact ⟨congrArg Prod.fst (h.reads false hfuel [] hids), congrArg Prod.fst (h.reads true hfuel [] hids)⟩

/-! ## Laying out -/

/-- Identities that are counted from a number on. -/
theorem range'_append_counts (next n m : Nat) :
    List.range' next (n + m) = List.range' next n ++ List.range' (next + n) m :=
  (List.range'_append_1 ..).symm

variable {h : Graph} {host : Host} {withBytes : Bool}

mutual
theorem spells_layOut {first : ObjectId} : ∀ {d : Document}, d.IsPlain host withBytes → ∀ {next : ObjectId},
    h.StandAt next (layOut first next d).2 → h.Spells d (layOut first next d).1 (List.range' next d.objectCount)
  | .undefined, _, _, _ | .null, _, _, _ | .bool _, _, _, _ | .number _, _, _, _ | .text _, _, _, _
  | .big _, _, _, _ => ⟨rfl, rfl⟩
  | .date _, _, next, hstand | .pattern _ _, _, next, hstand | .bytes _, _, next, hstand
  | .numbers _ _, _, next, hstand | .boxed (.address _), _, next, hstand =>
    ⟨next, rfl, (standAt_cons.1 hstand).1, rfl⟩
  | .record fields, hd, next, hstand => by
    obtain ⟨hn, hinner⟩ := standAt_cons.1 hstand
    refine ⟨next, _, _, rfl, hn, spellsFields_layOut hd.2 hinner, ?_⟩
    rw [Document.objectCount, Nat.add_comm]
    rfl
  | .list items, hd, next, hstand => by
    obtain ⟨hn, hinner⟩ := standAt_cons.1 hstand
    refine ⟨next, _, _, rfl, hn, spellsItems_layOut hd.2 hinner, ?_⟩
    rw [Document.objectCount, Nat.add_comm]
    rfl
  | .set members, hd, next, hstand => by
    obtain ⟨hn, hinner⟩ := standAt_cons.1 hstand
    refine ⟨next, _, _, rfl, hn, spellsItems_layOut hd.2.2 hinner, ?_⟩
    rw [Document.objectCount, Nat.add_comm]
    rfl
  | .map entries, hd, next, hstand => by
    obtain ⟨hn, hinner⟩ := standAt_cons.1 hstand
    refine ⟨next, _, _, rfl, hn, spellsEntries_layOut hd.2.2 hinner, ?_⟩
    rw [Document.objectCount, Nat.add_comm]
    rfl
  | .error name message cause stack, ⟨hname, ⟨s, hmessage⟩, hcause, hstack⟩, next, hstand => by
    subst hmessage hstack
    obtain ⟨hn, hinner⟩ := standAt_cons.1 hstand
    obtain ⟨hparts, -⟩ := standAt_append.1 hinner
    obtain ⟨hshown, hbehind⟩ := standAt_append.1 hparts
    obtain ⟨hfirst, -⟩ := standAt_append.1 hshown
    obtain ⟨c, hc, hspells⟩ := spellsCause_layOut hcause hbehind
    refine ⟨next, _, _, c, _, [], _, rfl, ?_, spells_layOut hname hfirst, ⟨rfl, rfl⟩, hspells, rfl, ?_⟩
    · rw [hn, plainError, ← hc]
    · have hcount : (Document.error name (.text s) cause .undefined).objectCount =
          name.objectCount + Document.countInCause cause + 1 := by
        simp only [Document.objectCount]
        omega
      rw [hcount, List.range'_succ, range'_append_counts, List.length_append, length_layOut, List.append_nil]
      rfl

theorem spellsFields_layOut {first : ObjectId} : ∀ {fields : List (String × Document)},
    Document.PlainFields host withBytes fields → ∀ {next : ObjectId},
      h.StandAt next (layOutFields first next fields).2 →
      h.SpellsFields fields (layOutFields first next fields).1 (List.range' next (Document.countInFields fields))
  | [], _, _, _ => ⟨rfl, rfl⟩
  | (name, d) :: rest, ⟨_, hd, hrest⟩, next, hstand => by
    obtain ⟨hhere, hthere⟩ := standAt_append.1 hstand
    refine ⟨_, _, _, _, rfl, spells_layOut hd hhere, spellsFields_layOut hrest hthere, ?_⟩
    rw [length_layOut, Document.countInFields, range'_append_counts]

theorem spellsItems_layOut {first : ObjectId} : ∀ {items : List Document},
    Document.PlainItems host withBytes items → ∀ {next : ObjectId}, h.StandAt next (layOutItems first next items).2 →
      h.SpellsItems items (layOutItems first next items).1 (List.range' next (Document.countInItems items))
  | [], _, _, _ => ⟨rfl, rfl⟩
  | d :: rest, ⟨hd, hrest⟩, next, hstand => by
    obtain ⟨hhere, hthere⟩ := standAt_append.1 hstand
    refine ⟨_, _, _, _, rfl, spells_layOut hd hhere, spellsItems_layOut hrest hthere, ?_⟩
    rw [length_layOut, Document.countInItems, range'_append_counts]

theorem spellsEntries_layOut {first : ObjectId} : ∀ {entries : List (Document × Document)},
    Document.PlainEntries host withBytes entries → ∀ {next : ObjectId},
      h.StandAt next (layOutEntries first next entries).2 →
        h.SpellsEntries entries (layOutEntries first next entries).1
          (List.range' next (Document.countInEntries entries))
  | [], _, _, _ => ⟨rfl, rfl⟩
  | (k, d) :: rest, ⟨hk, hd, hrest⟩, next, hstand => by
    obtain ⟨hboth, hthere⟩ := standAt_append.1 hstand
    obtain ⟨hfirst, hhere⟩ := standAt_append.1 hboth
    rw [List.length_append, ← Nat.add_assoc] at hthere
    refine ⟨_, _, _, _, _, _, rfl, spells_layOut hk hfirst, spells_layOut hd hhere,
      spellsEntries_layOut hrest hthere, ?_⟩
    rw [length_layOut, length_layOut, Document.countInEntries, range'_append_counts, range'_append_counts,
      Nat.add_assoc]

theorem spellsCause_layOut {first : ObjectId} : ∀ {cause : Option Document}, Document.PlainCause host withBytes cause →
    ∀ {next : ObjectId}, h.StandAt next (layOutCause first next cause).2 → ∃ c,
      (layOutCause first next cause).1 = some c ∧
        h.SpellsCause cause c (List.range' next (Document.countInCause cause))
  | some _, hd, _, hstand => ⟨_, rfl, spells_layOut hd hstand⟩
end

/-- **A plain document spells whatever it is put into.** -/
theorem spells_of_placed {before : Graph} {d : Document} {w : Value} (hd : d.IsPlain host withBytes)
    (hw : before.Placed h d w) : ∃ next, h.Spells d w (List.range' next d.objectCount) := by
  obtain ⟨between, -, hadd, rfl⟩ := hw
  exact ⟨between.size, spells_layOut hd ((standAt_add between d).mono hadd)⟩

/-- **A plain document is read again wherever it is added.** -/
theorem fullDocument_add {d : Document} (hd : d.IsPlain host withBytes) : (h.add d).1.fullDocument (h.add d).2 = d := by
  obtain ⟨next, hspells⟩ := spells_of_placed hd (placed_add h d)
  exact (document_of_spells hspells List.nodup_range').2

/-! ## Deep equality -/

section
variable {R : Value → Value → Prop} (hR : ∀ d v w ids ids', g.Spells d v ids → h.Spells d w ids' → R v w)
include hR

theorem SpellsFields.zip : ∀ {fields : List (String × Document)} {values others : Fields Value}
    {ids ids' : List ObjectId}, g.SpellsFields fields values ids → h.SpellsFields fields others ids' →
      values.Zip R others
  | [], _, _, _, _, ⟨rfl, _⟩, ⟨rfl, _⟩ => .nil
  | _ :: _, _, _, _, _, ⟨_, _, _, _, rfl, hd, hrest, _⟩, ⟨_, _, _, _, rfl, hd', hrest', _⟩ =>
    .cons ⟨rfl, hR _ _ _ _ _ hd hd'⟩ (SpellsFields.zip hrest hrest')

theorem SpellsItems.forall₂ : ∀ {items : List Document} {values others : List Value} {ids ids' : List ObjectId},
    g.SpellsItems items values ids → h.SpellsItems items others ids' → List.Forall₂ R values others
  | [], _, _, _, _, ⟨rfl, _⟩, ⟨rfl, _⟩ => .nil
  | _ :: _, _, _, _, _, ⟨_, _, _, _, rfl, hd, hrest, _⟩, ⟨_, _, _, _, rfl, hd', hrest', _⟩ =>
    .cons (hR _ _ _ _ _ hd hd') (SpellsItems.forall₂ hrest hrest')

theorem SpellsEntries.forall₂ : ∀ {entries : List (Document × Document)} {values others : List (Value × Value)}
    {ids ids' : List ObjectId}, g.SpellsEntries entries values ids → h.SpellsEntries entries others ids' →
      List.Forall₂ (fun e o => R e.1 o.1 ∧ R e.2 o.2) values others
  | [], _, _, _, _, ⟨rfl, _⟩, ⟨rfl, _⟩ => .nil
  | _ :: _, _, _, _, _, ⟨_, _, _, _, _, _, rfl, hk, hd, hrest, _⟩, ⟨_, _, _, _, _, _, rfl, hk', hd', hrest', _⟩ =>
    .cons ⟨hR _ _ _ _ _ hk hk', hR _ _ _ _ _ hd hd'⟩ (SpellsEntries.forall₂ hrest hrest')

end

/-- **Values that one document spells are deeply equal.** -/
theorem same_of_spells {d : Document} {v w : Value} {ids ids' : List ObjectId} (hv : g.Spells d v ids)
    (hw : h.Spells d w ids') : g.Same h v w := by
  refine ⟨fun v w => ∃ d ids ids', g.Spells d v ids ∧ h.Spells d w ids', ?_, d, ids, ids', hv, hw⟩
  rintro v w ⟨d, ids, ids', hv, hw⟩
  have hR : ∀ d v w ids ids', g.Spells d v ids → h.Spells d w ids' →
      ∃ d ids ids', g.Spells d v ids ∧ h.Spells d w ids' := fun d _ _ ids ids' hv hw => ⟨d, ids, ids', hv, hw⟩
  cases d with
  | undefined | null | bool _ | number _ | text _ | big _ =>
    obtain ⟨rfl, -⟩ := hv
    exact .inl ⟨rfl, hw.1.symm⟩
  | date time =>
    obtain ⟨_, rfl, hn, -⟩ := hv
    obtain ⟨_, rfl, hm, -⟩ := hw
    exact .inr ⟨_, _, hn, hm, .moved (.date time)⟩
  | pattern source flags =>
    obtain ⟨_, rfl, hn, -⟩ := hv
    obtain ⟨_, rfl, hm, -⟩ := hw
    exact .inr ⟨_, _, hn, hm, .moved (.pattern source flags)⟩
  | bytes data =>
    obtain ⟨_, rfl, hn, -⟩ := hv
    obtain ⟨_, rfl, hm, -⟩ := hw
    exact .inr ⟨_, _, hn, hm, .moved (.bytes data)⟩
  | numbers element items =>
    obtain ⟨_, rfl, hn, -⟩ := hv
    obtain ⟨_, rfl, hm, -⟩ := hw
    exact .inr ⟨_, _, hn, hm, .moved (.numbers element items)⟩
  | boxed content =>
    obtain ⟨_, rfl, hn, -⟩ := hv
    obtain ⟨_, rfl, hm, -⟩ := hw
    exact .inr ⟨_, _, hn, hm, .moved (.boxed content)⟩
  | record fields =>
    obtain ⟨_, _, _, rfl, hn, hparts, -⟩ := hv
    obtain ⟨_, _, _, rfl, hm, hparts', -⟩ := hw
    exact .inr ⟨_, _, hn, hm, .moved (.record (hparts.zip hR hparts'))⟩
  | list items =>
    obtain ⟨_, _, _, rfl, hn, hparts, -⟩ := hv
    obtain ⟨_, _, _, rfl, hm, hparts', -⟩ := hw
    exact .inr ⟨_, _, hn, hm, .moved (.list (hparts.forall₂ hR hparts'))⟩
  | set members =>
    obtain ⟨_, _, _, rfl, hn, hparts, -⟩ := hv
    obtain ⟨_, _, _, rfl, hm, hparts', -⟩ := hw
    exact .inr ⟨_, _, hn, hm, .moved (.set (hparts.forall₂ hR hparts'))⟩
  | map entries =>
    obtain ⟨_, _, _, rfl, hn, hparts, -⟩ := hv
    obtain ⟨_, _, _, rfl, hm, hparts', -⟩ := hw
    exact .inr ⟨_, _, hn, hm, .moved (.map (hparts.forall₂ hR hparts'))⟩
  | error name message cause stack =>
    obtain ⟨_, n, m, c, _, _, _, rfl, hn, hname, hmessage, hcause, -, -⟩ := hv
    obtain ⟨_, n', m', c', _, _, _, rfl, hm, hname', hmessage', hcause', -, -⟩ := hw
    cases cause with
    | none => exact hcause.elim
    | some d => exact .inr ⟨_, _, hn, hm, .error {
        subclasses := rfl
        name := hR _ _ _ _ _ hname hname'
        message := hR _ _ _ _ _ hmessage hmessage'
        stack := .some ⟨.undefined, [], [], ⟨rfl, rfl⟩, ⟨rfl, rfl⟩⟩
        frames := rfl
        cause := .some (hR _ _ _ _ _ hcause hcause')
        listsCause := rfl
        body := .host true
        extra := .nil }⟩
  | sparse _ | again _ | existing _ => exact hv.elim

end

end FailureWire.Graph
