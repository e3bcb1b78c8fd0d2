import FailureWire.Proofs.Graph.Extension
import Mathlib.Data.List.Forall2

/-!
# What becomes of a document

`Graph.add` numbers the objects of a document and puts them behind those of a graph. `g.Shows first d v`
says, without any numbering, that `v` is a value such as `d` describes; `first` is the identity of the
object that the document's `again 0` speaks of. What is added is shown (`shows_add`), and stays shown in
every larger graph (`Shows.mono`).

`g.Placed g' d v` says that the value of `d` came into the graph somewhere on the way from `g` to `g'`. The
items of an aligned list come into the graph one by one, as if each of them had been added on its own
(`placed_items`).
-/

namespace FailureWire.Graph

/-! ## Documents shown by values -/

mutual
/-- A value is such as a document describes. -/
def Shows (g : Graph) (first : ObjectId) : Document → Value → Prop
  | .undefined, v => v = .undefined
  | .null, v => v = .null
  | .bool b, v => v = .bool b
  | .number n, v => v = .number n
  | .text s, v => v = .text s
  | .big n, v => v = .big n
  | .record fields, v =>
    ∃ values, g.objectOf? v = some (.record values) ∧ ShowsFields g first fields values
  | .list items, v => ∃ values, g.objectOf? v = some (.list values) ∧ ShowsItems g first items values
  | .sparse fields, v =>
    ∃ values, g.objectOf? v = some (.sparse values) ∧ ShowsFields g first fields values
  | .set members, v =>
    ∃ values, g.objectOf? v = some (.set values) ∧ ShowsItems g first members values
  | .map entries, v =>
    ∃ values, g.objectOf? v = some (.map values) ∧ ShowsEntries g first entries values
  | .date time, v => g.objectOf? v = some (.date time)
  | .pattern source flags, v => g.objectOf? v = some (.pattern source flags)
  | .bytes data, v => g.objectOf? v = some (.bytes data)
  | .numbers element items, v => g.objectOf? v = some (.numbers element items)
  | .boxed content, v => g.objectOf? v = some (.boxed content)
  | .error name message cause stack, v =>
    ∃ n m c s,
      g.objectOf? v = some (.error
        { subclasses := [], name := n, message := m, stack := some s, cause := c
          body := .host true, extra := [] }) ∧
        Shows g first name n ∧ Shows g first message m ∧ ShowsCause g first cause c ∧
        Shows g first stack s
  | .again k, v => v = .object (first + k)
  | .existing w, v => v = w
termination_by structural d => d

def ShowsFields (g : Graph) (first : ObjectId) : List (String × Document) → Fields Value → Prop
  | [], values => values = []
  | (name, d) :: rest, values =>
    ∃ v more, values = (name, v) :: more ∧ Shows g first d v ∧ ShowsFields g first rest more
termination_by structural fs => fs

def ShowsItems (g : Graph) (first : ObjectId) : List Document → List Value → Prop
  | [], values => values = []
  | d :: rest, values => ∃ v more, values = v :: more ∧ Shows g first d v ∧ ShowsItems g first rest more
termination_by structural ds => ds

def ShowsEntries (g : Graph) (first : ObjectId) :
    List (Document × Document) → List (Value × Value) → Prop
  | [], values => values = []
  | (k, d) :: rest, values =>
    ∃ key v more, values = (key, v) :: more ∧ Shows g first k key ∧ Shows g first d v ∧
      ShowsEntries g first rest more
termination_by structural es => es

def ShowsCause (g : Graph) (first : ObjectId) : Option Document → Option Value → Prop
  | none, cause => cause = none
  | some d, cause => ∃ v, cause = some v ∧ Shows g first d v
termination_by structural d => d
end

/-! ## Parts of what is shown -/

section
variable {g : Graph} {first : ObjectId}

theorem ShowsFields.zip : ∀ {fields : List (String × Document)} {values : Fields Value},
    g.ShowsFields first fields values →
      List.Forall₂ (fun f v => f.1 = v.1 ∧ g.Shows first f.2 v.2) fields values
  | [], _, h => by
    cases h
    exact .nil
  | _ :: _, _, ⟨_, _, hv, hd, hrest⟩ => by
    subst hv
    exact .cons ⟨rfl, hd⟩ hrest.zip

theorem ShowsItems.forall₂ : ∀ {items : List Document} {values : List Value},
    g.ShowsItems first items values → List.Forall₂ (g.Shows first) items values
  | [], _, h => by
    cases h
    exact .nil
  | _ :: _, _, ⟨_, _, hv, hd, hrest⟩ => by
    subst hv
    exact .cons hd hrest.forall₂

end

/-! ## Larger graphs -/

mutual
theorem Shows.mono {g g' : Graph} (h : g ≤ g') {first : ObjectId} :
    ∀ {d : Document} {v : Value}, g.Shows first d v → g'.Shows first d v
  | .undefined, _, hv | .null, _, hv | .bool _, _, hv | .number _, _, hv | .text _, _, hv
  | .big _, _, hv | .again _, _, hv | .existing _, _, hv => hv
  | .record _, _, ⟨values, hv, hs⟩ | .sparse _, _, ⟨values, hv, hs⟩ =>
    ⟨values, objectOf?_of_le h hv, ShowsFields.mono h hs⟩
  | .list _, _, ⟨values, hv, hs⟩ | .set _, _, ⟨values, hv, hs⟩ =>
    ⟨values, objectOf?_of_le h hv, ShowsItems.mono h hs⟩
  | .map _, _, ⟨values, hv, hs⟩ => ⟨values, objectOf?_of_le h hv, ShowsEntries.mono h hs⟩
  | .date _, _, hv | .pattern _ _, _, hv | .bytes _, _, hv | .numbers _ _, _, hv
  | .boxed _, _, hv => objectOf?_of_le h hv
  | .error .., _, ⟨n, m, c, s, hv, hn, hm, hc, hs⟩ =>
    ⟨n, m, c, s, objectOf?_of_le h hv, Shows.mono h hn, Shows.mono h hm, ShowsCause.mono h hc,
      Shows.mono h hs⟩

theorem ShowsFields.mono {g g' : Graph} (h : g ≤ g') {first : ObjectId} :
    ∀ {fields : List (String × Document)} {values : Fields Value},
      g.ShowsFields first fields values → g'.ShowsFields first fields values
  | [], _, hv => hv
  | _ :: _, _, ⟨v, more, hv, hd, hs⟩ => ⟨v, more, hv, Shows.mono h hd, ShowsFields.mono h hs⟩

theorem ShowsItems.mono {g g' : Graph} (h : g ≤ g') {first : ObjectId} :
    ∀ {items : List Document} {values : List Value},
      g.ShowsItems first items values → g'.ShowsItems first items values
  | [], _, hv => hv
  | _ :: _, _, ⟨v, more, hv, hd, hs⟩ => ⟨v, more, hv, Shows.mono h hd, ShowsItems.mono h hs⟩

theorem ShowsEntries.mono {g g' : Graph} (h : g ≤ g') {first : ObjectId} :
    ∀ {entries : List (Document × Document)} {values : List (Value × Value)},
      g.ShowsEntries first entries values → g'.ShowsEntries first entries values
  | [], _, hv => hv
  | _ :: _, _, ⟨k, v, more, hv, hk, hd, hs⟩ =>
    ⟨k, v, more, hv, Shows.mono h hk, Shows.mono h hd, ShowsEntries.mono h hs⟩

theorem ShowsCause.mono {g g' : Graph} (h : g ≤ g') {first : ObjectId} :
    ∀ {d : Option Document} {cause : Option Value},
      g.ShowsCause first d cause → g'.ShowsCause first d cause
  | none, _, hc => hc
  | some _, _, ⟨v, hc, hd⟩ => ⟨v, hc, Shows.mono h hd⟩
end

/-! ## Laying out -/

/-- Objects stand in a graph under the identities from `next` on. -/
def StandAt (g : Graph) (next : ObjectId) (nodes : List Node) : Prop :=
  nodes <+: g.nodes.drop next

section
variable {g : Graph} {first next : ObjectId}

theorem standAt_append {before after : List Node} :
    g.StandAt next (before ++ after) ↔
      g.StandAt next before ∧ g.StandAt (next + before.length) after := by
  constructor
  · rintro ⟨more, hm⟩
    refine ⟨⟨after ++ more, by rw [← hm, List.append_assoc]⟩, ⟨more, ?_⟩⟩
    rw [← List.drop_drop, ← hm, List.append_assoc, List.drop_left]
  · rintro ⟨⟨more, hm⟩, ⟨rest, hr⟩⟩
    refine ⟨rest, ?_⟩
    rw [← List.drop_drop, ← hm, List.drop_left] at hr
    rw [List.append_assoc, hr, hm]

theorem standAt_cons {n : Node} {after : List Node} :
    g.StandAt next (n :: after) ↔ g.node? next = some n ∧ g.StandAt (next + 1) after := by
  have hone : g.StandAt next [n] ↔ g.node? next = some n := by
    rw [node?, ← List.head?_drop]
    constructor
    · rintro ⟨more, hm⟩
      rw [← hm]
      rfl
    · intro hn
      obtain ⟨more, hm⟩ := List.head?_eq_some_iff.1 hn
      exact ⟨more, hm.symm⟩
  rw [← List.singleton_append, standAt_append, hone]
  rfl

theorem standAt_nil : g.StandAt next [] := List.nil_prefix

/-- Objects that are there are there in larger graphs. -/
theorem StandAt.mono {g' : Graph} {nodes : List Node} (h : g ≤ g') (hs : g.StandAt next nodes) :
    g'.StandAt next nodes := by
  obtain ⟨more, hm⟩ := le_def.1 h
  obtain ⟨rest, hr⟩ := hs
  rcases Nat.le_total next g.nodes.length with hle | hle
  · exact ⟨rest ++ more, by rw [← hm, List.drop_append_of_le_length hle, ← hr, List.append_assoc]⟩
  · rw [List.drop_eq_nil_of_le hle] at hr
    obtain ⟨rfl, -⟩ := List.append_eq_nil_iff.1 hr
    exact standAt_nil

theorem standAt_add (g : Graph) (d : Document) :
    (g.add d).1.StandAt g.size (layOut g.size g.size d).2 :=
  ⟨[], by simp [add, size]⟩

mutual
theorem shows_layOut {g : Graph} {first : ObjectId} :
    ∀ {d : Document} {next : ObjectId}, g.StandAt next (layOut first next d).2 →
      g.Shows first d (layOut first next d).1
  | .undefined, _, _ | .null, _, _ | .bool _, _, _ | .number _, _, _ | .text _, _, _ | .big _, _, _
  | .again _, _, _ | .existing _, _, _ => rfl
  | .record fields, next, h | .sparse fields, next, h => by
    obtain ⟨hn, hs⟩ := standAt_cons.1 h
    exact ⟨_, hn, showsFields_layOut hs⟩
  | .list items, next, h | .set items, next, h => by
    obtain ⟨hn, hs⟩ := standAt_cons.1 h
    exact ⟨_, hn, showsItems_layOut hs⟩
  | .map entries, next, h => by
    obtain ⟨hn, hs⟩ := standAt_cons.1 h
    exact ⟨_, hn, showsEntries_layOut hs⟩
  | .date _, _, h | .pattern _ _, _, h | .bytes _, _, h | .numbers _ _, _, h | .boxed _, _, h =>
    (standAt_cons.1 h).1
  | .error name message cause stack, next, h => by
    obtain ⟨hn, hs⟩ := standAt_cons.1 h
    obtain ⟨hs, hstack⟩ := standAt_append.1 hs
    obtain ⟨hs, hcause⟩ := standAt_append.1 hs
    obtain ⟨hname, hmessage⟩ := standAt_append.1 hs
    exact ⟨_, _, _, _, hn, shows_layOut hname, shows_layOut hmessage, showsCause_layOut hcause,
      shows_layOut hstack⟩

theorem showsFields_layOut {g : Graph} {first : ObjectId} :
    ∀ {fields : List (String × Document)} {next : ObjectId},
      g.StandAt next (layOutFields first next fields).2 →
        g.ShowsFields first fields (layOutFields first next fields).1
  | [], _, _ => rfl
  | (_, d) :: rest, next, h => by
    obtain ⟨hd, hrest⟩ := standAt_append.1 h
    exact ⟨_, _, rfl, shows_layOut hd, showsFields_layOut hrest⟩

theorem showsItems_layOut {g : Graph} {first : ObjectId} :
    ∀ {items : List Document} {next : ObjectId}, g.StandAt next (layOutItems first next items).2 →
      g.ShowsItems first items (layOutItems first next items).1
  | [], _, _ => rfl
  | d :: rest, next, h => by
    obtain ⟨hd, hrest⟩ := standAt_append.1 h
    exact ⟨_, _, rfl, shows_layOut hd, showsItems_layOut hrest⟩

theorem showsEntries_layOut {g : Graph} {first : ObjectId} :
    ∀ {entries : List (Document × Document)} {next : ObjectId},
      g.StandAt next (layOutEntries first next entries).2 →
        g.ShowsEntries first entries (layOutEntries first next entries).1
  | [], _, _ => rfl
  | (k, d) :: rest, next, h => by
    obtain ⟨hkd, hrest⟩ := standAt_append.1 h
    obtain ⟨hk, hd⟩ := standAt_append.1 hkd
    rw [List.length_append, ← Nat.add_assoc] at hrest
    exact ⟨_, _, _, rfl, shows_layOut hk, shows_layOut hd, showsEntries_layOut hrest⟩

theorem showsCause_layOut {g : Graph} {first : ObjectId} :
    ∀ {d : Option Document} {next : ObjectId}, g.StandAt next (layOutCause first next d).2 →
      g.ShowsCause first d (layOutCause first next d).1
  | none, _, _ => rfl
  | some _, _, h => ⟨_, rfl, shows_layOut h⟩
end

/-- **What is added is shown.** -/
theorem shows_add (g : Graph) (d : Document) : (g.add d).1.Shows g.size d (g.add d).2 :=
  shows_layOut (standAt_add g d)

end

/-! ## Numbers of objects -/

section
variable {first next : ObjectId}

mutual
theorem length_layOut : ∀ {d : Document} {next : ObjectId},
    (layOut first next d).2.length = d.objectCount
  | .undefined, _ | .null, _ | .bool _, _ | .number _, _ | .text _, _ | .big _, _ | .again _, _
  | .existing _, _ => rfl
  | .record _, _ | .sparse _, _ => by
    rw [Document.objectCount, ← length_layOutFields, Nat.add_comm]
    rfl
  | .list _, _ | .set _, _ => by
    rw [Document.objectCount, ← length_layOutItems, Nat.add_comm]
    rfl
  | .map _, _ => by
    rw [Document.objectCount, ← length_layOutEntries, Nat.add_comm]
    rfl
  | .date _, _ | .pattern _ _, _ | .bytes _, _ | .numbers _ _, _ | .boxed _, _ => rfl
  | .error .., _ => by
    simp only [layOut, Document.objectCount, List.length_cons, List.length_append, length_layOut,
      length_layOutCause]
    omega

theorem length_layOutFields : ∀ {fields : List (String × Document)} {next : ObjectId},
    (layOutFields first next fields).2.length = Document.countInFields fields
  | [], _ => rfl
  | _ :: _, _ => by
    simp only [layOutFields, Document.countInFields, List.length_append, length_layOut,
      length_layOutFields]

theorem length_layOutItems : ∀ {items : List Document} {next : ObjectId},
    (layOutItems first next items).2.length = Document.countInItems items
  | [], _ => rfl
  | _ :: _, _ => by
    simp only [layOutItems, Document.countInItems, List.length_append, length_layOut,
      length_layOutItems]

theorem length_layOutEntries : ∀ {entries : List (Document × Document)} {next : ObjectId},
    (layOutEntries first next entries).2.length = Document.countInEntries entries
  | [], _ => rfl
  | _ :: _, _ => by
    simp only [layOutEntries, Document.countInEntries, List.length_append, length_layOut,
      length_layOutEntries]

theorem length_layOutCause : ∀ {d : Option Document} {next : ObjectId},
    (layOutCause first next d).2.length = Document.countInCause d
  | none, _ => rfl
  | some _, _ => length_layOut
end

mutual
/-- A renumbered document is laid out as the document itself from another first object on. -/
theorem layOut_renumber {k : Nat} : ∀ {d : Document} {next : ObjectId},
    layOut first next (d.renumber k) = layOut (first + k) next d
  | .undefined, _ | .null, _ | .bool _, _ | .number _, _ | .text _, _ | .big _, _ | .existing _, _
  | .date _, _ | .pattern _ _, _ | .bytes _, _ | .numbers _ _, _ | .boxed _, _ => rfl
  | .again n, _ => by rw [Document.renumber, layOut, layOut, Nat.add_assoc]
  | .record _, _ | .sparse _, _ => by
    simp only [Document.renumber, layOut, layOutFields_renumber]
  | .list _, _ | .set _, _ => by simp only [Document.renumber, layOut, layOutItems_renumber]
  | .map _, _ => by simp only [Document.renumber, layOut, layOutEntries_renumber]
  | .error .., _ => by
    simp only [Document.renumber, layOut, layOut_renumber, layOutCause_renumber]

theorem layOutFields_renumber {k : Nat} : ∀ {fields : List (String × Document)} {next : ObjectId},
    layOutFields first next (Document.renumberFields k fields) = layOutFields (first + k) next fields
  | [], _ => rfl
  | _ :: _, _ => by
    simp only [Document.renumberFields, layOutFields, layOut_renumber, layOutFields_renumber]

theorem layOutItems_renumber {k : Nat} : ∀ {items : List Document} {next : ObjectId},
    layOutItems first next (Document.renumberItems k items) = layOutItems (first + k) next items
  | [], _ => rfl
  | _ :: _, _ => by
    simp only [Document.renumberItems, layOutItems, layOut_renumber, layOutItems_renumber]

theorem layOutEntries_renumber {k : Nat} :
    ∀ {entries : List (Document × Document)} {next : ObjectId},
      layOutEntries first next (Document.renumberEntries k entries) =
        layOutEntries (first + k) next entries
  | [], _ => rfl
  | _ :: _, _ => by
    simp only [Document.renumberEntries, layOutEntries, layOut_renumber, layOutEntries_renumber]

theorem layOutCause_renumber {k : Nat} : ∀ {d : Option Document} {next : ObjectId},
    layOutCause first next (Document.renumberCause k d) = layOutCause (first + k) next d
  | none, _ => rfl
  | some _, _ => by simp only [Document.renumberCause, layOutCause, layOut_renumber]
end

end

/-! ## Values on the way -/

/-- The value of a document came into the graph on the way from one graph to another. -/
def Placed (g g' : Graph) (d : Document) (v : Value) : Prop :=
  ∃ h, g ≤ h ∧ (h.add d).1 ≤ g' ∧ v = (h.add d).2

theorem Placed.mono {g g' g'' : Graph} {d : Document} {v : Value} (h : g' ≤ g'')
    (hp : g.Placed g' d v) : g.Placed g'' d v := by
  obtain ⟨between, hle, hadd, hv⟩ := hp
  exact ⟨between, hle, hadd.trans h, hv⟩

theorem Placed.le {g g' : Graph} {d : Document} {v : Value} (hp : g.Placed g' d v) : g ≤ g' := by
  obtain ⟨between, hle, hadd, -⟩ := hp
  exact hle.trans ((le_add between d).trans hadd)

theorem placed_add (g : Graph) (d : Document) : g.Placed (g.add d).1 d (g.add d).2 :=
  ⟨g, le_refl g, le_refl _, rfl⟩

theorem placed_of_standAt {g g' : Graph} {d : Document} {next : Nat} (h : g ≤ g')
    (hlow : g.size ≤ next) (hhigh : next ≤ g'.size)
    (hs : g'.StandAt next (layOut next next d).2) : g.Placed g' d (layOut next next d).1 := by
  have hsize : (Graph.mk (g'.nodes.take next)).size = next := by
    rw [size, List.length_take]
    exact Nat.min_eq_left hhigh
  refine ⟨⟨g'.nodes.take next⟩, ?_, ?_, ?_⟩
  · exact List.prefix_take_iff.2 ⟨h, hlow⟩
  · obtain ⟨more, hm⟩ := hs
    refine ⟨more, ?_⟩
    simp only [add, hsize]
    rw [List.append_assoc, hm, List.take_append_drop]
  · rw [add, hsize]

/-- **The items of an aligned list come into the graph one by one.** -/
theorem placed_items {g g' : Graph} {first : Nat} (h : g ≤ g') :
    ∀ {ds : List Document} {n : Nat}, g.size ≤ first + n →
      first + n + Document.countInItems (Document.alignFrom n ds) ≤ g'.size →
      g'.StandAt (first + n) (layOutItems first (first + n) (Document.alignFrom n ds)).2 →
      List.Forall₂ (g.Placed g') ds (layOutItems first (first + n) (Document.alignFrom n ds)).1
  | [], _, _, _, _ => .nil
  | d :: rest, n, hlow, hhigh, hs => by
    have hcount : (d.renumber n).objectCount = d.objectCount := by
      rw [← @length_layOut first _ first, layOut_renumber, length_layOut]
    simp only [Document.alignFrom, Document.countInItems, hcount] at hhigh
    obtain ⟨hd, hrest⟩ := standAt_append.1 hs
    rw [length_layOut, hcount, Nat.add_assoc] at hrest
    rw [layOut_renumber] at hd
    have htail := placed_items h (n := n + d.objectCount) (by omega) (by omega) hrest
    refine .cons ?_ ?_
    · rw [layOut_renumber]
      exact placed_of_standAt h hlow (by omega) hd
    · rwa [length_layOut, hcount, Nat.add_assoc]

/-- A list of values with documents of their own becomes a list of values that came one by one. -/
theorem Placed.items {g g' : Graph} {ds : List Document} {v : Value}
    (hp : g.Placed g' (.list (Document.alignFrom 1 ds)) v) :
    ∃ values, g'.objectOf? v = some (.list values) ∧ List.Forall₂ (g.Placed g') ds values := by
  have hgrown := hp.le
  obtain ⟨h, hle, hadd, rfl⟩ := hp
  have hs := (standAt_add h (.list (Document.alignFrom 1 ds))).mono hadd
  obtain ⟨hnode, hitems⟩ := standAt_cons.1 hs
  have hsize := size_le hadd
  have hlength : (h.add (.list (Document.alignFrom 1 ds))).1.size =
      h.size + (1 + Document.countInItems (Document.alignFrom 1 ds)) := by
    rw [← Document.objectCount, ← @length_layOut h.size _ h.size]
    exact List.length_append
  exact ⟨_, hnode, placed_items hgrown (Nat.le_succ_of_le (size_le hle)) (by omega) hitems⟩

end FailureWire.Graph
