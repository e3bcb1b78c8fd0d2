import FailureWire.Proofs.Error.Causes
import Mathlib.Logic.Relation

/-!
# Walks along any causes

`Graph.walk` goes from a value along causes with a number of links to spare, so it ends whatever the values look like.
Here the walk is the loop of `walkErrorChain`, which knows no such number: a state holds the links, the objects seen
and the value that comes next, and `Walk.Step` takes one more link if the value is something, the depth admits it and
the object is new. No such loop goes on for ever (`Walk.wellFounded_step`), because each turn either sees a new object
of the graph or comes to nothing, and `Graph.walk` returns what the loop ends with (`Walk.exists_run`).

`Walk.Inv` is what every turn keeps. It says that all links but the last one are objects, so that a walk meets no value
twice, primitive values included. A loop of a smaller depth runs into the loop of a larger one
(`Walk.links_eq_firstOf`). `walk_characterised` puts this together.
-/

namespace FailureWire

namespace Depth

/-- A depth is below another one if the other one admits as many links. -/
instance : LE Depth := ⟨fun d D => ∀ n, d.Admits n → D.Admits n⟩

@[simp] theorem atMost_le_atMost {n m : Nat} : atMost n ≤ atMost m ↔ n ≤ m :=
  ⟨fun h => h n (Nat.le_refl n), fun h _ hk => Nat.le_trans hk h⟩

@[simp] theorem le_unlimited (d : Depth) : d ≤ .unlimited := fun _ _ => trivial

/-- As many of the first values as a depth admits. -/
def firstOf {α : Type} : Depth → List α → List α
  | .atMost n, vs => vs.take n
  | .unlimited, vs => vs

theorem firstOf_of_admits {α : Type} {d : Depth} {vs : List α} (h : d.Admits vs.length) : d.firstOf vs = vs := by
  cases d with
  | atMost n => exact List.take_of_length_le h
  | unlimited => rfl

/-- A depth that admits the first part of a list, and not one more, takes just this part of it. -/
theorem firstOf_append {α : Type} {d : Depth} {vs ws : List α} (h : d.Admits vs.length)
    (hnext : ¬ d.Admits (vs.length + 1)) : d.firstOf (vs ++ ws) = vs := by
  cases d with
  | atMost n =>
    obtain rfl : n = vs.length := Nat.le_antisymm (Nat.le_of_not_lt hnext) h
    exact List.take_left
  | unlimited => exact absurd trivial hnext

end Depth

/-- A walk under way: the links that it took, the objects that it saw, and the value that comes next. -/
structure Walk where
  links : List Value
  seen : List ObjectId
  next : Value

namespace Walk

/-- The walk from a value before its first link. -/
def start (v : Value) : Walk := ⟨[], [], v⟩

/-- The walk after one more link. -/
def advance (g : Graph) (w : Walk) : Walk :=
  ⟨w.links ++ [w.next], w.next.id?.toList ++ w.seen, g.causeOf w.next⟩

/-- The chain that a walk returns where it stops. -/
def result (w : Walk) : Chain := ⟨w.links, !w.next.isMissing⟩

/-- A walk takes the value that comes next. -/
structure GoesOn (d : Depth) (w : Walk) : Prop where
  present : w.next.isMissing = false
  admitted : d.Admits (w.links.length + 1)
  unseen : ∀ id, w.next = .object id → id ∉ w.seen

/-- One turn of the loop. -/
def Step (g : Graph) (d : Depth) (w w' : Walk) : Prop := w.GoesOn d ∧ w' = w.advance g

def unseen (g : Graph) (w : Walk) : List ObjectId := (List.range g.size).filter (· ∉ w.seen)

/-- How many more links a walk can take at most: one for each object that it has not seen, and a last one. -/
def remaining (g : Graph) (w : Walk) : Nat := (w.unseen g).length + (!w.next.isMissing).toNat

variable {g : Graph} {d D : Depth} {v : Value} {w w' w'' : Walk}

/-! ## The loop ends -/

theorem unseen_advance_sublist (g : Graph) (w : Walk) : ((w.advance g).unseen g).Sublist (w.unseen g) :=
  List.monotone_filter_right _ (by simp +contextual [advance])

/-- An object is seen once it is a link. -/
theorem GoesOn.length_unseen_lt {id : ObjectId} (h : w.GoesOn d) (hnext : w.next = .object id) (hid : id < g.size) :
    ((w.advance g).unseen g).length < (w.unseen g).length := by
  have hsub := unseen_advance_sublist g w
  have hmem : id ∈ w.unseen g := by simp [Walk.unseen, hid, h.unseen id hnext]
  have hgone : id ∉ (w.advance g).unseen g := by simp [Walk.unseen, advance, hnext, Value.id?]
  exact Nat.lt_of_le_of_ne hsub.length_le fun heq => hgone (hsub.eq_of_length heq ▸ hmem)

theorem remaining_of_present (h : w.next.isMissing = false) : w.remaining g = (w.unseen g).length + 1 := by
  simp [remaining, h]

theorem remaining_of_missing (h : w.next.isMissing = true) : w.remaining g = (w.unseen g).length := by
  simp [remaining, h]

/-- Each turn leaves fewer links to take. -/
theorem Step.remaining_lt (h : Step g d w w') : w'.remaining g < w.remaining g := by
  obtain ⟨hgo, rfl⟩ := h
  rw [remaining_of_present hgo.present]
  cases hcause : (w.advance g).next.isMissing with
  | true =>
    rw [remaining_of_missing hcause]
    exact Nat.lt_succ_of_le (unseen_advance_sublist g w).length_le
  | false =>
    obtain ⟨id, hnext, hid⟩ := Graph.exists_id_of_causeOf hcause
    rw [remaining_of_present hcause]
    exact Nat.succ_lt_succ (hgo.length_unseen_lt hnext hid)

/-- **The loop ends**, from whatever state it is in. -/
theorem wellFounded_step (g : Graph) (d : Depth) : WellFounded fun w' w => Step g d w w' :=
  Subrelation.wf Step.remaining_lt (measure (remaining g)).wf

theorem step_rightUnique (g : Graph) (d : Depth) : Relator.RightUnique (Step g d) := by
  rintro w w' w'' ⟨-, rfl⟩ ⟨-, rfl⟩
  rfl

/-! ## The loop and the walk -/

/-- A walk with so many links to spare can go on as long as the loop does. -/
def Enough (g : Graph) (w : Walk) (left : Nat) : Depth → Prop
  | .atMost limit => w.links.length + left = limit
  | .unlimited => w.remaining g ≤ left

theorem enough_start (g : Graph) (d : Depth) (v : Value) : (start v).Enough g (d.linksIn g) d := by
  cases d with
  | atMost limit => simp [Enough, start, Depth.linksIn]
  | unlimited =>
    have hunseen : ((start v).unseen g).length ≤ g.size := (List.length_filter_le _ _).trans_eq List.length_range
    have hnext := Bool.toNat_le (!(start v).next.isMissing)
    exact Nat.add_le_add hunseen hnext

/-- With nothing left the loop ends too. -/
theorem Enough.not_goesOn (h : w.Enough g 0 d) : ¬ w.GoesOn d := by
  intro hgo
  cases d with
  | atMost limit =>
    have hlimit : w.links.length + 1 ≤ limit := hgo.admitted
    simp only [Enough] at h
    omega
  | unlimited => simp [Enough, remaining, hgo.present] at h

/-- With something left the depth does not end the loop. -/
theorem Enough.admits {left : Nat} (h : w.Enough g (left + 1) d) : d.Admits (w.links.length + 1) := by
  cases d with
  | atMost limit =>
    simp only [Enough] at h
    show w.links.length + 1 ≤ limit
    omega
  | unlimited => trivial

theorem Enough.step {left : Nat} (h : w.Enough g (left + 1) d) (hstep : Step g d w w') : w'.Enough g left d := by
  cases d with
  | atMost limit =>
    obtain ⟨-, rfl⟩ := hstep
    simp only [Enough, advance, List.length_append, List.length_singleton] at h ⊢
    omega
  | unlimited =>
    have hlt := hstep.remaining_lt
    simp only [Enough] at h ⊢
    omega

theorem walkFrom_of_goesOn (h : w.GoesOn d) (left : Nat) :
    g.walkFrom (left + 1) w.seen w.next =
      (g.walkFrom left (w.advance g).seen (w.advance g).next).cons w.next := by
  rw [Graph.walkFrom, if_neg (by simp [h.present])]
  cases hid : w.next.id? with
  | none => simp [advance, hid]
  | some id =>
    have hnext : w.next = .object id := by cases hw : w.next <;> simp_all [Value.id?]
    simp [advance, hid, h.unseen id hnext]

theorem walkFrom_of_not_goesOn (hadmits : d.Admits (w.links.length + 1)) (h : ¬ w.GoesOn d) (left : Nat) :
    g.walkFrom (left + 1) w.seen w.next = ⟨[], !w.next.isMissing⟩ := by
  rw [Graph.walkFrom]
  cases hmissing : w.next.isMissing with
  | true => simp
  | false =>
    -- neither nothing nor the depth stops the loop, so the object was seen
    cases hid : w.next.id? with
    | none =>
      refine absurd ⟨hmissing, hadmits, fun id hnext => ?_⟩ h
      simp [hnext, Value.id?] at hid
    | some id =>
      have hseen : id ∈ w.seen := by
        by_contra hnew
        refine h ⟨hmissing, hadmits, fun id' hnext => ?_⟩
        rw [hnext, Value.id?] at hid
        cases hid
        exact hnew
      simp [hseen]

/-- **The walk is what the loop ends with**, whatever links the loop took already. -/
theorem exists_run : ∀ {left : Nat} {w : Walk}, w.Enough g left d →
    ∃ w', Relation.ReflTransGen (Step g d) w w' ∧ ¬ w'.GoesOn d ∧
      w'.links = w.links ++ (g.walkFrom left w.seen w.next).links ∧
      (!w'.next.isMissing) = (g.walkFrom left w.seen w.next).truncated
  | 0, w, h => ⟨w, .refl, h.not_goesOn, by simp [Graph.walkFrom], by simp [Graph.walkFrom]⟩
  | left + 1, w, h => by
    by_cases hgo : w.GoesOn d
    · have hstep : Step g d w (w.advance g) := ⟨hgo, rfl⟩
      obtain ⟨w', hrun, hstop, hlinks, htruncated⟩ := exists_run (h.step hstep)
      refine ⟨w', .head hstep hrun, hstop, ?_, ?_⟩
      · rw [hlinks, walkFrom_of_goesOn hgo]
        simp [advance, Chain.cons]
      · rw [htruncated, walkFrom_of_goesOn hgo]
        rfl
    · refine ⟨w, .refl, hgo, ?_, ?_⟩ <;> simp [walkFrom_of_not_goesOn h.admits hgo]

/-- What the loop of this depth ends with, from a value. -/
structure Ends (g : Graph) (d : Depth) (v : Value) (w : Walk) : Prop where
  run : Relation.ReflTransGen (Step g d) (start v) w
  stop : ¬ w.GoesOn d

theorem exists_ends (g : Graph) (d : Depth) (v : Value) : ∃ w, Ends g d v w ∧ g.walk d v = w.result := by
  obtain ⟨w, hrun, hstop, hlinks, htruncated⟩ := exists_run (enough_start g d v)
  refine ⟨w, ⟨hrun, hstop⟩, ?_⟩
  rw [result, hlinks, htruncated]
  rfl

/-! ## What every turn keeps -/

/-- What is true of a walk from a value, however far it has come. -/
structure Inv (g : Graph) (d : Depth) (v : Value) (w : Walk) : Prop where
  path : g.CausePath v w.links
  next_eq : w.next = g.causeAt w.links.length v
  present : ∀ x ∈ w.links, x.isMissing = false
  mem_seen : ∀ id, id ∈ w.seen ↔ Value.object id ∈ w.links
  objects : w.next.isMissing = false → ∀ x ∈ w.links, ∃ id, x = .object id
  nodup : w.links.Nodup
  admitted : d.Admits w.links.length

theorem inv_start (g : Graph) (d : Depth) (v : Value) : Inv g d v (start v) where
  path := .nil v
  next_eq := rfl
  present := by simp [start]
  mem_seen := by simp [start]
  objects := by simp [start]
  nodup := List.nodup_nil
  admitted := by cases d with
    | atMost limit => exact Nat.zero_le limit
    | unlimited => trivial

theorem Inv.next_notMem (h : Inv g d v w) (hgo : w.GoesOn d) : w.next ∉ w.links := by
  intro hmem
  -- a link is an object if there is something behind it, so it has been seen
  obtain ⟨id, hid⟩ := h.objects hgo.present _ hmem
  exact hgo.unseen id hid ((h.mem_seen id).2 (hid ▸ hmem))

theorem Inv.step (h : Inv g d v w) (hstep : Step g d w w') : Inv g d v w' := by
  obtain ⟨hgo, rfl⟩ := hstep
  have hlast : g.causeAt (w.links.length + 1) v = g.causeOf w.next := by
    rw [Graph.causeAt_succ, h.next_eq]
  constructor
  case path =>
    refine h.path.append ?_
    rw [← h.next_eq]
    exact .cons (.nil _)
  case next_eq => simpa [advance] using hlast.symm
  case present =>
    rw [advance, List.forall_mem_append, List.forall_mem_singleton]
    exact ⟨h.present, hgo.present⟩
  case mem_seen =>
    intro id
    cases hnext : w.next <;> simp [advance, hnext, Value.id?, h.mem_seen id, or_comm]
  case objects =>
    intro hcause
    obtain ⟨id, hnext, -⟩ := Graph.exists_id_of_causeOf hcause
    rw [advance, List.forall_mem_append, List.forall_mem_singleton]
    exact ⟨h.objects hgo.present, id, hnext⟩
  case nodup =>
    rw [advance, List.nodup_append]
    refine ⟨h.nodup, List.nodup_singleton _, fun x hx y hy heq => ?_⟩
    rw [List.mem_singleton] at hy
    exact h.next_notMem hgo (hy ▸ heq ▸ hx)
  case admitted => simpa [advance] using hgo.admitted

theorem inv_run (h : Relation.ReflTransGen (Step g d) (start v) w) : Inv g d v w := by
  induction h with
  | refl => exact inv_start g d v
  | tail _ hstep ih => exact ih.step hstep

/-! ## Two depths -/

theorem GoesOn.mono (hle : d ≤ D) (h : w.GoesOn d) : w.GoesOn D :=
  ⟨h.present, hle _ h.admitted, h.unseen⟩

/-- The loop only adds links behind those that it took. -/
theorem links_isPrefix (h : Relation.ReflTransGen (Step g d) w w') : w.links <+: w'.links := by
  induction h with
  | refl => exact List.prefix_rfl
  | tail _ hstep ih =>
    obtain ⟨-, rfl⟩ := hstep
    exact ih.trans (List.prefix_append _ _)

/-- **A smaller depth takes the first links that a larger one takes.** -/
theorem links_eq_firstOf (hle : d ≤ D) (h : Ends g d v w) (hD : Ends g D v w') :
    w.links = d.firstOf w'.links := by
  have hadmitted := (inv_run h.run).admitted
  have hrun : Relation.ReflTransGen (Step g D) (start v) w :=
    Relation.ReflTransGen.mono (fun _ _ hstep => ⟨hstep.1.mono hle, hstep.2⟩) _ _ h.run
  -- the larger loop comes through the state where the smaller one ends
  have hbehind : Relation.ReflTransGen (Step g D) w w' := by
    rcases Relation.ReflTransGen.total_of_right_unique (step_rightUnique g D) hrun hD.run with hbehind | hbefore
    · exact hbehind
    · rcases Relation.ReflTransGen.cases_head hbefore with rfl | ⟨_, hstep, -⟩
      · exact .refl
      · exact absurd hstep.1 hD.stop
  by_cases hnext : d.Admits (w.links.length + 1)
  · rcases Relation.ReflTransGen.cases_head hbehind with rfl | ⟨_, hstep, -⟩
    · exact (Depth.firstOf_of_admits hadmitted).symm
    · exact absurd ⟨hstep.1.present, hnext, hstep.1.unseen⟩ h.stop
  · obtain ⟨rest, hrest⟩ := links_isPrefix hbehind
    rw [← hrest, Depth.firstOf_append hadmitted hnext]

end Walk

/-- **What a walk returns.** Along any causes and at any depth, the loop ends and the walk returns what it ends with.
The links begin with the value, if it is something and the depth admits a link; each of them is the cause of the one
before; none is met twice, and none is nothing. The chain is truncated exactly if there is something that would come
next. At a smaller depth the links are the first of these. -/
theorem walk_characterised (g : Graph) (d : Depth) (v : Value) :
    WellFounded (fun w' w => Walk.Step g d w w') ∧
    (∃ w, Relation.ReflTransGen (Walk.Step g d) (.start v) w ∧ ¬ w.GoesOn d ∧ g.walk d v = w.result) ∧
    ((g.walk d v).links.head? = some v ↔ v.isMissing = false ∧ d.Admits 1) ∧
    g.CausePath v (g.walk d v).links ∧
    (g.walk d v).links.Nodup ∧
    (∀ x ∈ (g.walk d v).links, x.isMissing = false) ∧
    d.Admits (g.walk d v).links.length ∧
    ((g.walk d v).truncated = true ↔
      (((g.walk d v).links.getLast?.map g.causeOf).getD v).isMissing = false) ∧
    ∀ d' ≤ d, (g.walk d' v).links = d'.firstOf (g.walk d v).links := by
  obtain ⟨w, hends, hwalk⟩ := Walk.exists_ends g d v
  have hinv := Walk.inv_run hends.run
  have hhead : w.links.head? = some v ↔ v.isMissing = false ∧ d.Admits 1 := by
    rcases Relation.ReflTransGen.cases_head hends.run with rfl | ⟨_, ⟨hgo, rfl⟩, hrest⟩
    · have hstop : ¬ (v.isMissing = false ∧ d.Admits 1) := fun h => hends.stop ⟨h.1, h.2, by simp [Walk.start]⟩
      simpa [Walk.start] using hstop
    · have hfirst : w.links.head? = some v := by
        obtain ⟨rest, hrest⟩ := Walk.links_isPrefix hrest
        simp [← hrest, Walk.advance, Walk.start]
      exact iff_of_true hfirst ⟨hgo.present, hgo.admitted⟩
  have hnext : w.next = (w.links.getLast?.map g.causeOf).getD v := by
    rw [hinv.next_eq, hinv.path.causeAt_length]
  refine ⟨Walk.wellFounded_step g d, ⟨w, hends.run, hends.stop, hwalk⟩, ?_⟩
  rw [hwalk]
  refine ⟨hhead, hinv.path, hinv.nodup, hinv.present, hinv.admitted, ?_, ?_⟩
  · simp [Walk.result, ← hnext]
  · intro d' hle
    obtain ⟨w', hends', hwalk'⟩ := Walk.exists_ends g d' v
    rw [hwalk']
    exact Walk.links_eq_firstOf hle hends' hends

/-- Three records: each of the first two is the cause of the other one, and the third one has a text as its cause. -/
def causesInCircles : Graph :=
  ⟨[.record [("cause", .object 1)], .record [("cause", .object 0)], .record [("cause", .text "late")]]⟩

/-- Without a limit the walk stops where the circle closes, and a walk of one link returns the first of its links. A
text is a link as well, the last one. -/
theorem walk_characterised_circle :
    causesInCircles.walk .unlimited (.object 0) = ⟨[.object 0, .object 1], true⟩ ∧
    Depth.atMost 1 ≤ .unlimited ∧
    (causesInCircles.walk (.atMost 1) (.object 0)).links =
      (Depth.atMost 1).firstOf (causesInCircles.walk .unlimited (.object 0)).links ∧
    (causesInCircles.walk (.atMost 1) (.object 0)).links = [.object 0] ∧
    causesInCircles.walk .unlimited (.object 2) = ⟨[.object 2, .text "late"], false⟩ ∧
    (∀ x ∈ (causesInCircles.walk .unlimited (.object 0)).links, x.isMissing = false) := by
  have hle : Depth.atMost 1 ≤ .unlimited := Depth.le_unlimited _
  obtain ⟨-, -, -, -, -, hpresent, -, -, hfirst⟩ := walk_characterised causesInCircles .unlimited (.object 0)
  exact ⟨by decide, hle, hfirst _ hle, by decide, by decide, hpresent⟩

end FailureWire
