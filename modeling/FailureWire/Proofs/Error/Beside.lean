import FailureWire.Proofs.Error.Walk
import FailureWire.Proofs.Graph.Carried

/-!
# Walks side by side

A value of a larger graph may stand in for a value of a closed one at the head of its chain of causes:
`g.StandsIn g' v v'` says that it has the same cause, and that the chain comes back to the one exactly if it comes
to the other one. Then two walks go side by side. They have seen the same objects but for the first one, so each
goes on exactly if the other one does (`Walk.goesOn_iff_of_beside`), and they end with the same chain behind their
heads (`StandsIn.walk_cases`), whatever circles the chain has and wherever the depth cuts it.
-/

namespace FailureWire

namespace Graph

/-- An object of a larger graph stands in for one of a closed graph at the head of its chain of causes. -/
structure StandsIn (g g' : Graph) (v v' : Value) : Prop where
  closed : g.Closed
  le : g ≤ g'
  object : ∃ id, v = .object id
  object' : ∃ id, v' = .object id
  cause : g'.causeOf v' = g.causeOf v
  later : ∀ n, g.causeAt (n + 1) v = v ↔ g.causeAt (n + 1) v = v'

variable {g g' : Graph} {v v' : Value}

theorem Closed.holds_causeAt (hg : g.Closed) (n : Nat) (v : Value) : g.Holds (g.causeAt (n + 1) v) := by
  rw [causeAt_succ]
  exact hg.holds_read _ "cause"

end Graph

namespace Walk

open Relation

variable {g g' : Graph} {d : Depth} {v v' : Value} {w w' : Walk}

/-- Two walks have taken the same links but for their heads, and go on with the same value. -/
inductive Beside (v v' : Value) : Walk → Walk → Prop
  | start : Beside v v' (start v) (start v')
  | after (links : List Value) (seen seen' : List ObjectId) (next : Value) :
    Beside v v' ⟨v :: links, seen, next⟩ ⟨v' :: links, seen', next⟩

/-- **Side by side, each walk goes on exactly if the other one does.** -/
theorem goesOn_iff_of_beside (hs : g.StandsIn g' v v') (hw : Inv g d v w) (hw' : Inv g' d v' w')
    (hb : Beside v v' w w') : w.GoesOn d ↔ w'.GoesOn d := by
  cases hb with
  | start =>
    obtain ⟨id, rfl⟩ := hs.object
    obtain ⟨id', rfl⟩ := hs.object'
    constructor
    · intro hgo
      exact ⟨rfl, hgo.admitted, by simp [start]⟩
    · intro hgo
      exact ⟨rfl, hgo.admitted, by simp [start]⟩
  | after links seen seen' next =>
    -- what comes next is neither head, or both
    have hhead : next = v ↔ next = v' := by
      rw [show next = g.causeAt (links.length + 1) v from hw.next_eq]
      exact hs.later links.length
    have hseen (id : ObjectId) (hid : next = .object id) : id ∈ seen ↔ id ∈ seen' := by
      rw [hw.mem_seen id, hw'.mem_seen id, List.mem_cons, List.mem_cons, ← hid, hhead]
    constructor
    · intro hgo
      exact ⟨hgo.present, hgo.admitted, fun id hid => (hseen id hid).not.1 (hgo.unseen id hid)⟩
    · intro hgo
      exact ⟨hgo.present, hgo.admitted, fun id hid => (hseen id hid).not.2 (hgo.unseen id hid)⟩

/-- One more link keeps two walks side by side. -/
theorem Beside.advance (hs : g.StandsIn g' v v') (hw : Inv g d v w) (hb : Beside v v' w w') :
    Beside v v' (w.advance g) (w'.advance g') := by
  cases hb with
  | start =>
    show Beside v v' ⟨[v], v.id?.toList ++ [], g.causeOf v⟩ ⟨[v'], v'.id?.toList ++ [], g'.causeOf v'⟩
    rw [hs.cause]
    exact .after [] _ _ _
  | after links seen seen' next =>
    have hnext : g.Holds next := by
      rw [show next = g.causeAt (links.length + 1) v from hw.next_eq]
      exact hs.closed.holds_causeAt _ v
    have hcause : g'.causeOf next = g.causeOf next := Graph.read_eq_of_le hs.le hnext "cause"
    show Beside v v' ⟨v :: (links ++ [next]), next.id?.toList ++ seen, g.causeOf next⟩
      ⟨v' :: (links ++ [next]), next.id?.toList ++ seen', g'.causeOf next⟩
    rw [hcause]
    exact .after (links ++ [next]) _ _ _

/-- Wherever a walk comes, the other one comes beside it. -/
theorem exists_beside (hs : g.StandsIn g' v v') (h : ReflTransGen (Step g d) (start v) w) :
    ∃ w', ReflTransGen (Step g' d) (start v') w' ∧ Beside v v' w w' := by
  induction h with
  | refl => exact ⟨start v', .refl, .start⟩
  | @tail w _ hrun hstep ih =>
    obtain ⟨w', hrun', hb⟩ := ih
    obtain ⟨hgo, rfl⟩ := hstep
    have hgo' := (goesOn_iff_of_beside hs (inv_run hrun) (inv_run hrun') hb).1 hgo
    exact ⟨w'.advance g', hrun'.tail ⟨hgo', rfl⟩, hb.advance hs (inv_run hrun)⟩

/-- A loop ends in one state only. -/
theorem Ends.unique (h : Ends g d v w) (h' : Ends g d v w') : w = w' := by
  have hstop {w w' : Walk} (hstop : ¬ w.GoesOn d) (hrun : ReflTransGen (Step g d) w w') : w = w' := by
    rcases ReflTransGen.cases_head hrun with rfl | ⟨_, hstep, -⟩
    · rfl
    · exact absurd hstep.1 hstop
  rcases ReflTransGen.total_of_right_unique (step_rightUnique g d) h.run h'.run with hrun | hrun
  · exact hstop h.stop hrun
  · exact (hstop h'.stop hrun).symm

/-- **Both walks end, side by side.** -/
theorem exists_results_beside (hs : g.StandsIn g' v v') (d : Depth) :
    ∃ w w', g.walk d v = w.result ∧ g'.walk d v' = w'.result ∧ Beside v v' w w' := by
  obtain ⟨w, hends, hwalk⟩ := exists_ends g d v
  obtain ⟨w', hrun', hb⟩ := exists_beside hs hends.run
  have hstop' : ¬ w'.GoesOn d := fun hgo =>
    hends.stop ((goesOn_iff_of_beside hs (inv_run hends.run) (inv_run hrun') hb).2 hgo)
  obtain ⟨w'', hends'', hwalk''⟩ := exists_ends g' d v'
  obtain rfl := Ends.unique hends'' ⟨hrun', hstop'⟩
  exact ⟨w, w'', hwalk, hwalk'', hb⟩

end Walk

namespace Graph

variable {g g' : Graph} {v v' : Value}

/-- **What stands in for a value has the same chain behind it**, cut at the same place. -/
theorem StandsIn.walk_cases (hs : g.StandsIn g' v v') (d : Depth) :
    (g.walk d v = ⟨[], true⟩ ∧ g'.walk d v' = ⟨[], true⟩) ∨
      ∃ links cut, g.walk d v = ⟨v :: links, cut⟩ ∧ g'.walk d v' = ⟨v' :: links, cut⟩ ∧ ∀ x ∈ links, g.Holds x := by
  obtain ⟨w, w', hwalk, hwalk', hb⟩ := Walk.exists_results_beside hs d
  cases hb with
  | start =>
    obtain ⟨id, rfl⟩ := hs.object
    obtain ⟨id', rfl⟩ := hs.object'
    exact .inl ⟨hwalk, hwalk'⟩
  | after links seen seen' next =>
    refine .inr ⟨links, _, hwalk, hwalk', fun x hx => ?_⟩
    -- the links are met along causes
    have hpath := g.causePath_walk d v
    rw [hwalk] at hpath
    obtain ⟨i, hi⟩ := List.getElem?_of_mem hx
    have hlink : (v :: links)[i + 1]? = some x := hi
    rw [hpath.getElem? hlink]
    exact hs.closed.holds_causeAt i v

end Graph
end FailureWire
