import FailureWire.Conversion.Receive
import FailureWire.Proofs.Log.Outcome
import FailureWire.Proofs.Graph.Alike
import Mathlib.Data.List.Nodup
import Mathlib.Data.List.Perm.Subperm

/-!
# Finite chains of causes

`g.CauseChain v vs` says that `vs` are the values met from `v` along causes until there is nothing more.
A value with such a chain is not part of a cycle: no value is met twice (`CauseChain.nodup`), and there
are at most as many values as the graph has objects, and one more.

Both walks follow such a chain to the end or to their limit (`walk_of_causeChain`,
`wireWalk_of_causeChain`). Of a walk along any other values it is still true that its links are a
`g.CausePath`: each of them is the cause of the one before it.
-/

namespace FailureWire

/-- A walk of this depth may take so many links. -/
def Depth.Admits : Depth → Nat → Prop
  | .atMost limit, n => n ≤ limit
  | .unlimited, _ => True

namespace Graph

/-- The value that so many steps along causes lead to. -/
def causeAt (g : Graph) : Nat → Value → Value
  | 0, v => v
  | i + 1, v => g.causeAt i (g.causeOf v)

/-- The values that are met along causes, one after the other. -/
inductive CausePath (g : Graph) : Value → List Value → Prop
  | nil (v : Value) : g.CausePath v []
  | cons {v : Value} {vs : List Value} : g.CausePath (g.causeOf v) vs → g.CausePath v (v :: vs)

/-- The values that are met along causes until there is nothing more. -/
inductive CauseChain (g : Graph) : Value → List Value → Prop
  | done {v : Value} : v.isMissing = true → g.CauseChain v []
  | link {v : Value} {vs : List Value} :
    v.isMissing = false → g.CauseChain (g.causeOf v) vs → g.CauseChain v (v :: vs)

section
variable {g g' : Graph} {v w : Value} {vs ws : List Value}

theorem CausePath.getElem? (h : g.CausePath v vs) {i : Nat} {x : Value} (hx : vs[i]? = some x) :
    x = g.causeAt i v := by
  induction h generalizing i with
  | nil v => simp at hx
  | cons _ ih =>
    cases i with
    | zero => exact (Option.some.inj hx).symm
    | succ i => exact ih (by simpa using hx)

theorem CauseChain.path (h : g.CauseChain v vs) : g.CausePath v vs := by
  induction h with
  | done _ => exact .nil _
  | link _ _ ih => exact .cons ih

theorem causeAt_succ (g : Graph) : ∀ (n : Nat) (v : Value), g.causeAt (n + 1) v = g.causeOf (g.causeAt n v)
  | 0, _ => rfl
  | n + 1, v => causeAt_succ g n (g.causeOf v)

/-- What comes behind a way is the cause of its last value. -/
theorem CausePath.causeAt_length (h : g.CausePath v vs) :
    g.causeAt vs.length v = (vs.getLast?.map g.causeOf).getD v := by
  induction h with
  | nil v => rfl
  | @cons v vs _ ih =>
    rw [List.length_cons, causeAt, ih, List.getLast?_cons]
    cases vs.getLast? <;> rfl

theorem exists_id_of_causeOf (h : (g.causeOf v).isMissing = false) : ∃ id, v = .object id ∧ id < g.size := by
  cases hv : g.objectOf? v with
  | none => simp [causeOf, read, Graph.get?, hv, Value.ofOption, Value.isMissing] at h
  | some n =>
    obtain ⟨id, rfl, -⟩ := objectOf?_eq_some.1 hv
    exact ⟨id, rfl, holds_of_objectOf? hv id rfl⟩

/-! ## What is met -/

/-- Where the way ends is settled by where it begins. -/
theorem CauseChain.unique (h : g.CauseChain v vs) (h' : g.CauseChain v ws) : vs = ws := by
  induction h generalizing ws with
  | done hv =>
    cases h' with
    | done _ => rfl
    | link hv' _ => rw [hv] at hv'; cases hv'
  | link hv _ ih =>
    cases h' with
    | done hv' => rw [hv] at hv'; cases hv'
    | link _ hrest => rw [ih hrest]

theorem CauseChain.of_append : ∀ {before after : List Value} {v : Value},
    g.CauseChain v (before ++ w :: after) → g.CauseChain w (w :: after)
  | [], _, _, h => by
    cases h with
    | link hv hrest => exact .link hv hrest
  | _ :: before, _, _, h => by
    cases h with
    | link _ hrest => exact hrest.of_append

theorem CauseChain.head (h : g.CauseChain v (w :: vs)) : v = w := by
  cases h
  rfl

theorem CauseChain.tail (h : g.CauseChain v (w :: vs)) : g.CauseChain (g.causeOf w) vs := by
  cases h with
  | link _ hrest => exact hrest

theorem CauseChain.isMissing_of_mem (h : g.CauseChain v vs) : ∀ x ∈ vs, x.isMissing = false := by
  induction h with
  | done _ => simp
  | link hv _ ih => simpa [hv] using ih

/-- **No value is met twice.** -/
theorem CauseChain.nodup (h : g.CauseChain v vs) : vs.Nodup := by
  induction h with
  | done _ => exact List.nodup_nil
  | @link v vs hv hrest ih =>
    refine List.nodup_cons.2 ⟨fun hmem => ?_, ih⟩
    -- met again, the value would have a chain that is shorter than its own
    obtain ⟨before, after, rfl⟩ := List.append_of_mem hmem
    have heq := (CauseChain.link hv hrest).unique hrest.of_append
    have hlength := congrArg List.length heq
    simp at hlength
    omega

theorem CauseChain.mem_dropLast (h : g.CauseChain v vs) {x : Value} (hx : x ∈ vs.dropLast) :
    ∃ id, x = .object id ∧ id < g.size := by
  induction h with
  | done _ => simp at hx
  | @link v vs _ hrest ih =>
    cases hrest with
    | done _ => simp at hx
    | @link _ rest hc _ =>
      rw [List.dropLast_cons_cons, List.mem_cons] at hx
      rcases hx with rfl | hx
      · -- what has a cause has properties
        cases hv : g.objectOf? x with
        | none => simp [causeOf, read, Graph.get?, hv, Value.ofOption, Value.isMissing] at hc
        | some n =>
          obtain ⟨id, rfl, -⟩ := objectOf?_eq_some.1 hv
          exact ⟨id, rfl, holds_of_objectOf? hv id rfl⟩
      · exact ih hx

theorem CauseChain.length_le (h : g.CauseChain v vs) : vs.length ≤ g.size + 1 := by
  have hids : (vs.dropLast.filterMap Value.id?).length ≤ g.size := by
    have hnodup : (vs.dropLast.filterMap Value.id?).Nodup := by
      refine List.Nodup.filterMap ?_ (h.nodup.sublist (List.dropLast_sublist vs))
      intro a b id ha hb
      cases a <;> cases b <;> simp_all [Value.id?]
    have hsub : vs.dropLast.filterMap Value.id? ⊆ List.range g.size := by
      intro id hid
      obtain ⟨x, hx, hxid⟩ := List.mem_filterMap.1 hid
      obtain ⟨id', rfl, hlt⟩ := h.mem_dropLast hx
      cases hxid
      exact List.mem_range.2 hlt
    simpa using (List.subperm_of_subset hnodup hsub).length_le
  have hall : (vs.dropLast.filterMap Value.id?).length = vs.dropLast.length := by
    rw [List.length_filterMap_eq_countP, List.countP_eq_length]
    intro x hx
    obtain ⟨id, rfl, -⟩ := h.mem_dropLast hx
    rfl
  rw [hall, List.length_dropLast] at hids
  omega

/-- In a larger graph a depth allows for no fewer links. -/
theorem linksIn_mono (hle : g ≤ g') (d : Depth) : d.linksIn g ≤ d.linksIn g' := by
  cases d with
  | atMost limit => exact Nat.le_refl limit
  | unlimited => exact Nat.succ_le_succ (size_le hle)

theorem CauseChain.le_linksIn (h : g.CauseChain v vs) {d : Depth} {n : Nat} (hd : d.Admits n)
    (hn : n ≤ vs.length) : n ≤ d.linksIn g := by
  cases d with
  | atMost limit => exact hd
  | unlimited => exact Nat.le_trans hn h.length_le

/-- A chain of values of a graph is a chain in every larger graph. -/
theorem CauseChain.mono (hle : g ≤ g') (h : g.CauseChain v vs) (hheld : ∀ x ∈ vs, g.Holds x) :
    g'.CauseChain v vs := by
  induction h with
  | done hv => exact .done hv
  | @link v vs hv _ ih =>
    refine .link hv ?_
    rw [causeOf, read_eq_of_le hle (hheld v (List.mem_cons_self ..))]
    exact ih fun x hx => hheld x (List.mem_cons_of_mem v hx)

/-- Steps along causes lead to the same values in every larger graph. -/
theorem causeAt_eq_of_le (hle : g ≤ g') : ∀ {n : Nat} {v : Value}, (∀ i < n, g.Holds (g.causeAt i v)) →
    g'.causeAt n v = g.causeAt n v
  | 0, _, _ => rfl
  | n + 1, v, h => by
    have hcause : g'.causeOf v = g.causeOf v := read_eq_of_le hle (h 0 (Nat.zero_lt_succ n)) "cause"
    rw [causeAt, causeAt, hcause]
    exact causeAt_eq_of_le hle fun i hi => h (i + 1) (Nat.succ_lt_succ hi)

theorem causeOf_of_isMissing (hv : v.isMissing = true) : g.causeOf v = .undefined := by
  cases v <;> first | rfl | cases hv

theorem isMissing_causeAt (hv : v.isMissing = true) (i : Nat) : (g.causeAt i v).isMissing = true := by
  induction i generalizing v with
  | zero => exact hv
  | succ i ih =>
    rw [causeAt, causeOf_of_isMissing hv]
    exact ih rfl

theorem CauseChain.getElem?_causeAt (h : g.CauseChain v vs) {i : Nat}
    (hi : (g.causeAt i v).isMissing = false) : vs[i]? = some (g.causeAt i v) := by
  induction h generalizing i with
  | done hv =>
    rw [isMissing_causeAt hv] at hi
    cases hi
  | link _ _ ih =>
    cases i with
    | zero => rfl
    | succ i => exact ih hi

/-- A way that leads to a finite chain is part of one. -/
theorem CausePath.chain : ∀ {ws : List Value} {v : Value}, g.CausePath v ws →
    (∀ x ∈ ws, x.isMissing = false) → g.CauseChain (g.causeAt ws.length v) vs → g.CauseChain v (ws ++ vs)
  | [], _, _, _, hend => hend
  | x :: ws, _, h, hws, hend => by
    cases h with
    | cons h =>
      exact .link (hws x (List.mem_cons_self ..))
        (h.chain (fun y hy => hws y (List.mem_cons_of_mem x hy)) hend)

/-- A chain goes on behind the first values of it as the chain of what they lead to. -/
theorem CausePath.chain_append_iff (h : g.CausePath v ws) (hws : ∀ x ∈ ws, x.isMissing = false) :
    g.CauseChain v (ws ++ vs) ↔ g.CauseChain (g.causeAt ws.length v) vs := by
  induction h with
  | nil v => rfl
  | @cons v ws _ ih =>
    rw [List.forall_mem_cons] at hws
    rw [List.cons_append, List.length_cons, causeAt, ← ih hws.2]
    constructor
    · intro hchain
      exact hchain.tail
    · intro hrest
      exact .link hws.1 hrest

theorem CausePath.shorten (h : g.CausePath v vs) (hws : ws <+: vs) : g.CausePath v ws := by
  induction h generalizing ws with
  | nil v => exact List.prefix_nil.1 hws ▸ .nil v
  | cons _ ih =>
    rcases List.prefix_cons_iff.1 hws with rfl | ⟨rest, rfl, hrest⟩
    · exact .nil _
    · exact .cons (ih hrest)

/-- What comes next on a way comes last. -/
theorem CausePath.append : ∀ {vs : List Value} {v : Value}, g.CausePath v vs →
    g.CausePath (g.causeAt vs.length v) ws → g.CausePath v (vs ++ ws)
  | [], _, _, hws => hws
  | _ :: _, _, h, hws => by
    cases h with
    | cons h => exact .cons (h.append hws)

/-! ## Walks along a chain -/

theorem walkFrom_of_causeChain (h : g.CauseChain v vs) {seen : List ObjectId}
    (hseen : ∀ id ∈ seen, Value.object id ∉ vs) (left : Nat) :
    g.walkFrom left seen v = ⟨vs.take left, decide (left < vs.length)⟩ := by
  induction h generalizing seen left with
  | done hv => cases left <;> simp [walkFrom, hv]
  | @link v vs hv hrest ih =>
    have hnodup := (CauseChain.link hv hrest).nodup
    cases left with
    | zero => simp [walkFrom, hv]
    | succ left =>
      have hcons (c : Chain) (hc : c = ⟨vs.take left, decide (left < vs.length)⟩) :
          c.cons v = ⟨(v :: vs).take (left + 1), decide (left + 1 < (v :: vs).length)⟩ := by
        simp [hc, Chain.cons]
      rw [walkFrom, if_neg (by simp [hv])]
      cases hid : v.id? with
      | none =>
        refine hcons _ (ih (fun id hmem hin => ?_) left)
        exact hseen id hmem (List.mem_cons_of_mem v hin)
      | some id =>
        obtain rfl : v = .object id := by cases v <;> simp_all [Value.id?]
        have hnew : seen.contains id = false := by
          simpa using fun hmem => hseen id hmem (List.mem_cons_self ..)
        simp only [hnew]
        refine hcons _ (ih (fun other hmem hin => ?_) left)
        rcases List.mem_cons.1 hmem with rfl | hmem
        · exact (List.nodup_cons.1 hnodup).1 hin
        · exact hseen other hmem (List.mem_cons_of_mem _ hin)

/-- **A walk follows a finite chain to its end or to the limit of links.** -/
theorem walk_of_causeChain (h : g.CauseChain v vs) (d : Depth) :
    g.walk d v = ⟨vs.take (d.linksIn g), decide (d.linksIn g < vs.length)⟩ :=
  walkFrom_of_causeChain h (by simp) _

theorem wireWalkFrom_of_causeChain (h : g.CauseChain v vs) (hobjects : ∀ x ∈ vs, x.id?.isSome)
    {seen : List ObjectId} (hseen : ∀ id ∈ seen, Value.object id ∉ vs) (left : Nat) :
    g.wireWalkFrom left seen v = .ok ⟨vs.take left, decide (left < vs.length)⟩ := by
  induction h generalizing seen left with
  | @done v hv =>
    have hfalse : v.isTruthy = false := by cases v <;> simp_all [Value.isMissing, Value.isTruthy]
    cases left <;> simp [wireWalkFrom, hfalse]
  | @link v vs hv hrest ih =>
    have hnodup := (CauseChain.link hv hrest).nodup
    obtain ⟨id, hid⟩ := Option.isSome_iff_exists.1 (hobjects v (List.mem_cons_self ..))
    obtain rfl : v = .object id := by cases v <;> simp_all [Value.id?]
    cases left with
    | zero => simp [wireWalkFrom, Value.isTruthy]
    | succ left =>
      have hnew : seen.contains id = false := by
        simpa using fun hmem => hseen id hmem (List.mem_cons_self ..)
      have hunseen : ∀ other ∈ id :: seen, Value.object other ∉ vs := by
        intro other hmem hin
        rcases List.mem_cons.1 hmem with rfl | hmem
        · exact (List.nodup_cons.1 hnodup).1 hin
        · exact hseen other hmem (List.mem_cons_of_mem _ hin)
      have hrest := ih (fun x hx => hobjects x (List.mem_cons_of_mem _ hx)) hunseen left
      rw [wireWalkFrom, if_pos (show (Value.object id).isTruthy = true from rfl)]
      simp only [hid, hnew, hrest]
      simp [bind, Except.bind, pure, Except.pure, Chain.cons]

/-- **A walk along wire failures follows a finite chain of objects to its end or to the limit.** -/
theorem wireWalk_of_causeChain (h : g.CauseChain v vs) (hobjects : ∀ x ∈ vs, x.id?.isSome)
    (d : Depth) :
    g.wireWalk d v = .ok ⟨vs.take (d.linksIn g), decide (d.linksIn g < vs.length)⟩ :=
  wireWalkFrom_of_causeChain h hobjects (by simp) _

/-! ## Walks along any values -/

theorem causePath_walkFrom (left : Nat) (seen : List ObjectId) (v : Value) :
    g.CausePath v (g.walkFrom left seen v).links := by
  induction left generalizing seen v with
  | zero => exact .nil v
  | succ left ih =>
    rw [walkFrom]
    split
    · exact .nil v
    · split
      · split
        · exact .nil v
        · exact .cons (ih _ _)
      · exact .cons (ih _ _)

theorem isMissing_of_mem_walkFrom (left : Nat) (seen : List ObjectId) (v : Value) :
    ∀ x ∈ (g.walkFrom left seen v).links, x.isMissing = false := by
  induction left generalizing seen v with
  | zero => simp [walkFrom]
  | succ left ih =>
    rw [walkFrom]
    split
    · simp
    next hv =>
      split
      · split
        · simp
        · simpa [Chain.cons, hv] using ih _ _
      · simpa [Chain.cons, hv] using ih _ _

theorem causePath_walk (d : Depth) (v : Value) : g.CausePath v (g.walk d v).links :=
  causePath_walkFrom _ _ v

theorem causePath_wireWalkFrom {c : Chain} : ∀ {left : Nat} {seen : List ObjectId} {v : Value},
    g.wireWalkFrom left seen v = .ok c → g.CausePath v c.links
  | 0, _, v, h => by
    cases h
    exact .nil v
  | left + 1, seen, v, h => by
    rw [wireWalkFrom] at h
    split at h
    · split at h
      · split at h
        · cases h
          exact .nil v
        · obtain ⟨rest, hrest, hc⟩ := FailureWire.Except.bind_eq_ok.1 h
          cases hc
          exact .cons (causePath_wireWalkFrom hrest)
      · cases h
    · cases h
      exact .nil v

theorem causePath_wireWalk {c : Chain} {d : Depth} (h : g.wireWalk d v = .ok c) :
    g.CausePath v c.links :=
  causePath_wireWalkFrom h

end

end Graph
end FailureWire
