import FailureWire.Value.Graph

/-!
# Chains of causes

A thrown value leads to a chain: the value, its cause, the cause of its cause, and so on. The walk along
it stops at nothing (`undefined` or null), at an object that it has seen, and at a limit of links; in
the last two cases the chain is *truncated*.

Without a limit the walk ends as well. A graph of `n` objects has chains of at most `n + 1` links: each
object once, and a primitive value at the end.

The walk is `walkErrorChain`, with `getCause` for a step and `DEFAULT_MAX_CAUSE_DEPTH` for the limit that is
not given.
-/

namespace FailureWire

/-- How many links a walk may take. -/
inductive Depth where
  | atMost (links : Nat)
  | unlimited
deriving DecidableEq, Repr

namespace Depth

/-- The depth that a number stands for: links are taken while their number is below it. -/
def ofNumber (n : Number) : Depth :=
  match n with
  | .nan => .unlimited
  | .infinite s => if s then .atMost 0 else .unlimited
  | .finite s _ => if s then .atMost 0 else .atMost (-((-n.value).floor)).toNat

/-- The depth where none is given. -/
def default : Depth := .atMost 50

/-- A number of links that a walk in a graph cannot tell from this depth. -/
def linksIn (g : Graph) : Depth → Nat
  | .atMost n => n
  | .unlimited => g.size + 1

end Depth

/-- The links of a chain, the outermost one first, and whether the chain goes on behind them. -/
structure Chain where
  links : List Value
  truncated : Bool
deriving DecidableEq, Repr

namespace Chain

def cons (v : Value) (c : Chain) : Chain := { c with links := v :: c.links }

end Chain

namespace Graph

def causeOf (g : Graph) (v : Value) : Value := g.read v "cause"

/-- Walks on from a value with so many links left, past the objects seen so far. -/
def walkFrom (g : Graph) : Nat → List ObjectId → Value → Chain
  | 0, _, v => ⟨[], !v.isMissing⟩
  | left + 1, seen, v =>
    if v.isMissing then ⟨[], false⟩
    else
      match v.id? with
      | some id =>
        if seen.contains id then ⟨[], true⟩
        else (g.walkFrom left (id :: seen) (g.causeOf v)).cons v
      | none => (g.walkFrom left seen (g.causeOf v)).cons v

/-- The chain of causes of a value. -/
def walk (g : Graph) (depth : Depth) (v : Value) : Chain := g.walkFrom (depth.linksIn g) [] v

/-! ## Facts -/

theorem length_walkFrom_le (g : Graph) (left : Nat) (seen : List ObjectId) (v : Value) :
    (g.walkFrom left seen v).links.length ≤ left := by
  induction left generalizing seen v with
  | zero => simp [walkFrom]
  | succ left ih =>
    simp only [walkFrom]
    split
    · simp
    · split
      · split
        · simp
        · simpa [Chain.cons] using ih _ _
      · simpa [Chain.cons] using ih _ _

end Graph
end FailureWire
