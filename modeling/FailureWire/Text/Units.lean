import FailureWire.Fault
import FailureWire.Text.Utf8

/-!
# Texts as units of 16 bits

Lengths of texts and positions in them count units of 16 bits: one for each character below 2^16, and
two halves for each other one. A half alone is no character.

Positions are those of `charAt`, the number of units is `length`.
-/

namespace FailureWire.Text

def unitsOfPoint (n : Nat) : List Nat :=
  if n < 0x10000 then [n] else [0xD800 + (n - 0x10000) / 0x400, 0xDC00 + (n - 0x10000) % 0x400]

def units (s : List Char) : List Nat := s.flatMap fun c => unitsOfPoint c.toNat

def isHalf (u : Nat) : Bool := 0xD800 ≤ u && u < 0xE000

/-- The text of one unit; a half is replaced. -/
def ofUnit (u : Nat) : String := if isHalf u then Utf8.replacement.toString else (Char.ofNat u).toString

/-- The text of the unit at a position, if there is one. -/
def unitAt (s : List Char) (i : Nat) : Except Fault (Option String) :=
  match (units s)[i]? with
  | some u => if isHalf u then .error .loneHalf else .ok (some (ofUnit u))
  | none => .ok none

end FailureWire.Text
