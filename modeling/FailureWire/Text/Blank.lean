/-!
# Blank characters

The characters that may surround a number written as text: the controls of horizontal and vertical
space, the space separators of Unicode, the two line separators and the byte order mark.

They are what `String.prototype.trim` drops.
-/

namespace FailureWire.Text

/-- Whether a character counts as blank space around a written number. -/
def isBlank (c : Char) : Bool :=
  let n := c.toNat
  (9 ≤ n && n ≤ 13) || n = 0x20 || n = 0xA0 || n = 0x1680 || (0x2000 ≤ n && n ≤ 0x200A) ||
    n = 0x2028 || n = 0x2029 || n = 0x202F || n = 0x205F || n = 0x3000 || n = 0xFEFF

/-- A text without the blank characters at its ends. -/
def trim (s : List Char) : List Char :=
  ((s.dropWhile isBlank).reverse.dropWhile isBlank).reverse

end FailureWire.Text
