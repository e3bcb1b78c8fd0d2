/-!
# UTF-8

Texts as byte strings. `encode` writes a text. `decode` reads any bytes: a leading byte order mark is
dropped, and each maximal part of a sequence that cannot be completed becomes one replacement
character. `decode?` reads well-formed bytes only and keeps a byte order mark.

`encode` is a `TextEncoder`, `decode` a `TextDecoder` without options.
-/

namespace FailureWire

/-- A byte string. -/
abbrev Bytes := List UInt8

namespace Utf8

/-- The character that stands for bytes that are no text. -/
def replacement : Char := '\ufffd'

def encodeChar (c : Char) : Bytes :=
  let n := c.toNat
  let tail (k : Nat) : UInt8 := .ofNat (0x80 + n / k % 0x40)
  if n < 0x80 then [.ofNat n]
  else if n < 0x800 then [.ofNat (0xC0 + n / 0x40), tail 1]
  else if n < 0x10000 then [.ofNat (0xE0 + n / 0x1000), tail 0x40, tail 1]
  else [.ofNat (0xF0 + n / 0x40000), tail 0x1000, tail 0x40, tail 1]

def encode (s : List Char) : Bytes := s.flatMap encodeChar

/-- The shape of a sequence by its first byte: how many bytes follow, the range of the first of
them, and the bits that the first byte contributes. -/
structure Lead where
  following : Nat
  low : Nat
  high : Nat
  bits : Nat

/-- What a first byte of at least `0x80` announces; none when no sequence starts with it. -/
def lead? (b : UInt8) : Option Lead :=
  let n := b.toNat
  if n < 0xC2 then none
  else if n < 0xE0 then some ⟨1, 0x80, 0xBF, n - 0xC0⟩
  else if n < 0xF0 then
    some ⟨2, if n = 0xE0 then 0xA0 else 0x80, if n = 0xED then 0x9F else 0xBF, n - 0xE0⟩
  else if n < 0xF5 then
    some ⟨3, if n = 0xF0 then 0x90 else 0x80, if n = 0xF4 then 0x8F else 0xBF, n - 0xF0⟩
  else none

/-- Where a reader stands: between characters, or inside a sequence that still needs `following`
bytes, the next of them between `low` and `high`. -/
inductive Reading where
  | between
  | inside (lead : Lead)

/-- Reads one byte: the characters that it completes, a broken sequence before it included, and
where the reader stands then. -/
def step (state : Reading) (b : UInt8) : List Char × Reading :=
  let start : List Char × Reading :=
    if b.toNat < 0x80 then ([Char.ofNat b.toNat], .between)
    else match lead? b with
      | some l => ([], .inside l)
      | none => ([replacement], .between)
  match state with
  | .between => start
  | .inside l =>
    if l.low ≤ b.toNat ∧ b.toNat ≤ l.high then
      let bits := l.bits * 0x40 + (b.toNat - 0x80)
      if l.following ≤ 1 then ([Char.ofNat bits], .between)
      else ([], .inside ⟨l.following - 1, 0x80, 0xBF, bits⟩)
    else (replacement :: start.1, start.2)

/-- Reads bytes to their end; a sequence that the end cuts off is one replacement character. -/
def decodeFrom : Reading → Bytes → List Char
  | .between, [] => []
  | .inside _, [] => [replacement]
  | state, b :: bs => (step state b).1 ++ decodeFrom (step state b).2 bs

/-- The text that bytes stand for, with a leading byte order mark dropped. -/
def decode (bs : Bytes) : List Char :=
  match decodeFrom .between bs with
  | '\ufeff' :: s => s
  | s => s

def decode? (bs : Bytes) : Option (List Char) :=
  let s := decodeFrom .between bs
  if encode s = bs then some s else none

end Utf8
end FailureWire
