import FailureWire.Number.Basic
import FailureWire.Text.Blank

/-!
# Decimal text of numbers

`Number.chars` writes a number with the fewest digits that read back as the same number; of several
such digit strings it takes the one nearest to the number. Whole numbers up to 2^53 are written out;
a point is set while the decimal exponent stays between -7 and 21, and beyond it the exponent is
written.

`Number.ofDecimal` reads the other way, rounding once. `Number.ofText` and `wholeOfText?` read a
number from free text: blank ends are dropped, an empty text is 0, and the prefixes `0x`, `0o` and
`0b` select another base.

So `Number.chars` is `Number.prototype.toString`, `Number.ofText` is `Number(text)`, and `wholeOfText?` is
`BigInt(text)`.
-/

namespace FailureWire.Number

/-! ## Fewest digits -/

/-- The decimal exponent `n` with `10 ^ (n - 1) ≤ v / d < 10 ^ n`. -/
def decimalExponent (v d : Nat) : Int :=
  let guess : Int := ((v.log2 : Int) - d.log2) * 30103 / 100000
  let reaches (e : Int) : Bool := d * Nat.pow 10 e.toNat ≤ v * Nat.pow 10 (-e).toNat
  if reaches (guess + 1) then guess + 2 else if reaches guess then guess + 1
  else if reaches (guess - 1) then guess else guess - 1

/-- The multiple of `10 ^ g` nearest to `v / d` among those between `low / d` and `high / d`, ends
included when `closed`. -/
def gridPoint? (v low high d : Nat) (closed : Bool) (g : Int) : Option Nat :=
  let up := Nat.pow 10 (-g).toNat
  let den := d * Nat.pow 10 g.toNat
  let inside (s : Nat) : Bool :=
    if closed then low * up ≤ s * den && s * den ≤ high * up
    else low * up < s * den && s * den < high * up
  let s := v * up / den
  let below := 2 * (v * up) < (2 * s + 1) * den || (2 * (v * up) = (2 * s + 1) * den && s % 2 = 0)
  match inside s, inside (s + 1) with
  | true, true => some (if below then s else s + 1)
  | true, false => some s
  | false, true => some (s + 1)
  | false, false => none

/-- The fewest digits that read back as the magnitude at an ordinal, with the decimal exponent of
the last digit. -/
def shortestDigits (ordinal : Nat) : Nat × Int :=
  let m := mantissa ordinal
  let unit := Nat.pow 2 (scale ordinal)
  let d := 4 * Nat.pow 2 1074
  let v := 4 * m * unit
  -- below a power of two the neighbour is at half the distance
  let low := (if m = fractions && 0 < scale ordinal then 4 * m - 1 else 4 * m - 2) * unit
  let high := (4 * m + 2) * unit
  let n := decimalExponent v d
  let attempt (k : Nat) : Option (Nat × Int) :=
    (gridPoint? v low high d (m % 2 = 0) (n - k)).map fun s => (s, n - k)
  ((List.range 17).findSome? fun k => attempt (k + 1)).getD (0, 0)

/-! ## Writing -/

/-- Digits whose decimal point stands after the first `n` of them, written as text. -/
def placePoint (digits : List Char) (n : Int) : List Char :=
  let k := digits.length
  if k ≤ n ∧ n ≤ 21 then digits ++ List.replicate (n.toNat - k) '0'
  else if 0 < n ∧ n ≤ 21 then digits.take n.toNat ++ '.' :: digits.drop n.toNat
  else if -6 < n ∧ n ≤ 0 then '0' :: '.' :: (List.replicate (-n).toNat '0' ++ digits)
  else
    let e := n - 1
    let exponent := 'e' :: (if e < 0 then '-' else '+') :: Nat.toDigits 10 e.natAbs
    digits.take 1 ++ (if k = 1 then [] else '.' :: digits.drop 1) ++ exponent

def magnitudeChars (ordinal : Nat) : List Char :=
  let (s, g) := shortestDigits ordinal
  let digits := Nat.toDigits 10 s
  let significant := (digits.reverse.dropWhile (· = '0')).reverse
  placePoint significant (g + digits.length)

/-- The text of an integer. -/
def intChars (n : Int) : List Char :=
  if n < 0 then '-' :: Nat.toDigits 10 n.natAbs else Nat.toDigits 10 n.natAbs

/-- The text of a number; both zeros are `0`. -/
def chars (x : Number) : List Char :=
  match x with
  | .nan => "NaN".toList
  | .infinite s => (if s then "-Infinity" else "Infinity").toList
  | .finite s o =>
    match x.toSafeInt? with
    | some n => intChars n
    | none => if s then '-' :: magnitudeChars o else magnitudeChars o

/-! ## Reading -/

/-- The number nearest to `digits * 10 ^ exponent`, with a sign. The exponent is cut where the
result is certain to be infinite or zero. -/
def ofDecimal (negative : Bool) (digits : List Char) (exponent : Int) : Number :=
  let m := Nat.ofDigitChars 10 digits 0
  let top := (Nat.toDigits 10 m).length + exponent
  if m = 0 ∨ top < -400 then signedZero negative
  else if 400 < top then .infinite negative
  else
    let r : Rat := mkRat (m * Nat.pow 10 exponent.toNat : Nat) (Nat.pow 10 (-exponent).toNat)
    round (if negative then -r else r) negative

/-- The digits at the head of a text, and the rest. -/
def spanDigits (s : List Char) : List Char × List Char :=
  (s.takeWhile Char.isDigit, s.dropWhile Char.isDigit)

/-- An exponent at the head of a text (`e`, a sign, digits); 0 when there is none. -/
def spanExponent (s : List Char) : Option (Int × List Char) :=
  match s with
  | c :: r =>
    if c = 'e' ∨ c = 'E' then
      let (negative, r) := match r with
        | '-' :: r => (true, r)
        | '+' :: r => (false, r)
        | r => (false, r)
      match spanDigits r with
      | ([], _) => none
      | (ds, rest) =>
        let n : Int := Nat.ofDigitChars 10 ds 0
        some (if negative then -n else n, rest)
    else some (0, s)
  | [] => some (0, [])

/-- A decimal without sign that fills a whole text: digits before or after the point may be missing,
not both. -/
def ofUnsignedText? (negative : Bool) (s : List Char) : Option Number :=
  if s = "Infinity".toList then some (.infinite negative)
  else
    let (whole, s) := spanDigits s
    let (part, s) := match s with
      | '.' :: r => spanDigits r
      | r => ([], r)
    if whole.isEmpty && part.isEmpty then none
    else match spanExponent s with
      | some (e, []) => some (ofDecimal negative (whole ++ part) (e - part.length))
      | _ => none

def digitValue? (c : Char) : Option Nat :=
  if c.isDigit then some (c.toNat - '0'.toNat)
  else if c.isLower then some (c.toNat - 'a'.toNat + 10)
  else if c.isUpper then some (c.toNat - 'A'.toNat + 10)
  else none

/-- Digits of a base, at least one, as a natural number. -/
def natOfDigits? (base : Nat) (s : List Char) : Option Nat :=
  if s.isEmpty then none
  else s.foldlM (fun n c => (digitValue? c).bind fun d => if d < base then some (base * n + d) else none) 0

/-- A natural number after a base prefix; none when there is no such prefix. -/
def prefixed? : List Char → Option (Option Nat)
  | '0' :: c :: r =>
    if c = 'x' ∨ c = 'X' then some (natOfDigits? 16 r)
    else if c = 'o' ∨ c = 'O' then some (natOfDigits? 8 r)
    else if c = 'b' ∨ c = 'B' then some (natOfDigits? 2 r)
    else none
  | _ => none

/-- The number that a free text stands for; not-a-number when it stands for none. -/
def ofText (s : List Char) : Number :=
  let s := Text.trim s
  if s.isEmpty then zero
  else match prefixed? s with
    | some n => (n.map fun n => ofInt n).getD .nan
    | none =>
      let (negative, s) := match s with
        | '-' :: r => (true, r)
        | '+' :: r => (false, r)
        | r => (false, r)
      (ofUnsignedText? negative s).getD .nan

/-- The integer, of any size, that a free text stands for. -/
def wholeOfText? (s : List Char) : Option Int :=
  let s := Text.trim s
  if s.isEmpty then some 0
  else match prefixed? s with
    | some n => n.map fun n => (n : Int)
    | none => match s with
      | '-' :: r => (natOfDigits? 10 r).map fun n => -(n : Int)
      | '+' :: r => (natOfDigits? 10 r).map fun n => (n : Int)
      | r => (natOfDigits? 10 r).map fun n => (n : Int)

/-! ## Facts -/

/-- The decimal digits of a natural number read back as that number. -/
theorem ofDigitChars_toDigits_ten (n : Nat) : Nat.ofDigitChars 10 (Nat.toDigits 10 n) 0 = n :=
  Nat.ofDigitChars_toDigits (by decide) (by decide)

end FailureWire.Number
