/-!
# Binary numbers of 64 bits

The numbers that failures carry (event ids, codes, delays, numeric details) are IEEE 754 binary64
numbers. A finite one is a sign and an *ordinal*: the position of its magnitude in the increasing
sequence of all finite magnitudes, 0 first. The ordinals make every pattern valid and unique, and
"round to nearest, ties to even" is rounding to the nearest ordinal, the even one in a tie.

Arithmetic is exact in the rationals and rounded once at the end, so that every result is determined
by `Number.value`, `Number.round` and the sign rules of zero.

`Number.floor` and `Number.roundHalfUp` are `Math.floor` and `Math.round`, as durations need them.
-/

namespace FailureWire

abbrev Number.fractions : Nat := Nat.pow 2 52

/-- Number of finite magnitudes: 2047 exponents with their fractions. -/
abbrev Number.magnitudes : Nat := 2047 * Number.fractions

/-- A binary64 number; all not-a-numbers are one. -/
inductive Number where
  | nan
  | infinite (negative : Bool)
  | finite (negative : Bool) (ordinal : Fin Number.magnitudes)
deriving DecidableEq, Repr

namespace Number

/-! ## Magnitudes -/

/-- The integer part `m` of the magnitude `m * 2 ^ exponent` at an ordinal. -/
def mantissa (ordinal : Nat) : Nat :=
  if ordinal < fractions then ordinal else fractions + ordinal % fractions

/-- How far `2 ^ exponent` lies above `2 ^ (-1074)`, the smallest positive magnitude. -/
def scale (ordinal : Nat) : Nat := ordinal / fractions - 1

def magnitude (ordinal : Nat) : Rat :=
  mkRat (mantissa ordinal * Nat.pow 2 (scale ordinal) : Nat) (Nat.pow 2 1074)

/-- The exact value of a finite number; 0 stands for the others. -/
def value : Number → Rat
  | .finite false o => magnitude o
  | .finite true o => -magnitude o
  | _ => 0

/-- The integer nearest to `n / d`, the even one in a tie. -/
def nearestEven (n d : Nat) : Nat :=
  let q := n / d
  let r := n % d
  if 2 * r < d then q else if d < 2 * r then q + 1 else if q % 2 = 0 then q else q + 1

/-- How far the binary exponent of `n / d` lies above the smallest one. -/
def scaleOfRatio (n d : Nat) : Nat :=
  let top := n.log2 + 1075 - d.log2
  let top := if d * Nat.pow 2 (top - 1075) ≤ n * Nat.pow 2 (1075 - top) then top else top - 1
  top - 53

/-- The ordinal nearest to `n / d`, the even one in a tie; at least `magnitudes` on overflow. -/
def ordinalOfRatio (n d : Nat) : Nat :=
  let s := scaleOfRatio n d
  s * fractions + nearestEven (n * Nat.pow 2 (1074 - s)) (d * Nat.pow 2 (s - 1074))

/-- The number with this sign at this ordinal, infinite beyond the last one. -/
def ofOrdinal (negative : Bool) (ordinal : Nat) : Number :=
  if h : ordinal < magnitudes then .finite negative ⟨ordinal, h⟩ else .infinite negative

def signedZero (negative : Bool) : Number := .finite negative ⟨0, by decide⟩

/-- The number nearest to a rational; `negativeZero` is the sign of the result 0. -/
def round (r : Rat) (negativeZero : Bool) : Number :=
  if r.num = 0 then signedZero negativeZero
  else ofOrdinal (r.num < 0) (ordinalOfRatio r.num.natAbs r.den)

/-- The number nearest to an integer. -/
def ofInt (n : Int) : Number := round n false

def zero : Number := signedZero false

def negativeZero : Number := signedZero true

instance (n : Nat) : OfNat Number n := ⟨ofInt n⟩
instance : Inhabited Number := ⟨zero⟩

/-! ## Classes of numbers -/

def isNaN : Number → Bool
  | .nan => true
  | _ => false

def isFinite : Number → Bool
  | .finite _ _ => true
  | _ => false

def isNegative : Number → Bool
  | .nan => false
  | .infinite s => s
  | .finite s _ => s

def isZero : Number → Bool
  | .finite _ o => o.val = 0
  | _ => false

def toInt? : Number → Option Int
  | x@(.finite _ _) => if x.value.den = 1 then some x.value.num else none
  | _ => none

/-- The largest integer up to which every integer has a number of its own. -/
def maxSafe : Int := 9007199254740991

/-- The integer that a number is, if it is one within the safe range. -/
def toSafeInt? (x : Number) : Option Int :=
  x.toInt?.filter fun n => -maxSafe ≤ n ∧ n ≤ maxSafe

/-! ## Order -/

/-- Whether two numbers are equal as values: the zeros are, a not-a-number equals nothing. -/
def sameValue : Number → Number → Bool
  | .nan, _ => false
  | x, y => x = y || (x.isZero && y.isZero)

def less : Number → Number → Bool
  | .nan, _ | _, .nan => false
  | .infinite s, .infinite t => s && !t
  | .infinite s, .finite _ _ => s
  | .finite _ _, .infinite t => !t
  | x@(.finite _ _), y@(.finite _ _) => x.value < y.value

/-! ## Arithmetic -/

def neg : Number → Number
  | .nan => .nan
  | .infinite s => .infinite !s
  | .finite s o => .finite (!s) o

def add : Number → Number → Number
  | .nan, _ | _, .nan => .nan
  | .infinite s, .infinite t => if s = t then .infinite s else .nan
  | .infinite s, .finite _ _ => .infinite s
  | .finite _ _, .infinite t => .infinite t
  | x@(.finite s _), y@(.finite t _) => round (x.value + y.value) (s && t)

def sub (x y : Number) : Number := add x y.neg

def mul : Number → Number → Number
  | .nan, _ | _, .nan => .nan
  | .infinite s, y => if y.isZero then .nan else .infinite (s != y.isNegative)
  | x, .infinite t => if x.isZero then .nan else .infinite (x.isNegative != t)
  | x@(.finite s _), y@(.finite t _) => round (x.value * y.value) (s != t)

def div : Number → Number → Number
  | .nan, _ | _, .nan => .nan
  | .infinite _, .infinite _ => .nan
  | .infinite s, .finite t _ => .infinite (s != t)
  | .finite s _, .infinite t => signedZero (s != t)
  | x@(.finite s _), y@(.finite t _) =>
    if y.isZero then (if x.isZero then .nan else .infinite (s != t))
    else round (x.value / y.value) (s != t)

instance : Add Number := ⟨add⟩
instance : Sub Number := ⟨sub⟩
instance : Mul Number := ⟨mul⟩
instance : Div Number := ⟨div⟩
instance : Neg Number := ⟨neg⟩

/-- The largest integer that is not above a number; a zero keeps its sign. -/
def floor : Number → Number
  | x@(.finite s _) => round x.value.floor s
  | x => x

/-- The integer nearest to a number, the upper one in a tie; a negative number that is rounded to
zero keeps its sign. -/
def roundHalfUp : Number → Number
  | x@(.finite s _) => round (x.value + 1 / 2).floor s
  | x => x

/-! ## Bit patterns -/

/-- The 64 bits of a number: its sign, and its ordinal in the other 63 bits. -/
def toBits : Number → UInt64
  | .nan => 0x7ff8000000000000
  | .infinite s => (if s then 0x8000000000000000 else 0) ||| 0x7ff0000000000000
  | .finite s o => (if s then 0x8000000000000000 else 0) ||| UInt64.ofNat o.val

/-- The number nearest to a number whose fraction has 23 bits and whose exponent has 8. -/
def roundSingle : Number → Number
  | x@(.finite s o) =>
    if o.val = 0 then x
    else
      let n := mantissa o * Nat.pow 2 (scale o)
      -- the unit in the last place of the shorter format, in multiples of `2 ^ (-1074)`
      let shift := max (n.log2 - 23) 925
      let m := nearestEven n (Nat.pow 2 shift) * Nat.pow 2 shift
      if m < Nat.pow 2 1202 then round (mkRat (if s then -m else m) (Nat.pow 2 1074)) s
      else .infinite s
  | x => x

/-- The 32 bits of a number in the shorter format, of a number that it has: its sign, and its ordinal
among the magnitudes of that format in the other 31 bits. -/
def singleBits : Number → Nat
  | .nan => 0x7fc00000
  | .infinite s => (if s then 0x80000000 else 0) + 0x7f800000
  | .finite s o =>
    let n := mantissa o * Nat.pow 2 (scale o)
    let shift := max (n.log2 - 23) 925
    (if s then 0x80000000 else 0) + ((shift - 925) * Nat.pow 2 23 + n / Nat.pow 2 shift)

/-! ## Facts -/

theorem ofOrdinal_of_lt {s : Bool} {o : Nat} (h : o < magnitudes) :
    ofOrdinal s o = .finite s ⟨o, h⟩ := by
  simp [ofOrdinal, h]

/-- Rounding a quotient misses it by at most half a unit. -/
theorem nearestEven_near {n d : Nat} (hd : 0 < d) :
    2 * (nearestEven n d * d) ≤ 2 * n + d ∧ 2 * n ≤ 2 * (nearestEven n d * d) + d := by
  have h := Nat.div_add_mod n d
  have hr := Nat.mod_lt n hd
  have hc : d * (n / d) = n / d * d := Nat.mul_comm _ _
  have hs : (n / d + 1) * d = n / d * d + d := by rw [Nat.add_mul, Nat.one_mul]
  simp only [nearestEven]
  split
  · omega
  · split
    · omega
    · split <;> omega

/-- A quotient half-way between two integers goes to the even one. -/
theorem nearestEven_tie {n d : Nat} (h : 2 * (n % d) = d) : nearestEven n d % 2 = 0 := by
  simp only [nearestEven]
  split
  · omega
  · split
    · omega
    · split <;> omega

end Number
end FailureWire
