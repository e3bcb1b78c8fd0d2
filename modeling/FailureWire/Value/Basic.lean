import FailureWire.Number.Decimal

/-!
# Values

What a program can throw, attach to an error or put into a failure: a primitive value, or a reference
to an object of an object graph (`FailureWire.Value.Graph`). Objects have an identity, because chains
of causes may be cyclic and details may share parts; primitives have none.
-/

namespace FailureWire

/-- The identity of an object of a graph. -/
abbrev ObjectId := Nat

/-- A value: a primitive, or an object of a graph. -/
inductive Value where
  | undefined
  | null
  | bool (b : Bool)
  | number (n : Number)
  | text (s : String)
  | big (n : Int)
  | object (id : ObjectId)
deriving DecidableEq, Repr, Inhabited

namespace Value

/-- Whether there is nothing: neither a value nor an explicit null. -/
def isMissing : Value → Bool
  | .undefined | .null => true
  | _ => false

/-- Whether a value counts as true. -/
def isTruthy : Value → Bool
  | .undefined | .null => false
  | .bool b => b
  | .number n => !(n.isNaN || n.isZero)
  | .text s => !s.isEmpty
  | .big n => n ≠ 0
  | .object _ => true

/-- A value, or another one in the place of nothing. -/
def orElse (v other : Value) : Value := if v.isMissing then other else v

def defined? (v : Value) : Option Value := if v = .undefined then none else some v

def text? : Value → Option String
  | .text s => some s
  | _ => none

def number? : Value → Option Number
  | .number n => some n
  | _ => none

def bool? : Value → Option Bool
  | .bool b => some b
  | _ => none

def id? : Value → Option ObjectId
  | .object id => some id
  | _ => none

/-- An optional value, where nothing is `undefined`. -/
def ofOption : Option Value → Value
  | some v => v
  | none => .undefined

/-- An optional text, where nothing is `undefined`. -/
def ofText? : Option String → Value
  | some s => .text s
  | none => .undefined

/-- An optional number, where nothing is `undefined`. -/
def ofNumber? : Option Number → Value
  | some n => .number n
  | none => .undefined

@[simp] theorem text?_eq_some {v : Value} {s : String} : v.text? = some s ↔ v = .text s := by
  cases v <;> simp [text?]

theorem isTruthy_object (id : ObjectId) : (object id).isTruthy = true := rfl

end Value

/-- The element types of numeric arrays other than byte strings. -/
inductive ElementType where
  | int8 | uint8Clamped | int16 | uint16 | int32 | uint32 | float32 | float64
deriving DecidableEq, Repr

namespace ElementType

def arrayName : ElementType → String
  | .int8 => "Int8Array"
  | .uint8Clamped => "Uint8ClampedArray"
  | .int16 => "Int16Array"
  | .uint16 => "Uint16Array"
  | .int32 => "Int32Array"
  | .uint32 => "Uint32Array"
  | .float32 => "Float32Array"
  | .float64 => "Float64Array"

def all : List ElementType :=
  [.int8, .uint8Clamped, .int16, .uint16, .int32, .uint32, .float32, .float64]

def ofArrayName? (name : String) : Option ElementType := all.find? fun t => t.arrayName = name

/-- The integer part of a number modulo `2 ^ bits`; 0 for what is not finite. -/
def wrap (bits : Nat) (n : Number) : Int :=
  let whole := if n.isNegative then -(-n.value).floor else n.value.floor
  if n.isFinite then whole % Int.ofNat (Nat.pow 2 bits) else 0

/-- The number in the signed range of this many bits that is congruent to `n`. -/
def signed (bits : Nat) (n : Int) : Int :=
  if n < Int.ofNat (Nat.pow 2 (bits - 1)) then n else n - Int.ofNat (Nat.pow 2 bits)

/-- The integer from 0 to 255 nearest to a number, the even one in a tie. -/
def clamp (n : Number) : Int :=
  match n with
  | .nan => 0
  | .infinite s => if s then 0 else 255
  | .finite _ _ =>
    if n.value ≤ 0 then 0
    else min 255 (Number.nearestEven n.value.num.natAbs n.value.den)

def store (t : ElementType) (n : Number) : Number :=
  match t with
  | .int8 => .ofInt (signed 8 (wrap 8 n))
  | .uint8Clamped => .ofInt (clamp n)
  | .int16 => .ofInt (signed 16 (wrap 16 n))
  | .uint16 => .ofInt (wrap 16 n)
  | .int32 => .ofInt (signed 32 (wrap 32 n))
  | .uint32 => .ofInt (wrap 32 n)
  | .float32 => n.roundSingle
  | .float64 => n

/-- How many bytes an item takes. -/
def width : ElementType → Nat
  | .int8 | .uint8Clamped => 1
  | .int16 | .uint16 => 2
  | .int32 | .uint32 | .float32 => 4
  | .float64 => 8

/-- The pattern of bits that stands for a stored number. -/
def bitsOf (t : ElementType) (n : Number) : Nat :=
  match t with
  | .float32 => n.singleBits
  | .float64 => n.toBits.toNat
  | t => (wrap (8 * t.width) n).toNat

/-- The bytes of a stored number, the lowest one first. -/
def bytesOf (t : ElementType) (n : Number) : List UInt8 :=
  (List.range t.width).map fun i => .ofNat (t.bitsOf n / Nat.pow 256 i)

theorem ofArrayName?_arrayName (t : ElementType) : ofArrayName? t.arrayName = some t := by
  cases t <;> decide

end ElementType
end FailureWire
