import FailureWire.Value.Coerce

/-!
# Schemas

A schema says which values are of a shape. `Schema.check` looks at all of a value and lists every
place where it has another shape; of a value of the shape it returns a copy with nothing but what the
schema names.

A number that is whole but beyond the safe integers is found as *soft*: it is reported, but does not
keep a value from having the shape in the main.

The shapes are those of the schemas of zod that `wireFailureSchema` is built from, a check is `safeParse`.
-/

namespace FailureWire

/-- A step of the way to a place: a name, or a position. -/
inductive Segment where
  | name (s : String)
  | position (n : Number)
deriving DecidableEq, Repr

/-- A place where a value has another shape than wanted. -/
structure Finding where
  path : List Segment
  message : String
  soft : Bool
deriving DecidableEq, Repr

namespace Finding

/-- A finding as seen from one step further out. -/
def under (s : Segment) (f : Finding) : Finding := { f with path := s :: f.path }

/-- A finding at the place that is looked at. -/
def here (message : String) : Finding := ⟨[], message, false⟩

def expected (what received : String) : Finding :=
  here ("Invalid input: expected " ++ what ++ ", received " ++ received)

/-- A finding that a value is none of the ones that are wanted. -/
def invalid : Finding := here "Invalid input"

end Finding

/-- What a check gives: the copy of the value, which is of use only if there are no findings. -/
structure Checked where
  value : Document
  findings : List Finding

/-- The shape of a value. -/
inductive Schema where
  | text
  | bool
  /-- A finite number. -/
  | number
  /-- A safe integer. -/
  | integer
  | bytes
  /-- A plain record whose values all have a shape. -/
  | table (values : Schema)
  | list (items : Schema)
  /-- An object, other than a list, with these properties. -/
  | record (fields : List (String × Schema))
  /-- A value of a shape, or nothing. -/
  | optional (s : Schema)

namespace Graph

/-- What an error is called in findings: its class, or the name of what takes the place of the class. -/
def errorTypeName (g : Graph) (e : ThrownError Value) : String :=
  match Fields.get? e.extra "constructor" with
  | none => e.errorClass.name
  | some other =>
    if other.isTruthy then
      match g.toText (g.read other "name") with
      | .ok name => String.ofList name
      | .error _ => ""
    else "object"

/-- What a value is called in findings. -/
def typeName (g : Graph) (v : Value) : String :=
  match v with
  | .undefined => "undefined"
  | .null => "null"
  | .bool _ => "boolean"
  | .number n => if n.isFinite then "number" else String.ofList n.chars
  | .text _ => "string"
  | .big _ => "bigint"
  | .object id =>
    match g.node? id with
    | some (.list _) | some (.sparse _) => "array"
    | some (.set _) => "Set"
    | some (.map _) => "Map"
    | some (.date _) => "Date"
    | some (.pattern _ _) => "RegExp"
    | some (.bytes _) => "Uint8Array"
    | some (.numbers element _) => element.arrayName
    | some (.boxed (.text _)) => "String"
    | some (.boxed (.bool _)) => "Boolean"
    | some (.boxed (.number _)) => "Number"
    | some (.boxed (.address _)) => "URL"
    | some (.error e) => g.errorTypeName e
    | some (.record _) | none => "object"

def isKeyed (g : Graph) (v : Value) : Bool :=
  match g.objectOf? v with
  | some (.list _) | some (.sparse _) | none => false
  | some _ => true

def recordOf? (g : Graph) (v : Value) : Option (Fields Value) :=
  match g.objectOf? v with
  | some (.record fields) => some fields
  | _ => none

end Graph

namespace Checked

/-- A value of the wanted shape. -/
def ok (d : Document) : Checked := ⟨d, []⟩

/-- A value that has another shape as a whole. -/
def fail (f : Finding) : Checked := ⟨.undefined, [f]⟩

/-- A check one step further in, as seen from here. -/
def under (s : Segment) (c : Checked) : Checked := { c with findings := c.findings.map (·.under s) }

def listOf (items : List Checked) : Checked :=
  ⟨.list (items.map (·.value)), items.flatMap (·.findings)⟩

def recordOf (fields : List (String × Checked)) : Checked :=
  ⟨.record (fields.map fun (name, c) => (name, c.value)), fields.flatMap fun f => f.2.findings⟩

/-- Whether a value has the wanted shape. -/
def isOk (c : Checked) : Bool := c.findings.isEmpty

end Checked

namespace Schema

/-- The findings about a number that should be a safe integer, and is a number. -/
def integerFindings (n : Number) : List Finding :=
  match n.toInt? with
  | none => [.here "Invalid input: expected int, received number"]
  | some i =>
    if Number.maxSafe < i then
      [⟨[], "Too big: expected int to be <=9007199254740991", true⟩]
    else if i < -Number.maxSafe then
      [⟨[], "Too small: expected int to be >=-9007199254740991", true⟩]
    else []

/-- Whether a property may be missing. -/
def isOptional : Schema → Bool
  | .optional _ => true
  | _ => false

mutual
/-- Checks the shape of a value. -/
def check (g : Graph) : Schema → Value → Checked
  | .text, v =>
    match v with
    | .text _ => .ok (.existing v)
    | _ => .fail (.expected "string" (g.typeName v))
  | .bool, v =>
    match v with
    | .bool _ => .ok (.existing v)
    | _ => .fail (.expected "boolean" (g.typeName v))
  | .number, v =>
    match v with
    | .number n =>
      if n.isFinite then .ok (.existing v) else .fail (.expected "number" (g.typeName v))
    | _ => .fail (.expected "number" (g.typeName v))
  | .integer, v =>
    match v with
    | .number n =>
      if n.isFinite then ⟨.existing v, integerFindings n⟩
      else .fail (.expected "number" (g.typeName v))
    | _ => .fail (.expected "number" (g.typeName v))
  | .bytes, v =>
    if (g.bytesOf? v).isSome then .ok (.existing v)
    else .fail (.expected "Uint8Array" (g.typeName v))
  | .table values, v =>
    match g.recordOf? v with
    | some fields =>
      .recordOf ((fields.filter fun f => f.1 ≠ "__proto__").map fun (name, v) =>
        (name, (check g values v).under (.name name)))
    | none => .fail (.expected "record" (g.typeName v))
  | .list items, v =>
    match g.listOf? v with
    | some vs => .listOf (vs.mapIdx fun i v => (check g items v).under (.position (.ofInt i)))
    | none => .fail (.expected "array" (g.typeName v))
  | .record fields, v =>
    if g.isKeyed v then .recordOf (checkFields g fields v)
    else .fail (.expected "object" (g.typeName v))
  | .optional s, v => if v = .undefined then .ok .undefined else check g s v
termination_by structural s => s

def checkFields (g : Graph) : List (String × Schema) → Value → List (String × Checked)
  | [], _ => []
  | (name, s) :: rest, v =>
    let here := match g.get? v name with
      | some w => [(name, (check g s w).under (.name name))]
      | none => if s.isOptional then [] else [(name, (check g s .undefined).under (.name name))]
    here ++ checkFields g rest v
termination_by structural fs => fs
end

end Schema
end FailureWire
