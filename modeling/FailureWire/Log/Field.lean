import FailureWire.Log.ErrorReport

/-!
# Fields of log lines

A field of a line is a name and the JSON of a value. A field named `err` shows its value as an error. A
value without JSON gives no field.

A line is text before it is JSON. The names in contexts are put into it as they are, so that one with a
quote, a backslash or a control character may end elsewhere than it should. And where a name is one that
all objects inherit, the inherited function takes the place of what writes the field. Both may leave
text that is no JSON: `LogFields.ofField` tells what a line has by a field if it is JSON with it.

Contexts become text in pino's `asChindings`, the fields of a line in its `asJson`.
-/

namespace FailureWire

/-- Fields in the order in which they are written; the last one of a name counts. -/
abbrev LogFields := List (String × Json)

def Document.isDefined : Document → Bool
  | .undefined | .existing .undefined => false
  | _ => true

namespace LogFields

def errorKey : String := "err"

def read (line : LogFields) (name : String) : Option Json := Fields.get? (Fields.ofList line) name

def jsonOf (g : Graph) (name : String) (d : Document) : Except Fault (Option Json) :=
  match d with
  | .existing v => if name = errorKey then g.render <$> g.report v else .ok (g.render d)
  | d => .ok (g.render d)

/-- The fields that a text gives which is put into a line as it is, behind a name in quotes. -/
def ofText? (name value : List Char) : Option LogFields :=
  match Json.parse? ('{' :: '"' :: (name ++ '"' :: ':' :: (value ++ ['}']))) with
  | some (.record fields) => some fields
  | _ => none

/-- Whether a name between quotes is itself. -/
def isPlain (name : String) : Bool :=
  name.toList.all fun c => c ≠ '"' && c ≠ '\\' && 0x20 ≤ c.toNat

/-- The text of a document, where an object stands for nothing. -/
def textOf (g : Graph) (d : Document) : Except Fault (List Char) :=
  match d with
  | .null | .existing .null => .ok recordChars
  | d =>
    let (g, v) := g.add d
    g.toText v

/-- What a field of a name that objects inherit adds to a line. -/
def ofInherited (g : Graph) (name : String) (d : Document) : Except Fault (Option LogFields) :=
  match name with
  | "toString" => .ok none
  | "isPrototypeOf" => .ok (some [(name, .bool false)])
  | "__lookupGetter__" | "__lookupSetter__" => do
    let _ ← textOf g d
    return some []
  | "constructor" => do return ofText? name.toList (← textOf g d)
  | _ => .error .wrongType

/-- What a field adds to a line, where its name may be put into the line as it is. -/
def ofField (g : Graph) (asIs : Bool) (name : String) (d : Document) :
    Except Fault (Option LogFields) :=
  if !d.isDefined then .ok (some [])
  else if isInherited name then ofInherited g name d
  else do
    match ← jsonOf g name d with
    | none => return some []
    | some j =>
      if asIs && !isPlain name then return ofText? name.toList j.chars else return some [(name, j)]

def ofFields (g : Graph) (asIs : Bool) (fields : Fields Document) :
    Except Fault (Option LogFields) := do
  let parts ← fields.mapM fun f => ofField g asIs f.1 f.2
  return (parts.mapM id).map List.flatten

end LogFields
end FailureWire
