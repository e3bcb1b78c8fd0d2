import FailureWire.Fault
import FailureWire.Time.DateText
import FailureWire.Value.Graph

/-!
# Values read as others

A value where a text or a number is expected is read as one: lists as their items between commas,
errors as their name and message, dates as their time, boxed values as what they hold, everything else
by its text. A record that has a
property `toString` cannot be read as anything: the property takes the place of the way in which
records are written, and no property is such a way.

Lists inside themselves are empty texts there. Errors that are part of their own names are never read
to the end. An error always has a stack, though: a text that says what is wrong takes the place of one
that cannot be read.

`Graph.toText` is `String(v)`, `Graph.toNumber` is `Number(v)`, `Graph.errorText` is
`Error.prototype.toString`.
-/

namespace FailureWire

/-- The property that says how an object is written. -/
def writerKey : String := "toString"

/-- Texts with commas between them. -/
def joinCommas : List (List Char) → List Char
  | [] => []
  | [s] => s
  | s :: rest => s ++ ',' :: joinCommas rest

/-- The text of a value that is no object. -/
def Value.primitiveChars : Value → List Char
  | .undefined => "undefined".toList
  | .null => "null".toList
  | .bool b => (if b then "true" else "false").toList
  | .number n => n.chars
  | .text s => s.toList
  | .big n => Number.intChars n
  | .object _ => []

def dateChars (time : Number) : List Char :=
  match time.toInt? with
  | some ms => Instant.longChars ms
  | none => "Invalid Date".toList

/-- A name and a message as one line; one of them alone when the other is empty. -/
def headerOf (name message : List Char) : List Char :=
  if message.isEmpty then name else if name.isEmpty then message else name ++ ':' :: ' ' :: message

def recordChars : List Char := "[object Object]".toList

namespace ThrownError

variable {δ : Type}

/-- The line that begins the stack of an error, given the texts of values. -/
def headerBy (text : Value → Except Fault (List Char)) (e : ThrownError δ) :
    Except Fault (List Char) := do
  let name ← if e.name = .undefined then pure "Error".toList else text e.name
  let message ← if e.message = .undefined then pure [] else text e.message
  return headerOf name message

/-- The text of an error, given the texts of values: name and display message of a failure, else the
line that begins its stack. -/
def textBy (text : Value → Except Fault (List Char)) (e : ThrownError δ) :
    Except Fault (List Char) :=
  if e.extra.has writerKey then .error .wrongType
  else match e.failure? with
    | some f => do return (← text e.name) ++ ':' :: ' ' :: (← text f.displayMessage)
    | none => e.headerBy text

end ThrownError

/-- What stands in the place of a header that has no text. -/
def brokenHeader (f : Fault) : String :=
  match f with
  | .outOfRange => "<error: RangeError: Maximum call stack size exceeded>"
  | _ => "<error: TypeError: Cannot convert object to primitive value>"

namespace Graph

/-! ## Texts -/

/-- The text of a value inside the lists `outer`; `fuel` bounds the number of objects inside each
other. -/
def textIn (g : Graph) : Nat → List ObjectId → Value → Except Fault (List Char)
  | 0, _, _ => .error .outOfRange
  | fuel + 1, outer, v =>
    match v with
    | .object id =>
      let join (items : List Value) : Except Fault (List Char) :=
        if outer.contains id then .ok []
        else do
          let texts ← items.mapM fun w =>
            if w.isMissing then .ok [] else g.textIn fuel (id :: outer) w
          return joinCommas texts
      match g.node? id with
      | some (.list items) => join items
      | some (.sparse fields) => join (fields.slots .undefined)
      | some (.bytes data) => .ok (joinCommas (data.map fun b => Nat.toDigits 10 b.toNat))
      | some (.numbers _ items) => .ok (joinCommas (items.map Number.chars))
      | some (.set _) => .ok "[object Set]".toList
      | some (.map _) => .ok "[object Map]".toList
      | some (.date time) => .ok (dateChars time)
      | some (.pattern source flags) => .ok ('/' :: (source.toList ++ '/' :: flags.toList))
      | some (.boxed content) => .ok content.primitive.primitiveChars
      | some (.error e) => e.textBy (g.textIn fuel outer)
      | some (.record fields) =>
        if Fields.has fields writerKey then .error .wrongType else .ok recordChars
      | none => .ok recordChars
    | v => .ok v.primitiveChars

/-- The text of a value. Lists inside each other are different, and so are the errors that follow each
other within one list, or there is no end of them. -/
def toText (g : Graph) (v : Value) : Except Fault (List Char) :=
  g.textIn ((g.size + 1) * (g.size + 1) + 1) [] v

/-- The line that begins the stack of an error. -/
def header {δ : Type} (g : Graph) (e : ThrownError δ) : Except Fault (List Char) :=
  e.headerBy g.toText

def errorText {δ : Type} (g : Graph) (e : ThrownError δ) : Except Fault (List Char) :=
  e.textBy g.toText

/-- The stack of an error: the one that it was given, or else its header and its frames. A header that
has no text says why. -/
def stackOf {δ : Type} (g : Graph) (e : ThrownError δ) : Value :=
  match e.stack with
  | some stack => stack
  | none =>
    let header := match g.header e with
      | .ok header => String.ofList header
      | .error f => brokenHeader f
    .text (header ++ e.frames)

/-! ## Numbers -/

/-- A value without parts: a date's time, what a box holds, any other object's text, or the value
itself. -/
def primitive (g : Graph) (v : Value) : Except Fault Value :=
  match v with
  | .object _ =>
    match g.objectOf? v with
    | some (.date time) => .ok (.number time)
    | some (.boxed content) => .ok content.primitive
    | _ => do return .text (String.ofList (← g.toText v))
  | v => .ok v

/-- The number that a value stands for, where big integers are to become numbers, too. -/
def castNumber (g : Graph) (v : Value) : Except Fault Number := do
  match ← g.primitive v with
  | .null => return 0
  | .bool b => return if b then 1 else 0
  | .number n => return n
  | .text s => return .ofText s.toList
  | .big n => return .ofInt n
  | .undefined | .object _ => return .nan

/-- The number that a value stands for. A big integer stands for none. -/
def toNumber (g : Graph) (v : Value) : Except Fault Number :=
  match v with
  | .big _ => .error .wrongType
  | v => g.castNumber v

/-- The instant that a value stands for; not-a-number when it stands for none. -/
def toInstant (g : Graph) (v : Value) : Except Fault Number := do
  match g.objectOf? v with
  | some (.date time) => return time
  | _ =>
    match ← g.primitive v with
    | .text s => return ((Instant.parse? s.toList).map .ofInt).getD .nan
    | v => return Instant.ofNumber (← g.toNumber v)

end Graph

/-! ## Documents -/

namespace Document

def inGraph {α : Type} (d : Document) (f : Graph → Value → α) : α :=
  let (g, v) := Graph.empty.add d
  f g v

def toText (d : Document) : Except Fault (List Char) := d.inGraph Graph.toText

/-- The number that a document stands for, where big integers are to become numbers, too. -/
def castNumber (d : Document) : Except Fault Number := d.inGraph Graph.castNumber

def toNumber (d : Document) : Except Fault Number := d.inGraph Graph.toNumber

def toInstant (d : Document) : Except Fault Number := d.inGraph Graph.toInstant

/-- A document without parts: a date's time, what a box holds, any other object's text, or the
document itself. -/
def primitive (d : Document) : Except Fault Value := d.inGraph Graph.primitive

end Document
end FailureWire
