import FailureWire.Payload.Annotated
import FailureWire.Payload.Host
import FailureWire.Payload.Place
import FailureWire.Text.Pattern
import FailureWire.Text.Units
import FailureWire.Value.Coerce

/-!
# Turning plain values back

`revive` turns a plain value back into what an annotation says that it was. The value may be anything,
because payload text may come from anywhere: what cannot be read as the wanted kind is a fault.

`revive` is superjson's `untransformValue`: a word names one of its simple rules, a list one of the composite
ones.
-/

namespace FailureWire.Payload

open Document (sameness)

/-! ## Sequences -/

/-- The items that a value consists of, where a sequence is wanted. -/
def itemsOf : Document → Except Fault (List Document)
  | .undefined | .null => .ok []
  | .list items | .set items => .ok items
  | .sparse fields => .ok (Fields.slots .undefined fields)
  | .map entries => .ok (entries.map fun e => .list [e.1, e.2])
  | .text s | .boxed (.text s) => .ok (s.toList.map fun c => .text c.toString)
  | .bytes data => .ok (data.map fun b => .number (.ofInt b.toNat))
  | .numbers _ items => .ok (items.map .number)
  | _ => .error .wrongType

/-- The set whose members a value lists. -/
def toSet (d : Document) : Except Fault Document := do
  return .set (Container.setOf sameness (← itemsOf d))

/-- The key and the value that an entry of a map is written as. -/
def toEntry : Document → Except Fault (Document × Document)
  | .list items => .ok (items[0]?.getD .undefined, items[1]?.getD .undefined)
  | .record fields | .sparse fields =>
    .ok ((Fields.get? fields "0").getD .undefined, (Fields.get? fields "1").getD .undefined)
  | .bytes data =>
    let at_ (i : Nat) : Document := (data[i]?.map fun b => .number (.ofInt b.toNat)).getD .undefined
    .ok (at_ 0, at_ 1)
  | .numbers _ items =>
    let at_ (i : Nat) : Document := (items[i]?.map .number).getD .undefined
    .ok (at_ 0, at_ 1)
  | .boxed (.text s) => do
    let at_ (i : Nat) : Except Fault Document := do
      return .ofOption ((← Text.unitAt s.toList i).map .text)
    return (← at_ 0, ← at_ 1)
  | .set _ | .map _ | .date _ | .pattern _ _ | .boxed _ | .error .. => .ok (.undefined, .undefined)
  | _ => .error .wrongType

def toMap (d : Document) : Except Fault Document := do
  return .map (Container.mapOf sameness (← (← itemsOf d).mapM toEntry))

/-! ## Numbers -/

/-- The whole number that a value spells. -/
def toBig (d : Document) : Except Fault Document := do
  match ← d.primitive with
  | .undefined | .null | .object _ => .error .wrongType
  | .bool b => return .big (if b then 1 else 0)
  | .number n =>
    match n.toInt? with
    | some n => return .big n
    | none => .error .outOfRange
  | .big n => return .big n
  | .text s =>
    match Number.wholeOfText? s.toList with
    | some n => return .big n
    | none => .error .badText

/-- A number cut to an integer; 0 for not-a-number and none beyond all bounds. -/
def wholePart? (n : Number) : Option Int :=
  if n.isNaN then some 0
  else if n.isFinite then some (if n.isNegative then -(-n.value).floor else n.value.floor)
  else none

/-- The greatest length (`Number.MAX_SAFE_INTEGER`). -/
def maxLength : Nat := Nat.pow 2 53 - 1

/-- The length that a number says (`ToLength`). -/
def lengthOf (n : Number) : Nat :=
  match wholePart? n with
  | some size => min size.toNat maxLength
  | none => if n.isNegative then 0 else maxLength

/-- The items of a record: as many as its `length` says, if there is room for so many numbers. -/
def indexedItems (hasRoom : Nat → Bool) (fields : Fields Document) : Except Fault (List Document) := do
  let size := lengthOf (← ((Fields.get? fields "length").getD .undefined).toNumber)
  if hasRoom size then
    return (List.range size).map fun i => (Fields.get? fields (positionName i)).getD .undefined
  else .error .outOfRange

/-- The items of an array of numbers: those of a sequence, or as many zeros as a number says (`ToIndex`),
if there is room for them. What is listed has room. -/
def numberItems (hasRoom : Nat → Bool) (d : Document) : Except Fault (List Number) :=
  match d with
  | .list _ | .sparse _ | .set _ | .map _ | .bytes _ | .numbers _ _ | .boxed (.text _) => do
    (← itemsOf d).mapM Document.toNumber
  | .record fields => do (← indexedItems hasRoom fields).mapM Document.toNumber
  | .undefined | .null | .bool _ | .number _ | .text _ | .big _ => do
    match wholePart? (← d.toNumber) with
    | some size =>
      if 0 ≤ size ∧ size ≤ maxLength ∧ hasRoom size.toNat then return List.replicate size.toNat 0
      else .error .outOfRange
    | none => .error .outOfRange
  | _ => .ok []

def itemWidth (arrayName : String) : Nat :=
  ((ElementType.ofArrayName? arrayName).map (·.width)).getD 1

def numbersOf (arrayName : String) (items : Except Fault (List Number)) : Except Fault Document :=
  if arrayName = "Uint8Array" then do
    return .bytes ((← items).map fun n => UInt8.ofNat (ElementType.wrap 8 n).toNat)
  else
    match ElementType.ofArrayName? arrayName with
    | some element => do return .numbers element ((← items).map element.store)
    | none => .error .unknownNumericArray

/-! ## Errors, patterns and addresses -/

/-- A property of a value that an error is written as. -/
def property (d : Document) (name : String) : Document :=
  match d with
  | .record fields => (Fields.get? fields name).getD .undefined
  | .error n message cause stack =>
    if name = "name" then n else if name = "message" then message
    else if name = "cause" then .ofOption cause else if name = "stack" then stack else .undefined
  | _ => .undefined

def errorOf (name message cause stack : Document) : Except Fault Document := do
  let text ← if message.isUndefined then pure [] else message.toText
  return .error name (.text (String.ofList text)) (some cause) stack

/-- An error with the name, message, cause and stack that a value lists. -/
def toError (d : Document) : Except Fault Document :=
  if d.isMissing then .error .wrongType
  else errorOf (property d "name") (property d "message") (property d "cause") (property d "stack")

/-- A sequence without its first item, up to the last one that is a slash; and what follows that one.
Without a slash the first part ends before the last item, and the second one is all. -/
def splitAtSlash {α : Type} (isSlash : α → Bool) (xs : List α) : List α × List α :=
  let behind := (xs.reverse.takeWhile fun x => !isSlash x).reverse
  let head := if xs.any isSlash then xs.length - behind.length - 1 else xs.length - 1
  ((xs.take head).drop 1, behind)

def patternOf (source flags : List Char) : Except Fault Document :=
  if Pattern.isValid source flags then
    .ok (.pattern (String.ofList (Pattern.sourceText source))
      (String.ofList (Pattern.sortFlags flags)))
  else .error .badText

/-- The pattern between the first part of a sequence and its last slash, with the flags behind it. The
parts of a list are joined to texts. -/
def toPattern (d : Document) : Except Fault Document :=
  match d with
  | .text s | .boxed (.text s) =>
    -- the first unit is dropped, whatever it is
    if s.toList.head?.any fun c => 0x10000 ≤ c.toNat then .error .loneHalf
    else
      let (source, flags) := splitAtSlash (· = '/') s.toList
      patternOf source flags
  | .list items => ofItems items
  | .sparse fields => ofItems (Fields.slots .undefined fields)
  | .bytes _ | .numbers _ _ => do patternOf [] (← d.toText)
  | _ => .error .wrongType
where
  /-- The pattern whose parts are in the items of a list. -/
  ofItems (items : List Document) : Except Fault Document := do
    let (source, flags) := splitAtSlash (fun item => item.text? = some "/") items
    patternOf (← (Document.list source).toText) (← (Document.list flags).toText)

/-- The address that the text of a value spells, if the host reads one. -/
def toAddress (host : Host) (d : Document) : Except Fault Document := do
  match host.address? (← d.toText) with
  | some a => return .boxed (.address a)
  | none => .error .wrongType

/-! ## Annotations -/

variable (host : Host)

/-- Turns a value back by an annotation that is a word. -/
def reviveByWord (word : String) (d : Document) : Except Fault Document :=
  match word with
  | "undefined" => .ok .undefined
  | "bigint" => toBig d
  | "Date" => do return .date (← d.toInstant)
  | "regexp" => toPattern d
  | "number" => do return .number (← d.castNumber)
  | "set" => toSet d
  | "map" => toMap d
  | "Error" => toError d
  | "URL" => toAddress host d
  | word => if isInherited word then .error .wrongType else .error (.unknownTransformation word)

/-- What an inherited function is turned into by an annotation that is a word: it is read as a text that
no number, date or address has, and it has a name like an error. -/
def reviveMethodByWord (word : String) (m : Method) : Except Fault Document :=
  match word with
  | "undefined" => .ok .undefined
  | "bigint" => .error .badText
  | "Date" => .ok (.date .nan)
  | "number" => .ok (.number .nan)
  | "Error" => errorOf (.text m.name) .undefined .undefined .undefined
  | "regexp" | "set" | "map" | "URL" => .error .wrongType
  | word => reviveByWord host word .undefined

/-- Turns what stands at a place back by an annotation that is a word. -/
def reviveOccupantByWord (word : String) : Occupant → Except Fault Document
  | .part d => reviveByWord host word d
  | .method m => reviveMethodByWord host word m

/-- A primitive value in a box; of nothing an empty record. -/
def boxOf : Document → Document
  | .bool b => .boxed (.bool b)
  | .number n => .boxed (.number n)
  | .text s => .boxed (.text s)
  | _ => .record []

/-- What a numeric array of a name that is inherited is: the name of all objects' class leaves objects as
they are and makes objects of everything else. -/
def reviveByInherited (name : String) (o : Occupant) : Except Fault (Option Document) :=
  if name = "constructor" then
    match o with
    | .part d => .ok (if d.isObject then none else some (boxOf d))
    | .method _ => .ok none
  else .error .wrongType

/-- Turns what stands at a place back by an annotation that is a list: a word and a name. -/
def reviveByList (items : List Json) : Change := fun o => do
  let name : Document := .ofOption (items[1]?.map .ofJson)
  match items with
  | .text "symbol" :: _ => .error .unknownSymbol
  | .text "class" :: _ => .error (.unknownClass (String.ofList (← name.toText)))
  | .text "custom" :: _ =>
    if isInherited (String.ofList (← name.toText)) then .error .wrongType else .error .unknownCustom
  | .text "typed-array" :: _ =>
    let name := String.ofList (← name.toText)
    if isInherited name then reviveByInherited name o
    else match o with
      | .part d => some <$> numbersOf name (numberItems (fun n => host.hasRoom (itemWidth name * n)) d)
      | .method m => some <$> numbersOf name (.ok (List.replicate m.parameters .nan))
  | _ => .error (.unknownTransformation (String.ofList (← (Document.list (items.map .ofJson)).toText)))

/-- Turns what stands at a place back into what an annotation says; a missing annotation says
`undefined`. -/
def revive (note : Option Json) : Change :=
  match note with
  | none => fun _ => .ok (some .undefined)
  | some (.list items) => reviveByList host items
  | some j => fun o => do
    let word := String.ofList (← (Document.ofJson j).toText)
    return some (← reviveOccupantByWord host word o)

end FailureWire.Payload
