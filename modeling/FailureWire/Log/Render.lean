import FailureWire.Text.Json
import FailureWire.Time.Instant
import FailureWire.Value.Graph

/-!
# Values in log lines

A log line is JSON, so a value is logged as the JSON of its listed properties: instants as their text,
lists as lists, everything else as a record. What has no JSON is dropped from records and null in
lists.

Big integers and values inside themselves have no such JSON at all. They are written in the bounded
style instead: big integers as numbers, a value inside itself as a mark, and marks in the place of all
that is nested more than five deep or comes after the first hundred parts.

The first style is `JSON.stringify`; the bounded one is `safe-stable-stringify` with the bounds that pino
sets.
-/

namespace FailureWire

/-- How a value is written: as it is, or bounded. -/
inductive LogStyle where
  | exact | bounded
deriving DecidableEq, Repr

namespace LogStyle

/-- How deep the bounded style writes values inside each other. -/
def maxDepth : Nat := 5

/-- How many parts of a value the bounded style writes. -/
def maxParts : Nat := 100

/-- A number with the word for parts. -/
def countText (n : Nat) : String :=
  String.ofList (Nat.toDigits 10 n) ++ (if n = 1 then " item" else " items") ++ " not stringified"

end LogStyle

/-- The JSON of a value, if it has some. The outer `none` stands for what the style cannot write. -/
abbrev Rendered := Option (Option Json)

namespace LogStyle

/-- A list or a record, where `mark` stands for it where it is nested too deep. -/
def nested (style : LogStyle) (depth parts : Nat) (mark : String) (inner : Rendered) : Rendered :=
  if style = .bounded ∧ parts ≠ 0 ∧ maxDepth ≤ depth then some (some (.text mark)) else inner

/-- The texts in ascending order of their codes. -/
def sorted {α : Type} (fields : List (String × α)) : List (String × α) :=
  fields.mergeSort fun a b => !(b.1.toList < a.1.toList : Bool)

def boundList (style : LogStyle) (items : List Json) : List Json :=
  if style = .bounded ∧ maxParts + 1 < items.length then
    items.take maxParts ++
      [.text ("... " ++ countText (items.length - maxParts - 1))]
  else if style = .bounded then items.take maxParts
  else items

def boundRecord (style : LogStyle) (fields : List (String × Option Json)) : List (String × Json) :=
  let present : List (String × Option Json) → List (String × Json) :=
    List.filterMap fun f => f.2.map fun j => (f.1, j)
  if style = .bounded ∧ maxParts < fields.length then
    present ((sorted fields).take maxParts) ++
      [("...", .text (countText (fields.length - maxParts)))]
  else present fields

end LogStyle

namespace Document

/-- The JSON of a number: null if it is not finite, and no sign of zero. -/
def numberJson (n : Number) : Json :=
  if n.isFinite then .number (if n.isZero then 0 else n) else .null

mutual
def toJson (style : LogStyle) (ofValue : Nat → Value → Rendered) (depth : Nat) :
    Document → Rendered
  | .undefined => some none
  | .null => some (some .null)
  | .bool b => some (some (.bool b))
  | .number n => some (some (numberJson n))
  | .text s => some (some (.text s))
  | .big n => match style with
    | .exact => none
    | .bounded => some (some (.number (.ofInt n)))
  | .record fields =>
    style.nested depth fields.length "[Object]" do
      return some (.record (style.boundRecord (← fieldsToJson style ofValue (depth + 1) fields)))
  | .list items =>
    style.nested depth items.length "[Array]" do
      return some (.list (style.boundList (← itemsToJson style ofValue (depth + 1) items)))
  | .sparse fields =>
    style.nested depth (Fields.extent fields) "[Array]" do
      let items := Fields.slots none (← fieldsToJson style ofValue (depth + 1) fields)
      return some (.list (style.boundList (items.map fun j => j.getD .null)))
  | .date time => match time.toInt? with
    | some ms => some (some (.text (String.ofList (Instant.chars ms))))
    | none => some (some .null)
  | .boxed content => ofValue depth content.primitive
  | .existing v => ofValue depth v
  | _ => some (some (.record []))
termination_by structural d => d

def fieldsToJson (style : LogStyle) (ofValue : Nat → Value → Rendered) (depth : Nat) :
    List (String × Document) → Option (List (String × Option Json))
  | [] => some []
  | (name, d) :: rest => do
    let j ← toJson style ofValue depth d
    return (name, j) :: (← fieldsToJson style ofValue depth rest)
termination_by structural fs => fs

def itemsToJson (style : LogStyle) (ofValue : Nat → Value → Rendered) (depth : Nat) :
    List Document → Option (List Json)
  | [] => some []
  | d :: rest => do
    let j ← toJson style ofValue depth d
    return j.getD .null :: (← itemsToJson style ofValue depth rest)
termination_by structural ds => ds
end

end Document

namespace Graph

/-- An object as it is logged: what it lists, or an instant. -/
def logged (g : Graph) (id : ObjectId) : Document :=
  match g.node? id with
  | some (.list items) => .list (items.map .existing)
  | some (.sparse fields) => .sparse (fields.mapValues .existing)
  | some (.date time) => .date time
  | some (.boxed content) => .boxed content
  | _ => .record (g.listing (.object id))

/-- The JSON of a value at a depth inside some objects; `fuel` bounds the number of objects inside
each other. -/
def renderIn (g : Graph) (style : LogStyle) : Nat → List ObjectId → Nat → Value → Rendered
  | 0, _, _, _ => none
  | fuel + 1, outer, depth, v =>
    match v with
    | .undefined => some none
    | .null => some (some .null)
    | .bool b => some (some (.bool b))
    | .number n => some (some (Document.numberJson n))
    | .text s => some (some (.text s))
    | .big n => Document.toJson style (fun _ _ => none) depth (.big n)
    | .object id =>
      if outer.contains id then
        match style with
        | .exact => none
        | .bounded => some (some (.text "[Circular]"))
      else (g.logged id).toJson style (g.renderIn style fuel (id :: outer)) depth

/-- The JSON of a document about a graph, if it has some: exact if that can be, else bounded. -/
def render (g : Graph) (d : Document) : Option Json :=
  let inStyle (style : LogStyle) : Rendered := d.toJson style (g.renderIn style (g.size + 2) []) 0
  (inStyle .exact <|> inStyle .bounded).join

end Graph
end FailureWire
