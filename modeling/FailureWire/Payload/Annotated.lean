import FailureWire.Payload.Path
import FailureWire.Text.Json
import FailureWire.Time.Instant
import FailureWire.Value.Document

/-!
# Plain JSON and its annotations

Payload text holds a value twice over: as plain JSON, in which everything has a form that JSON has, and
as annotations that say which places are to be turned back into what they were. `Document.plain` and
`Document.notes` are the two parts. Both speak of a document without `again`; `Payload.Sharing` says
how shared objects get there.

Both parts are what the `walker` of superjson returns, with the rules of `transformValue` for each kind.
-/

namespace FailureWire

/-- What a place of plain JSON is to be turned back into. -/
inductive Transformation where
  | undefined | big | date | pattern | number | set | map | error | address
  | numbers (arrayName : String)
deriving DecidableEq, Repr

def Transformation.toJson : Transformation → Json
  | .undefined => .text "undefined"
  | .big => .text "bigint"
  | .date => .text "Date"
  | .pattern => .text "regexp"
  | .number => .text "number"
  | .set => .text "set"
  | .map => .text "map"
  | .error => .text "Error"
  | .address => .text "URL"
  | .numbers arrayName => .list [.text "typed-array", .text arrayName]

/-- The annotations of a place: its own transformation, and those below it by their paths from it. -/
structure Notes where
  own : Option Transformation
  below : Fields Json
deriving BEq

namespace Notes

def none : Notes := ⟨.none, []⟩

/-- The annotation of a place alone. -/
def only (t : Transformation) : Notes := ⟨some t, []⟩

/-- The annotations as JSON: those of a place without a transformation are keyed by path. -/
def toJson (notes : Notes) : Json :=
  match notes.own with
  | some t => .list (t.toJson :: if notes.below.isEmpty then [] else [.record notes.below])
  | .none => .record notes.below

/-- Whether there is anything to say. -/
def isEmpty (notes : Notes) : Bool := notes.own.isNone && notes.below.isEmpty

/-- The annotations of a place as seen from the place above it, in which it has this key. -/
def under (key : String) (notes : Notes) : Fields Json :=
  let key := Payload.escapeKey key.toList
  match notes.own with
  | some _ => [(String.ofList key, notes.toJson)]
  | .none => notes.below.map fun (path, j) => (String.ofList (key ++ '.' :: path.toList), j)

/-- The annotations of a place from those of the places below it. -/
def above (own : Option Transformation) (below : List (Fields Json)) : Notes :=
  ⟨own, Fields.ofList below.flatten⟩

end Notes

namespace Document

/-- The plain JSON of a number; a number that JSON lacks is spelled out. -/
def plainNumber (n : Number) : Json :=
  if n = Number.negativeZero then .text "-0"
  else if n.isFinite then .number n else .text (String.ofList n.chars)

/-- A date as plain JSON; an invalid one is lost. -/
def plainDate (time : Number) : Json :=
  match time.toInt? with
  | some ms => .text (String.ofList (Instant.chars ms))
  | none => .null

def plainBoxed : Boxed → Json
  | .bool b => .bool b
  | .number n => .number n
  | .text s => .text s
  | .address a => .text a.href

/-- The annotation of a box: nothing says that a value was in one, but an address is marked. -/
def boxedNotes : Boxed → Notes
  | .address _ => .only .address
  | _ => .none

/-- A date's annotation; an invalid one has none. -/
def dateNotes (time : Number) : Notes := if time.toInt?.isSome then .only .date else .none

mutual
/-- The plain JSON of a document. Of a list it holds the items alone, with null in its gaps. -/
def plain : Document → Json
  | .undefined | .null => .null
  | .bool b => .bool b
  | .number n => plainNumber n
  | .text s => .text s
  | .big n => .text (String.ofList (Number.intChars n))
  | .record fields => .record (plainFields fields)
  | .list items | .set items => .list (plainItems items)
  | .sparse fields => .list (Fields.slots .null (plainFields fields))
  | .map entries => .list (plainEntries entries)
  | .date time => plainDate time
  | .pattern source flags => .text ("/" ++ source ++ "/" ++ flags)
  | .bytes data => .list (data.map fun b => .number (.ofInt b.toNat))
  | .numbers _ items => .list (items.map .number)
  | .error name message cause _ =>
    .record (("name", name.plain) :: ("message", message.plain) :: plainCause cause)
  | .boxed content => plainBoxed content
  | .again _ | .existing _ => .null
termination_by structural d => d

def plainFields : List (String × Document) → List (String × Json)
  | [] => []
  | (k, d) :: rest => (k, d.plain) :: plainFields rest
termination_by structural fs => fs

def plainItems : List Document → List Json
  | [] => []
  | d :: rest => d.plain :: plainItems rest
termination_by structural ds => ds

/-- The plain JSON of entries: lists of a key and a value. -/
def plainEntries : List (Document × Document) → List Json
  | [] => []
  | (k, d) :: rest => .list [k.plain, d.plain] :: plainEntries rest
termination_by structural es => es

def plainCause : Option Document → List (String × Json)
  | none => []
  | some d => [("cause", d.plain)]
termination_by structural d => d
end

mutual
def notes : Document → Notes
  | .undefined => .only .undefined
  | .number n => if n = Number.negativeZero || !n.isFinite then .only .number else .none
  | .big _ => .only .big
  | .record fields | .sparse fields => .above none (notesOfFields fields)
  | .list items => .above none (notesOfItems 0 items)
  | .set items => .above (some .set) (notesOfItems 0 items)
  | .map entries => .above (some .map) (notesOfEntries 0 entries)
  | .date time => dateNotes time
  | .pattern _ _ => .only .pattern
  | .bytes _ => .only (.numbers "Uint8Array")
  | .numbers element _ => .only (.numbers element.arrayName)
  | .error name message cause _ =>
    .above (some .error)
      (name.notes.under "name" :: message.notes.under "message" :: notesOfCause cause)
  | .boxed content => boxedNotes content
  | .null | .bool _ | .text _ | .again _ | .existing _ => .none
termination_by structural d => d

def notesOfFields : List (String × Document) → List (Fields Json)
  | [] => []
  | (k, d) :: rest => d.notes.under k :: notesOfFields rest
termination_by structural fs => fs

def notesOfItems (i : Nat) : List Document → List (Fields Json)
  | [] => []
  | d :: rest => d.notes.under (positionName i) :: notesOfItems (i + 1) rest
termination_by structural ds => ds

/-- The annotations of entries, by their positions from `i` on; the key of an entry is at its
position 0 and the value at 1. -/
def notesOfEntries (i : Nat) : List (Document × Document) → List (Fields Json)
  | [] => []
  | (k, d) :: rest =>
    (Notes.above none [k.notes.under (positionName 0), d.notes.under (positionName 1)]).under
        (positionName i) ::
      notesOfEntries (i + 1) rest
termination_by structural es => es

def notesOfCause : Option Document → List (Fields Json)
  | none => []
  | some d => [d.notes.under "cause"]
termination_by structural d => d
end

end Document
end FailureWire
