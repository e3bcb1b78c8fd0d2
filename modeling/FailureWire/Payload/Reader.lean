import FailureWire.Payload.Revive
import FailureWire.Payload.Sharing
import FailureWire.Text.Units

/-!
# Reading payload text

`decodeText` reads payload text: the plain JSON first, then the annotations in the order in which they
are written, those below a place before its own, and last the equalities. Reading is strict about the
text and about annotations, and lenient about places that do not exist.

| here | there |
| --- | --- |
| `reviveTree` | `applyValueAnnotations` of superjson, in the order of its `traverse` |
| `valueAt`, `putAt` | `getDeep`, `setDeep` |
| `applyEqualities` | `applyReferentialEqualityAnnotations` |
| `ofJson`, `decodeText` | `superjson.deserialize`, `superjson.parse` |
-/

namespace FailureWire.Payload

/-! ## Annotations -/

def keysOf (legacy : Bool) (path : String) : Except Fault (List String) := do
  return (← parsePath legacy path.toList).map String.ofList

/-- Turns the value at a path back. -/
def reviveAt (host : Host) (path : List String) (note : Option Json) (d : Document) :
    Except Fault Document :=
  changeAtPath (revive host note) path d

/-- Whether a JSON value counts as true. -/
def isTruthy : Json → Bool
  | .null => false
  | .bool b => b
  | .number n => !n.isZero
  | .text s => !s.isEmpty
  | .list _ | .record _ => true

mutual
/-- Follows the annotations of the place at a path. A word where a table is expected never ends: each
of its letters is a word again. -/
def reviveTree (host : Host) (legacy : Bool) (path : List String) : Json → Document → Except Fault Document
  | .record fields, d => reviveFields host legacy path fields d
  | .list [], d => reviveAt host path none d
  | .list [note], d => reviveAt host path (some note) d
  | .list (note :: below :: _), d => do
    let d ← reviveBelow host legacy path below d
    reviveAt host path (some note) d
  | .text s, d => if s.isEmpty then .ok d else .error .outOfRange
  | _, d => .ok d
termination_by structural j => j

/-- Follows the annotations below the place at a path. -/
def reviveBelow (host : Host) (legacy : Bool) (path : List String) : Json → Document → Except Fault Document
  | .record fields, d => reviveFields host legacy path fields d
  | .list items, d => reviveItems host legacy path 0 items d
  | .text s, d => if s.isEmpty then .ok d else .error .outOfRange
  | _, d => .ok d
termination_by structural j => j

/-- Follows annotations that are keyed by paths. -/
def reviveFields (host : Host) (legacy : Bool) (path : List String) :
    List (String × Json) → Document → Except Fault Document
  | [], d => .ok d
  | (key, j) :: rest, d => do
    let keys ← keysOf legacy key
    let d ← reviveTree host legacy (path ++ keys) j d
    reviveFields host legacy path rest d
termination_by structural fs => fs

/-- Follows annotations that are keyed by positions, from `i` on. -/
def reviveItems (host : Host) (legacy : Bool) (path : List String) (i : Nat) :
    List Json → Document → Except Fault Document
  | [], d => .ok d
  | j :: rest, d => do
    let d ← reviveTree host legacy (path ++ [positionName i]) j d
    reviveItems host legacy path (i + 1) rest d
termination_by structural js => js
end

/-! ## Equalities -/

def containerOf (g : Graph) (v : Value) : Container Value :=
  match g.objectOf? v with
  | some n => n.container
  | none => .closed

/-- What a path passes through: a value, a function that a value inherits, or the search parameters of
an address. -/
inductive Station where
  | value (v : Value)
  | method (m : Method)
  | searchOf (a : Address)

/-- A property that is an inherited function, or `undefined`. -/
def inherited (methods : List Method) (name : String) : Station :=
  match Method.find? methods name with
  | some m => .method m
  | none => .value .undefined

/-- A property of a sequence: an item, the length, or what it inherits. -/
def itemOf {α : Type} (methods : List Method) (xs : List α) (f : α → Value) (name : String) : Station :=
  match positionOf? name with
  | some i => .value ((xs[i]?.map f).getD .undefined)
  | none => if name = "length" then .value (.number (.ofInt xs.length)) else inherited methods name

/-- A property of a numeric array, whose items take so many bytes. -/
def numericItemOf {α : Type} (width : Nat) (xs : List α) (f : α → Value) (name : String) : Station :=
  match name with
  | "byteLength" => .value (.number (.ofInt (width * xs.length)))
  | "byteOffset" => .value (.number 0)
  | "BYTES_PER_ELEMENT" => .value (.number (.ofInt width))
  | name => itemOf Method.ofNumericArrays xs f name

def flagNames : List (String × Char) :=
  [("hasIndices", 'd'), ("global", 'g'), ("ignoreCase", 'i'), ("multiline", 'm'), ("dotAll", 's'),
    ("unicode", 'u'), ("unicodeSets", 'v'), ("sticky", 'y')]

def patternPart (source flags name : String) : Station :=
  match name with
  | "source" => .value (.text source)
  | "flags" => .value (.text flags)
  | "lastIndex" => .value (.number 0)
  | name =>
    match Fields.get? flagNames name with
    | some flag => .value (.bool (flags.toList.contains flag))
    | none => inherited Method.ofPatterns name

/-- A property of a function. -/
def methodPart (m : Method) (name : String) : Except Fault Station :=
  match name with
  | "name" => .ok (.value (.text m.name))
  | "length" => .ok (.value (.number (.ofInt m.parameters)))
  | "caller" | "arguments" => .error .wrongType
  | name => .ok (inherited Method.ofFunctions name)

/-- A property of a text: one of its units, their number, or what it inherits. -/
def textPart (s name : String) : Except Fault Station := do
  match positionOf? name with
  | some i => return .value (.ofOption ((← Text.unitAt s.toList i).map .text))
  | none =>
    if name = "length" then return .value (.number (.ofInt (Text.units s.toList).length))
    else return inherited Method.ofTexts name

/-- A property of a value that is no object. -/
def primitivePart (v : Value) (name : String) : Except Fault Station :=
  match v with
  | .text s => textPart s name
  | .number _ => .ok (inherited Method.ofNumbers name)
  | _ => .ok (inherited [] name)

def addressPart (a : Address) (name : String) : Station :=
  if name = "searchParams" then .searchOf a
  else (Fields.get? a.parts name).elim (inherited Method.ofAddresses name) fun s => .value (.text s)

def searchPart (a : Address) (name : String) : Station :=
  if name = "size" then .value (.number (.ofInt a.searchCount)) else inherited Method.ofSearches name

/-- A property of a value of a graph, where anything may be asked of anything. -/
def propertyOf (g : Graph) (v : Value) (name : String) : Except Fault Station :=
  match v with
  | .undefined | .null => .error .wrongType
  | .object _ =>
    match g.objectOf? v with
    | some (.list items) => .ok (itemOf Method.ofLists items id name)
    | some (.sparse fields) =>
      .ok ((fields.get? name).elim (itemOf Method.ofLists (fields.slots .undefined) id name) .value)
    | some (.bytes data) => .ok (numericItemOf 1 data (fun b => .number (.ofInt b.toNat)) name)
    | some (.numbers element items) => .ok (numericItemOf element.width items .number name)
    | some (.date _) => .ok (inherited Method.ofDates name)
    | some (.pattern source flags) => .ok (patternPart source flags name)
    | some (.boxed (.address a)) => .ok (addressPart a name)
    | some (.boxed content) => primitivePart content.primitive name
    | _ => .ok ((g.get? v name).elim (inherited [] name) .value)
  | v => primitivePart v name

/-- A property of what a path passes through. -/
def Station.property (g : Graph) (s : Station) (name : String) : Except Fault Station :=
  match s with
  | .value v => propertyOf g v name
  | .method m => methodPart m name
  | .searchOf a => .ok (searchPart a name)

/-- The container that a path passes through. -/
def Station.container (g : Graph) : Station → Container Value
  | .value v => containerOf g v
  | .method _ | .searchOf _ => .closed

def mapPart (entries : List (Value × Value)) (p : Part) : Station :=
  .value (Container.current Value.sameness (.map entries) p)

/-- What stands at the end of a path. -/
def stationAt (g : Graph) : List String → Station → Except Fault Station
  | [], s => .ok s
  | key :: rest, s =>
    match s.container g, rest with
    | .set members, rest => do
      let i ← row members.length (keyNumber key)
      stationAt g rest (.value (members[i]?.getD .undefined))
    | .map entries, [] => do
      let i ← row entries.length (keyNumber key)
      return mapPart entries (.value i)
    | .map entries, part :: rest => do
      let i ← row entries.length (keyNumber key)
      stationAt g rest (mapPart entries (rowPart i part))
    | _, rest => do stationAt g rest (← s.property g key)

/-- The value at the end of a path; `undefined` for what is no value here: a function, or the search
parameters of an address. -/
def valueAt (g : Graph) (path : List String) (v : Value) : Except Fault Value := do
  match ← stationAt g path (.value v) with
  | .value w => return w
  | .method _ | .searchOf _ => return .undefined

/-- The container at the end of some parts. -/
def valueBehind (g : Graph) : List Part → Value → Option Value
  | [], v => some v
  | p :: rest, v => ((containerOf g v).get? p).bind fun w => valueBehind g rest w

def changeContainer (g : Graph) (v : Value) (c : Container Value) : Graph :=
  match v with
  | .object id => ⟨g.nodes.modify id fun n => n.ofContainer c⟩
  | _ => g

/-- Puts a value at the end of a path, if the path ends anywhere. -/
def putAt (g : Graph) (root : Value) (path : List String) (v : Value) : Except Fault Graph := do
  checkKeys path
  match ← resolve Value.sameness (containerOf g) none path root with
  | some ⟨parts, p⟩ =>
    match valueBehind g parts root with
    | some w => return changeContainer g w ((containerOf g w).change Value.sameness p v)
    | none => return g
  | none => return g

/-- The keys of a path in equalities, where it should be a text. What has no length is an empty path;
what has one and is no text has no characters. -/
def keysOfJson (legacy : Bool) : Json → Except Fault (List String)
  | .text s => keysOf legacy s
  | .null | .list (_ :: _) => .error .wrongType
  | .record fields => do
    let length := (Fields.get? fields "length").map Document.ofJson
    if Number.less 0 (← (Document.ofOption length).toNumber) then .error .wrongType else .ok [""]
  | _ => .ok [""]

def putAtAll (legacy : Bool) (root v : Value) (paths : List Json) (g : Graph) :
    Except Fault Graph := do
  let paths ← paths.mapM (keysOfJson legacy)
  paths.foldlM (fun g path => putAt g root path v) g

/-- Makes places hold the same as the place at a path. -/
def equate (legacy : Bool) (root : Value) (path : String) (paths : Json) (g : Graph) :
    Except Fault Graph := do
  let keys ← keysOf legacy path
  checkKeys keys
  let v ← valueAt g keys root
  match paths with
  | .list paths => putAtAll legacy root v paths g
  | _ => .error .wrongType

def equalityEntries : Json → Fields Json
  | .record fields => fields
  | .list items => .ofItems items
  | .text s => .ofItems (s.toList.map fun c => .text c.toString)
  | _ => []

/-- Makes places hold the same, table by table. -/
def equateAll (legacy : Bool) (root : Value) (table : Json) (g : Graph) : Except Fault Graph :=
  (equalityEntries table).foldlM (fun g (path, paths) => equate legacy root path paths g) g

/-- Makes places inside a value hold the value itself, one after the other. -/
def equateRoot (legacy : Bool) (root : Value) (paths : Json) (g : Graph) : Except Fault Graph :=
  match paths with
  | .list paths =>
    paths.foldlM (fun g path => do putAt g root (← keysOfJson legacy path) root) g
  | _ => .error .wrongType

/-- Follows the equalities of a payload. -/
def applyEqualities (legacy : Bool) (equalities : Json) (root : Value) (g : Graph) :
    Except Fault Graph :=
  match equalities with
  | .list [] => .error .wrongType
  | .list [ofRoot] => equateRoot legacy root ofRoot g
  | .list (ofRoot :: places :: _) => do
    let g ← equateRoot legacy root ofRoot g
    if isTruthy places then equateAll legacy root places g else return g
  | table => equateAll legacy root table g

/-! ## Texts -/

/-- Whether annotations follow the older rules for paths. -/
def isLegacy (notes : Json) : Except Fault Bool := do
  let version : Document := match notes.get? "v" with
    | none | some .null => .number 0
    | some j => .ofJson j
  return (← version.toNumber).less 1

/-- A part of the annotations that counts. -/
def notesAt? (notes : Json) (name : String) : Option Json := (notes.get? name).filter isTruthy

/-- The value of the JSON of a payload. Its document is read off a graph of its own, so that it speaks
of nothing outside itself. -/
def ofJson (host : Host) (j : Json) : Except Fault Document :=
  match j with
  | .null => .error .wrongType
  | j => do
    let plain := .ofOption ((j.get? "json").map Document.ofJson)
    let notes := (j.get? "meta").getD .null
    let d ← match notesAt? notes "values" with
      | some values => reviveTree host (← isLegacy notes) [] values plain
      | none => pure plain
    let (g, root) := Graph.empty.add d
    let g ← match notesAt? notes "referentialEqualities" with
      | some equalities => applyEqualities (← isLegacy notes) equalities root g
      | none => pure g
    return g.fullDocument root

/-- The value of payload text. -/
def decodeText (host : Host) (s : List Char) : Except Fault Document :=
  match Json.parse? s with
  | some j => if Json.halvesPaired false s then ofJson host j else .error .loneHalf
  | none => .error .badText

end FailureWire.Payload
