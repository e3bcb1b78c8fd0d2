import FailureWire.Value.Graph

/-!
# Containers

What lists, records, sets and maps have in common, whether their parts are documents or values of a
graph: a place in them can be read, changed or walked into. Sets and maps tell their members apart by
`Sameness`: a not-a-number is the same as itself and the two zeros are the same, while a change of a
member counts as a change only if the new value is not *identical* to the old one.
-/

namespace FailureWire

/-- The parts of an object that can be walked into; `closed` for anything else. -/
inductive Container (ν : Type) where
  | list (items : List ν)
  | sparse (fields : Fields ν)
  | record (fields : Fields ν)
  | set (members : List ν)
  | map (entries : List (ν × ν))
  | closed

/-- A part of a container. -/
inductive Part where
  | item (i : Nat)
  | field (name : String)
  | member (i : Nat)
  | key (row : Nat)
  | value (row : Nat)
deriving DecidableEq, Repr

def Part.name? : Part → Option String
  | .item i => some (positionName i)
  | .field name => some name
  | _ => none

/-- How sets and maps tell values of a type apart. -/
structure Sameness (ν : Type) where
  undefined : ν
  /-- Whether two values are one member of a set, or one key of a map. -/
  same : ν → ν → Bool
  /-- Whether putting the second value in the place of the first one changes nothing. -/
  identical : ν → ν → Bool
  /-- A value as a member or key: without the sign of zero. -/
  asMember : ν → ν

namespace Container

variable {ν : Type}

def addMember (s : Sameness ν) (members : List ν) (v : ν) : List ν :=
  let v := s.asMember v
  if members.any (s.same v) then members else members ++ [v]

def setOf (s : Sameness ν) (vs : List ν) : List ν := vs.foldl (addMember s) []

/-- Sets the value at a key: in place if the key is there, else at the end. -/
def putEntry (s : Sameness ν) (entries : List (ν × ν)) (k v : ν) : List (ν × ν) :=
  let k := s.asMember k
  if entries.any fun e => s.same k e.1 then
    entries.map fun e => if s.same k e.1 then (e.1, v) else e
  else entries ++ [(k, v)]

def mapOf (s : Sameness ν) (es : List (ν × ν)) : List (ν × ν) :=
  es.foldl (fun entries e => putEntry s entries e.1 e.2) []

/-- The value at a key. -/
def lookup (s : Sameness ν) (entries : List (ν × ν)) (k : ν) : ν :=
  ((entries.find? fun e => s.same k e.1).map (·.2)).getD s.undefined

/-- The part of a container at a place, if the place exists. -/
def get? (c : Container ν) (p : Part) : Option ν :=
  match c, p with
  | .list items, .item i => items[i]?
  | .sparse fields, p => p.name?.bind fields.get?
  | .record fields, .field name => Fields.get? fields name
  | .set members, .member i => members[i]?
  | .map entries, .key row => entries[row]?.map (·.1)
  | .map entries, .value row => entries[row]?.map (·.2)
  | _, _ => none

/-- Puts a new part in the place of an old one, without regard to sameness. -/
def replace (c : Container ν) (p : Part) (v : ν) : Container ν :=
  match c, p with
  | .list items, .item i => .list (items.set i v)
  | .sparse fields, p => .sparse ((p.name?.map fun name => fields.replace name v).getD fields)
  | .record fields, .field name => .record (Fields.replace name v fields)
  | .set members, .member i => .set (members.set i v)
  | .map entries, .key row =>
    match entries[row]? with
    | some e => .map (entries.set row (v, e.2))
    | none => c
  | .map entries, .value row =>
    match entries[row]? with
    | some e => .map (entries.set row (e.1, v))
    | none => c
  | c, _ => c

def setSparse (fields : Fields ν) (p : Part) (v : ν) : Fields ν :=
  match p with
  | .item i => fields.set (positionName i) v
  | .field name => fields.set name v
  | _ => fields

/-- Sets a part of a list. A position behind the end leaves a gap. -/
def setItem (items : List ν) (p : Part) (v : ν) : Container ν :=
  match p with
  | .item i =>
    if i < items.length then .list (items.set i v)
    else if i = items.length then .list (items ++ [v])
    else .sparse (setSparse (.ofItems items) p v)
  | p => .sparse (setSparse (.ofItems items) p v)

/-- Changes the member at a position. A member that really changes goes to the end. -/
def changeMember (s : Sameness ν) (members : List ν) (i : Nat) (v : ν) : List ν :=
  match members[i]? with
  | some old => if s.identical old v then members else addMember s (members.eraseIdx i) v
  | none =>
    if s.identical s.undefined v then members
    else addMember s (members.filter fun m => !s.same s.undefined m) v

/-- Changes the key of an entry. A key that really changes goes to the end with its value. -/
def changeKey (s : Sameness ν) (entries : List (ν × ν)) (row : Nat) (k : ν) : List (ν × ν) :=
  match entries[row]? with
  | some (old, v) =>
    let changed := putEntry s entries k v
    if s.identical k old then changed else changed.eraseIdx row
  | none =>
    let changed := putEntry s entries k (lookup s entries s.undefined)
    if s.identical k s.undefined then changed
    else changed.filter fun e => !s.same s.undefined e.1

/-- Changes the value of an entry; an entry that does not exist has the key `undefined`. -/
def changeValue (s : Sameness ν) (entries : List (ν × ν)) (row : Nat) (v : ν) : List (ν × ν) :=
  match entries[row]? with
  | some (k, _) => entries.set row (k, v)
  | none => putEntry s entries s.undefined v

/-- The value that a change of a place starts from. -/
def current (s : Sameness ν) (c : Container ν) (p : Part) : ν :=
  match c, p with
  | .map entries, .value row =>
    match entries[row]? with
    | some e => e.2
    | none => lookup s entries s.undefined
  | c, p => (c.get? p).getD s.undefined

def change (s : Sameness ν) (c : Container ν) (p : Part) (v : ν) : Container ν :=
  match c, p with
  | .list items, p => setItem items p v
  | .sparse fields, p => .sparse (setSparse fields p v)
  | .record fields, .field name => .record (Fields.set fields name v)
  | .set members, .member i => .set (changeMember s members i v)
  | .map entries, .key row => .map (changeKey s entries row v)
  | .map entries, .value row => .map (changeValue s entries row v)
  | c, _ => c

end Container

/-! ## Documents as containers -/

namespace Document

def container : Document → Container Document
  | .list items => .list items
  | .sparse fields => .sparse fields
  | .record fields => .record fields
  | .set members => .set members
  | .map entries => .map entries
  | _ => .closed

def ofContainer (c : Container Document) (d : Document) : Document :=
  match c with
  | .list items => .list items
  | .sparse fields => .sparse fields
  | .record fields => .record fields
  | .set members => .set members
  | .map entries => .map entries
  | .closed => d

/-- Whether two documents are the same primitive value; objects never are. -/
def same : Document → Document → Bool
  | .undefined, .undefined | .null, .null => true
  | .bool a, .bool b => a = b
  | .number a, .number b => a = b || (a.isZero && b.isZero)
  | .text a, .text b => a = b
  | .big a, .big b => a = b
  | .existing a, .existing b => a = b
  | _, _ => false

def sameness : Sameness Document where
  undefined := .undefined
  same := same
  identical a b := same a b && !(match a with | .number n => n.isNaN | _ => false)
  asMember
    | .number n => .number (if n.isZero then 0 else n)
    | d => d

end Document

/-! ## Objects as containers -/

namespace Node

def container : Node → Container Value
  | .list items => .list items
  | .sparse fields => .sparse fields
  | .record fields => .record fields
  | .set members => .set members
  | .map entries => .map entries
  | _ => .closed

def ofContainer (c : Container Value) (n : Node) : Node :=
  match c with
  | .list items => .list items
  | .sparse fields => .sparse fields
  | .record fields => .record fields
  | .set members => .set members
  | .map entries => .map entries
  | .closed => n

end Node

namespace Value

/-- Whether two values are one member of a set. -/
def same : Value → Value → Bool
  | .number a, .number b => a = b || (a.isZero && b.isZero)
  | a, b => a = b

def sameness : Sameness Value where
  undefined := .undefined
  same := same
  identical a b := same a b && !(match a with | .number n => n.isNaN | _ => false)
  asMember
    | .number n => .number (if n.isZero then 0 else n)
    | v => v

end Value
end FailureWire
