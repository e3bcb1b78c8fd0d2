import FailureWire.Payload.Path
import FailureWire.Value.Container
import FailureWire.Value.Method

/-!
# Places

`resolve` walks a path of keys through containers, of which `peek` shows one at a time, and says which
parts the path passes and where it ends. A list is walked into by number, a record by name, a set by
position, and a map by two keys, a row and then 0 for its key or anything else for its value. A number
that is no position names a part of a list all the same. The row behind the last one of a map is that
of the key `undefined`. A path that leaves the containers ends nowhere.

A walk is superjson's `getDeep`, a change at its end is `setDeep`.
-/

namespace FailureWire.Payload

/-- Where a path ends: the parts that lead to a container, and the part of that container. -/
structure Place where
  parts : List Part
  last : Part
deriving DecidableEq, Repr

def keyNumber (key : String) : Number := Number.ofText key.toList

/-- The part of a list that a key selects: the one that the number is the name of. -/
def listPart (key : String) : Part :=
  let name := String.ofList (keyNumber key).chars
  ((positionOf? name).map .item).getD (.field name)

/-- The row of a set or map of this size that a number selects: the first one for a number that is not
positive, and none but a fault behind the row after the last one. -/
def row (size : Nat) (n : Number) : Except Fault Nat :=
  if (Number.ofInt size).less n then .error .outOfBounds
  else if n.isNaN || n.isNegative then .ok 0
  else .ok (-((-n.value).floor)).toNat

def rowPart (row : Nat) (key : String) : Part :=
  if (keyNumber key).isZero then .key row else .value row

variable {ν : Type}

/-- The entry of a map that a row stands for: behind the last row, the one with the key `undefined`. -/
def entryAt? (s : Sameness ν) (entries : List (ν × ν)) (row : Nat) : Option Nat :=
  if row < entries.length then some row else entries.findIdx? fun e => s.same s.undefined e.1

def innerPart? (s : Sameness ν) (entries : List (ν × ν)) (row : Nat) (key : String) : Option Part :=
  match rowPart row key with
  | .value row => (entryAt? s entries row).map .value
  | part => some part

def Place.behind (p : Part) (place : Option Place) : Option Place :=
  place.map fun place => { place with parts := p :: place.parts }

/-- Where a path that is not empty ends; `previous` is the key before it. -/
def resolve (s : Sameness ν) (peek : ν → Container ν) (previous : Option String) :
    List String → ν → Except Fault (Option Place)
  | [], _ => .ok none
  | [key], v =>
    match peek v with
    | .list _ | .sparse _ => .ok (some ⟨[], listPart key⟩)
    | .record _ => .ok (some ⟨[], .field key⟩)
    | .set members => do return some ⟨[], .member (← row members.length (keyNumber key))⟩
    | .map entries => do
      let n := (previous.map keyNumber).getD .nan
      return some ⟨[], rowPart (← row entries.length n) key⟩
    | .closed => .ok none
  | key :: next :: rest, v =>
    match peek v with
    | .list items =>
      match (Container.list items).get? (listPart key) with
      | some w => do
        return Place.behind (listPart key) (← resolve s peek (some key) (next :: rest) w)
      | none => .ok none
    | .sparse fields =>
      match (Container.sparse fields).get? (listPart key) with
      | some w => do
        return Place.behind (listPart key) (← resolve s peek (some key) (next :: rest) w)
      | none => .ok none
    | .record fields =>
      match Fields.get? fields key with
      | some w => do return Place.behind (.field key) (← resolve s peek (some key) (next :: rest) w)
      | none => .ok none
    | .set members => do
      let i ← row members.length (keyNumber key)
      match members[i]? with
      | some w => return Place.behind (.member i) (← resolve s peek (some key) (next :: rest) w)
      | none => return none
    | .map entries => do
      let i ← row entries.length (keyNumber key)
      if rest.isEmpty then return some ⟨[], rowPart i next⟩
      else
        let part? := innerPart? s entries i next
        match part?, part?.bind (Container.map entries).get? with
        | some part, some w => return Place.behind part (← resolve s peek (some next) rest w)
        | _, _ => return none
    | .closed => .ok none

/-- Fails if a path has a key that could change what other objects inherit. -/
def checkKeys (path : List String) : Except Fault Unit :=
  match ["__proto__", "prototype", "constructor"].find? path.contains with
  | some key => .error (.forbiddenSegment key)
  | none => .ok ()

/-! ## Changing documents -/

/-- What stands at a place: a part of a document, or a function that records inherit. -/
inductive Occupant where
  | part (d : Document)
  | method (m : Method)

/-- What is put in the place of something; none if it is left as it is. -/
abbrev Change := Occupant → Except Fault (Option Document)

def occupant (c : Container Document) (p : Part) : Occupant :=
  let part := c.current Document.sameness p
  match c, p with
  | .record fields, .field name =>
    if fields.has name then .part part
    else match Method.find? [] name with
      | some m => .method m
      | none => .part part
  | _, _ => .part part

def changeBehind (f : Document → Except Fault Document) :
    List Part → Document → Except Fault Document
  | [], d => f d
  | p :: rest, d =>
    match d.container.get? p with
    | some inner => do
      let inner ← changeBehind f rest inner
      return .ofContainer (d.container.replace p inner) d
    | none => .ok d

def changePart (f : Change) (p : Part) (d : Document) : Except Fault Document := do
  match ← f (occupant d.container p) with
  | some new => return .ofContainer (d.container.change Document.sameness p new) d
  | none => return d

def changeAt (f : Change) (place : Place) (d : Document) : Except Fault Document :=
  changeBehind (changePart f place.last) place.parts d

/-- Changes the document at the end of a path, if the path ends anywhere. -/
def changeAtPath (f : Change) (path : List String) (d : Document) : Except Fault Document := do
  checkKeys path
  if path.isEmpty then return (← f (.part d)).getD d
  else
    match ← resolve Document.sameness Document.container none path d with
    | some place => changeAt f place d
    | none => return d

end FailureWire.Payload
