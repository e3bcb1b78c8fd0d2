import FailureWire.Payload.Annotated

/-!
# Shared objects in payload text

Plain JSON repeats an object that occurs several times, and has null where an object occurs inside
itself. `Document.unfold` writes a document out in this way. Which places hold the same object is said
beside it: `Document.occurrences` lists the places of everything that has an identity, and
`equalities` collects those that occur at several.

Whole numbers of any size and the not-a-number are told apart by their value only, so that two equal
ones count as the same.

`equalities` is superjson's `generateReferentialEqualityAnnotations`; `encodeText` is `superjson.stringify`.
-/

namespace FailureWire

/-- What makes two occurrences the same. -/
inductive Identity where
  | object (k : Nat)
  | big (n : Int)
  | nan
deriving DecidableEq, Repr

/-- A place inside a value, and what occurs there. -/
structure Occurrence where
  path : List String
  identity : Identity
deriving DecidableEq, Repr

namespace Document

/-! ## Writing out shared objects -/

/-- The written-out forms of the objects reached so far; none for an object that is being written. -/
abbrev Unfolded := List (Option Document)

/-- Writes an object out: it takes the next number, and its form is known once its parts are. -/
def unfoldObject (parts : StateM Unfolded Document) : StateM Unfolded Document := do
  let k := (← get).length
  modify (· ++ [none])
  let d ← parts
  modify fun forms => forms.set k (some d)
  return d

/-- An object reached before: its form, or null inside itself. -/
def unfoldAgain (k : Nat) : StateM Unfolded Document := do
  return ((← get)[k]?.join).getD .null

mutual
/-- Writes a document out, given the objects before it. -/
def unfoldAfter : Document → StateM Unfolded Document
  | .undefined => pure .undefined
  | .null => pure .null
  | .bool b => pure (.bool b)
  | .number n => pure (.number n)
  | .text s => pure (.text s)
  | .big n => pure (.big n)
  | .record fields => unfoldObject do return .record (← unfoldFields fields)
  | .list items => unfoldObject do return .list (← unfoldItems items)
  | .sparse fields => unfoldObject do return .sparse (← unfoldFields fields)
  | .set members => unfoldObject do return .set (← unfoldItems members)
  | .map entries => unfoldObject do return .map (← unfoldEntries entries)
  | .date time => unfoldObject (pure (.date time))
  | .pattern source flags => unfoldObject (pure (.pattern source flags))
  | .bytes data => unfoldObject (pure (.bytes data))
  | .numbers element items => unfoldObject (pure (.numbers element items))
  | .boxed content => unfoldObject (pure (.boxed content))
  | .error name message cause stack => unfoldObject do
    let name ← unfoldAfter name
    let message ← unfoldAfter message
    let cause ← unfoldCause cause
    return .error name message cause stack
  | .again k => unfoldAgain k
  | .existing v => pure (.existing v)
termination_by structural d => d

def unfoldFields : List (String × Document) → StateM Unfolded (List (String × Document))
  | [] => pure []
  | (k, d) :: rest => do
    let d ← unfoldAfter d
    let rest ← unfoldFields rest
    return (k, d) :: rest
termination_by structural fs => fs

def unfoldItems : List Document → StateM Unfolded (List Document)
  | [] => pure []
  | d :: rest => do
    let d ← unfoldAfter d
    let rest ← unfoldItems rest
    return d :: rest
termination_by structural ds => ds

def unfoldEntries :
    List (Document × Document) → StateM Unfolded (List (Document × Document))
  | [] => pure []
  | (k, d) :: rest => do
    let k ← unfoldAfter k
    let d ← unfoldAfter d
    let rest ← unfoldEntries rest
    return (k, d) :: rest
termination_by structural es => es

def unfoldCause : Option Document → StateM Unfolded (Option Document)
  | none => pure none
  | some d => do return some (← unfoldAfter d)
termination_by structural d => d
end

/-- A document without `again`: shared objects repeated, an object inside itself replaced by null. -/
def unfold (d : Document) : Document := ((unfoldAfter d).run []).1

/-! ## Occurrences -/

def nextNumber : StateM Nat Nat := modifyGet fun k => (k, k + 1)

mutual
/-- What has an identity in a document at a path, in the order in which it is reached. The state is
the number of the next object. -/
def occurrencesAt (path : List String) : Document → StateM Nat (List Occurrence)
  | .number n => pure (if n.isNaN then [⟨path, .nan⟩] else [])
  | .big n => pure [⟨path, .big n⟩]
  | .undefined | .null | .bool _ | .text _ | .existing _ => pure []
  | .again k => pure [⟨path, .object k⟩]
  | .date _ | .pattern _ _ | .bytes _ | .numbers _ _ | .boxed _ => do
    return [⟨path, .object (← nextNumber)⟩]
  | .record fields | .sparse fields => do
    let k ← nextNumber
    return ⟨path, .object k⟩ :: (← occurrencesInFields path fields)
  | .list items | .set items => do
    let k ← nextNumber
    return ⟨path, .object k⟩ :: (← occurrencesInItems path 0 items)
  | .map entries => do
    let k ← nextNumber
    return ⟨path, .object k⟩ :: (← occurrencesInEntries path 0 entries)
  | .error name message cause _ => do
    let k ← nextNumber
    let inName ← occurrencesAt (path ++ ["name"]) name
    let inMessage ← occurrencesAt (path ++ ["message"]) message
    let inCause ← occurrencesInCause path cause
    return ⟨path, .object k⟩ :: (inName ++ inMessage ++ inCause)
termination_by structural d => d

def occurrencesInFields (path : List String) :
    List (String × Document) → StateM Nat (List Occurrence)
  | [] => pure []
  | (k, d) :: rest => do
    let here ← occurrencesAt (path ++ [k]) d
    return here ++ (← occurrencesInFields path rest)
termination_by structural fs => fs

def occurrencesInItems (path : List String) (i : Nat) :
    List Document → StateM Nat (List Occurrence)
  | [] => pure []
  | d :: rest => do
    let here ← occurrencesAt (path ++ [positionName i]) d
    return here ++ (← occurrencesInItems path (i + 1) rest)
termination_by structural ds => ds

def occurrencesInEntries (path : List String) (i : Nat) :
    List (Document × Document) → StateM Nat (List Occurrence)
  | [] => pure []
  | (k, d) :: rest => do
    let inKey ← occurrencesAt (path ++ [positionName i, positionName 0]) k
    let inValue ← occurrencesAt (path ++ [positionName i, positionName 1]) d
    return inKey ++ inValue ++ (← occurrencesInEntries path (i + 1) rest)
termination_by structural es => es

def occurrencesInCause (path : List String) : Option Document → StateM Nat (List Occurrence)
  | none => pure []
  | some d => occurrencesAt (path ++ ["cause"]) d
termination_by structural d => d
end

/-- What has an identity in a document, in the order in which it is reached. -/
def occurrences (d : Document) : List Occurrence := ((occurrencesAt [] d).run 0).1

/-! ## Keys that must not be written -/

/-- Whether a key could change what other objects inherit. -/
def isUnsafeKey (key : String) : Bool :=
  key = "__proto__" || key = "constructor" || key = "prototype"

mutual
/-- The first key in a document that must not be written. -/
def unsafeKey? : Document → Option String
  | .record fields | .sparse fields => unsafeKeyInFields? fields
  | .list items | .set items => unsafeKeyInItems? items
  | .map entries => unsafeKeyInEntries? entries
  | .error name message cause _ =>
    unsafeKey? name <|> unsafeKey? message <|> unsafeKeyInCause? cause
  | _ => none
termination_by structural d => d

/-- The first key in fields that must not be written. -/
def unsafeKeyInFields? : List (String × Document) → Option String
  | [] => none
  | (k, d) :: rest => if isUnsafeKey k then some k else unsafeKey? d <|> unsafeKeyInFields? rest
termination_by structural fs => fs

/-- The first key in items that must not be written. -/
def unsafeKeyInItems? : List Document → Option String
  | [] => none
  | d :: rest => unsafeKey? d <|> unsafeKeyInItems? rest
termination_by structural ds => ds

/-- The first key in entries that must not be written. -/
def unsafeKeyInEntries? : List (Document × Document) → Option String
  | [] => none
  | (k, d) :: rest => unsafeKey? k <|> unsafeKey? d <|> unsafeKeyInEntries? rest
termination_by structural es => es

/-- The first key in an error's cause that must not be written. -/
def unsafeKeyInCause? : Option Document → Option String
  | none => none
  | some d => unsafeKey? d
termination_by structural d => d
end

end Document

namespace Payload

def pathText (path : List String) : String :=
  String.ofList (joinPath (path.map String.toList))

/-- The different identities, in the order in which they first occur. -/
def identitiesOf (occurrences : List Occurrence) : List Identity :=
  (occurrences.map (·.identity)).eraseDups

/-- The paths at which an identity occurs, short ones first. -/
def pathsOf (occurrences : List Occurrence) (identity : Identity) : List (List String) :=
  let paths := (occurrences.filter fun o => o.identity = identity).map (·.path)
  paths.mergeSort fun p q => p.length ≤ q.length

/-- The equalities of a value: those of the value itself with places inside it, and by the path of one
place the paths of the other ones that hold the same. -/
structure Equalities where
  ofRoot : Option (List String)
  ofPlaces : Fields (List String)

/-- Which places hold the same. -/
def equalities (occurrences : List Occurrence) : Equalities :=
  let groups := (identitiesOf occurrences).map (pathsOf occurrences)
  let repeated := groups.filterMap fun
    | first :: second :: rest => some (first, (second :: rest).map pathText)
    | _ => none
  { ofRoot := (repeated.filter fun g => g.1.isEmpty).getLast?.map (·.2)
    ofPlaces := Fields.ofList
      ((repeated.filter fun g => !g.1.isEmpty).map fun g => (pathText g.1, g.2)) }

/-- Equalities as JSON; none when there are none. -/
def Equalities.toJson? (e : Equalities) : Option Json :=
  let texts (paths : List String) : Json := .list (paths.map .text)
  let places : Json := .record (e.ofPlaces.mapValues texts)
  match e.ofRoot with
  | some paths => some (.list (texts paths :: if e.ofPlaces.isEmpty then [] else [places]))
  | none => if e.ofPlaces.isEmpty then none else some places

/-- The JSON of a payload: the plain JSON of a value and, where there is anything to say, its
annotations, its equalities and the version of their form. -/
def jsonOf (d : Document) : Json :=
  let unfolded := d.unfold
  let notes := unfolded.notes
  let values := if notes.isEmpty then [] else [("values", notes.toJson)]
  let shared := (equalities d.occurrences).toJson?.toList.map fun j => ("referentialEqualities", j)
  let note := values ++ shared
  let note := if note.isEmpty then [] else [("meta", Json.record (note ++ [("v", .number 1)]))]
  .record (("json", unfolded.plain) :: note)

/-- Payload text of a document. -/
def encodeText (d : Document) : Except Fault (List Char) :=
  match d.unsafeKey? with
  | some key => .error (.unsafeKey key)
  | none => .ok (jsonOf d).chars

end Payload
end FailureWire
