import FailureWire.Text.Json
import FailureWire.Text.Utf8
import FailureWire.Value.Boxed

/-!
# Documents

A document is a value written out as a tree. It describes objects that are to be added to a graph,
and, read off a graph, what a payload can carry of a value. Objects are numbered in the order in which
the tree reaches them; `again k` stands for object number `k`, so that shared and cyclic values have
finite documents too. `existing v` stands for a value of the graph that the document is about.

Of an error a document holds the name, the message, the cause and the stack. The stack is `undefined`
where a document describes what a payload can carry: stacks are not written to payloads.

A list that has gaps, or parts whose names are no positions, is `sparse`: it is described by its
fields, and reads as `undefined` where it has a gap. A `boxed` value is an object of its own that reads
as the value (`FailureWire.Value.Boxed`).
-/

namespace FailureWire

/-- A value written out as a tree. -/
inductive Document where
  | undefined
  | null
  | bool (b : Bool)
  | number (n : Number)
  | text (s : String)
  | big (n : Int)
  | record (fields : List (String × Document))
  | list (items : List Document)
  | sparse (fields : List (String × Document))
  | set (members : List Document)
  | map (entries : List (Document × Document))
  | date (time : Number)
  | pattern (source flags : String)
  | bytes (data : List UInt8)
  | numbers (element : ElementType) (items : List Number)
  | boxed (content : Boxed)
  | error (name message : Document) (cause : Option Document) (stack : Document)
  | again (k : Nat)
  | existing (v : Value)
deriving Repr, BEq, Inhabited

namespace Document

def isObject : Document → Bool
  | .record _ | .list _ | .sparse _ | .set _ | .map _ | .date _ | .pattern _ _ | .bytes _
  | .numbers _ _ | .boxed _ | .error .. => true
  | _ => false

def isUndefined : Document → Bool
  | .undefined => true
  | _ => false

/-- Whether there is nothing: neither a value nor an explicit null. -/
def isMissing : Document → Bool
  | .undefined | .null => true
  | _ => false

/-- An optional document, where nothing is `undefined`. -/
def ofOption : Option Document → Document
  | some d => d
  | none => .undefined

def text? : Document → Option String
  | .text s => some s
  | _ => none

def get? : Document → String → Option Document
  | .record fields, name => Fields.get? fields name
  | _, _ => none

mutual
def objectCount : Document → Nat
  | .record fields | .sparse fields => 1 + countInFields fields
  | .list items | .set items => 1 + countInItems items
  | .map entries => 1 + countInEntries entries
  | .date _ | .pattern _ _ | .bytes _ | .numbers _ _ | .boxed _ => 1
  | .error name message cause stack =>
    1 + objectCount name + objectCount message + countInCause cause + objectCount stack
  | _ => 0
termination_by structural d => d

def countInFields : List (String × Document) → Nat
  | [] => 0
  | (_, d) :: rest => objectCount d + countInFields rest
termination_by structural fs => fs

def countInItems : List Document → Nat
  | [] => 0
  | d :: rest => objectCount d + countInItems rest
termination_by structural ds => ds

def countInEntries : List (Document × Document) → Nat
  | [] => 0
  | (k, d) :: rest => objectCount k + objectCount d + countInEntries rest
termination_by structural es => es

def countInCause : Option Document → Nat
  | none => 0
  | some d => objectCount d
termination_by structural d => d
end

mutual
/-- A document whose objects are numbered from `n` on instead of from 0. -/
def renumber (n : Nat) : Document → Document
  | .record fields => .record (renumberFields n fields)
  | .list items => .list (renumberItems n items)
  | .sparse fields => .sparse (renumberFields n fields)
  | .set members => .set (renumberItems n members)
  | .map entries => .map (renumberEntries n entries)
  | .error name message cause stack =>
    .error (renumber n name) (renumber n message) (renumberCause n cause) (renumber n stack)
  | .again k => .again (n + k)
  | d => d
termination_by structural d => d

def renumberFields (n : Nat) : List (String × Document) → List (String × Document)
  | [] => []
  | (name, d) :: rest => (name, renumber n d) :: renumberFields n rest
termination_by structural fs => fs

def renumberItems (n : Nat) : List Document → List Document
  | [] => []
  | d :: rest => renumber n d :: renumberItems n rest
termination_by structural ds => ds

def renumberEntries (n : Nat) : List (Document × Document) → List (Document × Document)
  | [] => []
  | (k, d) :: rest => (renumber n k, renumber n d) :: renumberEntries n rest
termination_by structural es => es

def renumberCause (n : Nat) : Option Document → Option Document
  | none => none
  | some d => some (renumber n d)
termination_by structural d => d
end

/-- Documents of values of their own as parts of one document, in which the first object of the first
of them has the number `n`. -/
def alignFrom (n : Nat) : List Document → List Document
  | [] => []
  | d :: rest => d.renumber n :: alignFrom (n + d.objectCount) rest

mutual
def ofJson : Json → Document
  | .null => .null
  | .bool b => .bool b
  | .number n => .number n
  | .text s => .text s
  | .list items => .list (ofJsonItems items)
  | .record fields => .record (ofJsonFields fields)
termination_by structural j => j

def ofJsonItems : List Json → List Document
  | [] => []
  | j :: rest => ofJson j :: ofJsonItems rest
termination_by structural js => js

def ofJsonFields : List (String × Json) → List (String × Document)
  | [] => []
  | (k, j) :: rest => (k, ofJson j) :: ofJsonFields rest
termination_by structural fs => fs
end

end Document
end FailureWire
