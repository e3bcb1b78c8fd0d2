import FailureWire.Error.Listing
import FailureWire.Text.Units

/-!
# Object graphs

A graph holds the objects that values refer to. Graphs only grow: `Graph.add` puts the objects of a
document behind those that are there, and `Graph.document` reads a value back as a document. Reading
needs no limit on the depth, because a document names an object that it has reached before instead of
describing it again.
-/

namespace FailureWire

/-- An object. -/
inductive Node where
  | record (fields : Fields Value)
  | list (items : List Value)
  | sparse (fields : Fields Value)
  | set (members : List Value)
  | map (entries : List (Value × Value))
  | date (time : Number)
  | pattern (source flags : String)
  | bytes (data : Bytes)
  | numbers (element : ElementType) (items : List Number)
  | boxed (content : Boxed)
  | error (e : ThrownError Value)
deriving Repr

/-- The items of a list; `undefined` where it has a gap. -/
def Node.items? : Node → Option (List Value)
  | .list items => some items
  | .sparse fields => some (fields.slots .undefined)
  | _ => none

/-- The objects that values refer to, by their identities. -/
structure Graph where
  nodes : List Node
deriving Repr, Inhabited

namespace Graph

/-- A graph without objects. -/
def empty : Graph := ⟨[]⟩

/-- The number of objects. -/
def size (g : Graph) : Nat := g.nodes.length

def node? (g : Graph) (id : ObjectId) : Option Node := g.nodes[id]?

def objectOf? (g : Graph) (v : Value) : Option Node := v.id?.bind g.node?

def errorOf? (g : Graph) (v : Value) : Option (ThrownError Value) :=
  match g.objectOf? v with
  | some (.error e) => some e
  | _ => none

def bytesOf? (g : Graph) (v : Value) : Option Bytes :=
  match g.objectOf? v with
  | some (.bytes data) => some data
  | _ => none

def listOf? (g : Graph) (v : Value) : Option (List Value) := (g.objectOf? v).bind Node.items?

/-! ## Properties -/

/-- A property of a value, if it has it: records and errors have named ones. -/
def get? (g : Graph) (v : Value) (name : String) : Option Value :=
  match g.objectOf? v with
  | some (.record fields) => Fields.get? fields name
  | some (.error e) => Fields.get? e.properties name
  | _ => none

/-- A property of a value; `undefined` when it has no such property. -/
def read (g : Graph) (v : Value) (name : String) : Value := .ofOption (g.get? v name)

/-- The properties that a listing of an object shows, in order. -/
def listing (g : Graph) (v : Value) : Fields Document :=
  match g.objectOf? v with
  | some (.record fields) | some (.sparse fields) => fields.mapValues .existing
  | some (.list items) => .ofItems (items.map .existing)
  | some (.bytes data) => .ofItems (data.map fun b => .number (.ofInt b.toNat))
  | some (.numbers _ items) => .ofItems (items.map .number)
  | some (.boxed (.text s)) => .ofItems ((Text.units s.toList).map fun u => .text (Text.ofUnit u))
  | some (.error e) => e.listing
  | _ => []

/-! ## Adding objects -/

def push (g : Graph) (n : Node) : Graph × Value := (⟨g.nodes ++ [n]⟩, .object g.size)

mutual
/-- The value of a document whose objects are numbered from `first` on, and those of its objects that
come next, the first of them with the identity `next`. -/
def layOut (first next : Nat) : Document → Value × List Node
  | .undefined => (.undefined, [])
  | .null => (.null, [])
  | .bool b => (.bool b, [])
  | .number n => (.number n, [])
  | .text s => (.text s, [])
  | .big n => (.big n, [])
  | .record fields =>
    let (fields, nodes) := layOutFields first (next + 1) fields
    (.object next, .record fields :: nodes)
  | .list items =>
    let (items, nodes) := layOutItems first (next + 1) items
    (.object next, .list items :: nodes)
  | .sparse fields =>
    let (fields, nodes) := layOutFields first (next + 1) fields
    (.object next, .sparse fields :: nodes)
  | .set members =>
    let (members, nodes) := layOutItems first (next + 1) members
    (.object next, .set members :: nodes)
  | .map entries =>
    let (entries, nodes) := layOutEntries first (next + 1) entries
    (.object next, .map entries :: nodes)
  | .date time => (.object next, [.date time])
  | .pattern source flags => (.object next, [.pattern source flags])
  | .bytes data => (.object next, [.bytes data])
  | .numbers element items => (.object next, [.numbers element items])
  | .boxed content => (.object next, [.boxed content])
  | .error name message cause stack =>
    let inner := next + 1
    let (name, nodes) := layOut first inner name
    let (message, more) := layOut first (inner + nodes.length) message
    let nodes := nodes ++ more
    let (cause, more) := layOutCause first (inner + nodes.length) cause
    let nodes := nodes ++ more
    let (stack, more) := layOut first (inner + nodes.length) stack
    (.object next,
      .error
        { subclasses := [], name, message, stack := some stack, cause, body := .host true
          extra := [] } ::
        (nodes ++ more))
  | .again k => (.object (first + k), [])
  | .existing v => (v, [])
termination_by structural d => d

def layOutFields (first next : Nat) : List (String × Document) → Fields Value × List Node
  | [] => ([], [])
  | (name, d) :: rest =>
    let (v, nodes) := layOut first next d
    let (fields, more) := layOutFields first (next + nodes.length) rest
    ((name, v) :: fields, nodes ++ more)
termination_by structural fs => fs

def layOutItems (first next : Nat) : List Document → List Value × List Node
  | [] => ([], [])
  | d :: rest =>
    let (v, nodes) := layOut first next d
    let (items, more) := layOutItems first (next + nodes.length) rest
    (v :: items, nodes ++ more)
termination_by structural ds => ds

def layOutEntries (first next : Nat) :
    List (Document × Document) → List (Value × Value) × List Node
  | [] => ([], [])
  | (k, d) :: rest =>
    let (key, keys) := layOut first next k
    let (v, nodes) := layOut first (next + keys.length) d
    let (entries, more) := layOutEntries first (next + keys.length + nodes.length) rest
    ((key, v) :: entries, keys ++ nodes ++ more)
termination_by structural es => es

def layOutCause (first next : Nat) : Option Document → Option Value × List Node
  | none => (none, [])
  | some d =>
    let (v, nodes) := layOut first next d
    (some v, nodes)
termination_by structural d => d
end

def add (g : Graph) (d : Document) : Graph × Value :=
  let (v, nodes) := layOut g.size g.size d
  (⟨g.nodes ++ nodes⟩, v)

/-- Adds an error whose details are a document about the graph. -/
def addError (g : Graph) (e : ThrownError Document) : Graph × Value :=
  let (g, details) := g.add ((e.failure?.bind (·.kind.details?)).getD .undefined)
  g.push (.error (e.map fun _ => details))

/-- Adds a chain of errors, the outermost one first; each becomes the cause of the one before it. -/
def addErrors (g : Graph) : List (ThrownError Document) → Graph × Value
  | [] => (g, .undefined)
  | [e] => g.addError e
  | e :: rest =>
    let (g, cause) := addErrors g rest
    g.addError (e.withCause (some cause))

/-! ## Reading documents -/

/-- The document of a value, given the objects reached before in the order in which they were
reached; `fuel` bounds the number of objects inside each other. -/
def describe (g : Graph) (withStacks : Bool) : Nat → Value → StateM (List ObjectId) Document
  | 0, _ => pure .undefined
  | fuel + 1, v => do
    match v with
    | .undefined => pure .undefined
    | .null => pure .null
    | .bool b => pure (.bool b)
    | .number n => pure (.number n)
    | .text s => pure (.text s)
    | .big n => pure (.big n)
    | .object id =>
      match (← get).idxOf? id with
      | some k => pure (.again k)
      | none =>
        modify fun reached => reached ++ [id]
        match g.node? id with
        | none => pure (.record [])
        | some (.record fields) =>
          return .record
            (← fields.mapM fun (name, v) => do return (name, ← g.describe withStacks fuel v))
        | some (.list items) => return .list (← items.mapM (g.describe withStacks fuel))
        | some (.sparse fields) =>
          return .sparse
            (← fields.mapM fun (name, v) => do return (name, ← g.describe withStacks fuel v))
        | some (.set members) => return .set (← members.mapM (g.describe withStacks fuel))
        | some (.map entries) =>
          return .map (← entries.mapM fun (k, v) => do
            return (← g.describe withStacks fuel k, ← g.describe withStacks fuel v))
        | some (.date time) => pure (.date time)
        | some (.pattern source flags) => pure (.pattern source flags)
        | some (.bytes data) => pure (.bytes data)
        | some (.numbers element items) => pure (.numbers element items)
        | some (.boxed content) => pure (.boxed content)
        | some (.error e) =>
          let name ← g.describe withStacks fuel e.name
          let message ← g.describe withStacks fuel e.message
          let cause ← e.cause.mapM (g.describe withStacks fuel)
          let stack ← match e.stack with
            | some stack => if withStacks then g.describe withStacks fuel stack else pure .undefined
            | none => pure .undefined
          pure (.error name message cause stack)

/-- The document of a value without stacks: all that a payload can carry of it. Objects inside each
other are different objects, so their number bounds the depth. -/
def document (g : Graph) (v : Value) : Document :=
  ((g.describe false (g.size + 2) v).run []).1

/-- The document of a value with the stacks that errors were given. -/
def fullDocument (g : Graph) (v : Value) : Document :=
  ((g.describe true (g.size + 2) v).run []).1

/-! ## Facts -/

@[simp] theorem node?_push_self (g : Graph) (n : Node) :
    (g.push n).1.objectOf? (g.push n).2 = some n := by
  simp [push, objectOf?, Value.id?, node?, size]

end Graph
end FailureWire
