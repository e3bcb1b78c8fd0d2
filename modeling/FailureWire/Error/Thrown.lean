import FailureWire.Error.Kind
import FailureWire.Value.Document

/-!
# Errors

An error has a name, a message, a stack and possibly a cause. Errors of the host have nothing more;
those of this library carry a code and a context; failures also carry a text for display, the stack
trace that another process reported, and the wire failure that they were decoded from.

Any of these may be any value. The class of an error, on the other hand, follows from its body and the
classes that users derived from the body's class, so that an error can never disagree with its class.

The fields are those of `BaseError` (`code`, `context`) and of `FailureError` (`displayMessage`, `failure`,
`stackTrace`), and the ones that the classes below it declare.
-/

namespace FailureWire

/-- A fault that validation found, with the path of the place where it is. -/
structure Issue where
  path : String
  message : String
deriving DecidableEq, Repr

/-- The errors of this library that are no failures. -/
inductive LibraryError where
  /-- An error of a class that users derive. -/
  | base
  /-- Replaying a history gave commands that do not match it. -/
  | nondeterminism
  /-- A configuration is invalid. -/
  | configuration
  /-- A value is no wire failure. -/
  | wireFormat
deriving DecidableEq, Repr

def LibraryError.errorClass : LibraryError → ErrorClass
  | .base => .base
  | .nondeterminism => .nondeterminism
  | .configuration => .configuration
  | .wireFormat => .wireFormat

/-- What a failure carries beyond a message. -/
structure FailureFields (δ : Type) where
  displayMessage : Value
  /-- The wire failure that the failure was decoded from; `undefined` if there is none. -/
  stored : Value
  /-- The stack trace as the raising process reported it; it may be empty. -/
  stackTrace : Value
  kind : FailureKind δ
deriving DecidableEq, Repr

/-- What an error carries by its class. -/
inductive ErrorBody (δ : Type) where
  /-- An error of the host or of user code; `named` if it was given a name of its own. -/
  | host (named : Bool)
  /-- An error of this library that is no failure. -/
  | library (sort : LibraryError) (code : Value) (context : Document)
  /-- A failure of the taxonomy. -/
  | failure (code : Value) (context : Document) (fields : FailureFields δ)
deriving Repr

namespace ErrorBody

variable {δ ε : Type}

/-- The class of errors with this body, before users derive from it. -/
def errorClass : ErrorBody δ → ErrorClass
  | .host _ => .error
  | .library sort _ _ => sort.errorClass
  | .failure _ _ f => f.kind.errorClass

def code? : ErrorBody δ → Option Value
  | .host _ => none
  | .library _ code _ | .failure code _ _ => some code

def context? : ErrorBody δ → Option Document
  | .host _ => none
  | .library _ _ context | .failure _ context _ => some context

def failure? : ErrorBody δ → Option (FailureFields δ)
  | .failure _ _ f => some f
  | _ => none

/-- A body with its details mapped. -/
def map (f : δ → ε) : ErrorBody δ → ErrorBody ε
  | .host named => .host named
  | .library sort code context => .library sort code context
  | .failure code context fs =>
    .failure code context ⟨fs.displayMessage, fs.stored, fs.stackTrace, fs.kind.map f⟩

def properties (b : ErrorBody Value) : Fields Value :=
  (b.code?.map fun code => ("code", code)).toList ++
    match b.failure? with
    | some f =>
      [("displayMessage", f.displayMessage), ("failure", f.stored), ("stackTrace", f.stackTrace)] ++
        f.kind.properties
    | none => []

/-- A body with every property read anew: by its name, and given the value that it had. -/
def reread (read : String → Value → Value) (context : Option Value) :
    ErrorBody Value → ErrorBody Value
  | .host named => .host named
  | .library sort code old =>
    .library sort (read "code" code) ((context.map .existing).getD old)
  | .failure code old f =>
    .failure (read "code" code) ((context.map .existing).getD old)
      ⟨read "displayMessage" f.displayMessage, read "failure" f.stored,
        read "stackTrace" f.stackTrace, f.kind.reread read⟩

end ErrorBody

/-- An error; `δ` is the type of its details. -/
structure ThrownError (δ : Type) where
  /-- The classes derived from the body's class, the most general one first. -/
  subclasses : List String
  name : Value
  message : Value
  /-- The stack that the error was given; an error without one shows its name and its message. -/
  stack : Option Value
  /-- The calls on the way to where the error was made, as its stack lists them below name and message. -/
  frames : String := ""
  /-- The cause, if the error has one, be it `undefined`. -/
  cause : Option Value
  /-- Whether listings show the cause: only if the error was given its first one afterwards. -/
  listsCause : Bool := false
  body : ErrorBody δ
  /-- Properties that no error of the class has. -/
  extra : Fields Value
deriving Repr

namespace ThrownError

variable {δ ε : Type}

def errorClass (e : ThrownError δ) : ErrorClass := e.body.errorClass.derive e.subclasses

def failure? (e : ThrownError δ) : Option (FailureFields δ) := e.body.failure?

/-- A new error. Its name is that of its class, and it has no stack of its own. -/
def raise (subclasses : List String) (body : ErrorBody δ) (message : Value)
    (cause : Option Value) : ThrownError δ :=
  { subclasses, name := .text (body.errorClass.derive subclasses).name, message, stack := none, cause
    body, extra := [] }

/-- An error with its details mapped. -/
def map (f : δ → ε) (e : ThrownError δ) : ThrownError ε := { e with body := e.body.map f }

def withCause (e : ThrownError δ) (cause : Option Value) : ThrownError δ := { e with cause }

/-- An error under a name that it is given afterwards. -/
def rename (e : ThrownError δ) (name : Value) : ThrownError δ :=
  { e with
    name
    body := match e.body with
      | .host _ => .host true
      | body => body }

def classProperties (e : ThrownError Value) : Fields Value :=
  [("name", e.name), ("message", e.message)] ++ (e.stack.map fun s => ("stack", s)).toList ++
    (e.cause.map fun c => ("cause", c)).toList ++ e.body.properties

/-- The properties of an error that are single values; the stack only if it was given. -/
def properties (e : ThrownError Value) : Fields Value := e.classProperties ++ e.extra

/-- Gives an error properties afterwards: those that it has by its class change, others are added. -/
def attach (e : ThrownError Value) (props : Fields Value) : ThrownError Value :=
  let read (name : String) (old : Value) : Value := (Fields.get? props name).getD old
  let own := ["name", "message", "stack", "cause"] ++
    (if e.body.context?.isSome then ["context"] else []) ++ Fields.names e.body.properties
  let e := match Fields.get? props "name" with
    | some name => e.rename name
    | none => e
  { e with
    message := read "message" e.message
    stack := (Fields.get? props "stack").or e.stack
    cause := (Fields.get? props "cause").or e.cause
    listsCause := e.listsCause || (e.cause.isNone && Fields.has props "cause")
    body := e.body.reread read (Fields.get? props "context")
    extra := e.extra.setAll (props.filter fun f => !own.contains f.1) }

/-- Whether an error is the host's signal of cooperative cancellation. -/
def isAbort (e : ThrownError δ) : Bool := e.name = .text "AbortError"

def isCancelled (e : ThrownError δ) : Bool :=
  match e.body with
  | .failure _ _ f => match f.kind with
    | .cancelled _ => true
    | _ => false
  | _ => false

/-- Whether an error wraps the failure of an activity or a child workflow. -/
def isWrapper (e : ThrownError δ) : Bool :=
  match e.body with
  | .failure _ _ f => match f.kind with
    | .activity .. | .childWorkflow .. => true
    | _ => false
  | _ => false

@[simp] theorem errorClass_map (f : δ → ε) (e : ThrownError δ) :
    (e.map f).errorClass = e.errorClass := by
  simp only [errorClass, map]
  cases e.body <;> simp [ErrorBody.map, ErrorBody.errorClass]

end ThrownError
end FailureWire
