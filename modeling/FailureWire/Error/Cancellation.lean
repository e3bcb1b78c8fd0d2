import FailureWire.Error.Taxonomy

/-!
# Cancellation, and failures from anything thrown

Cancellation reaches code as the host's signal (anything whose name is `AbortError`), as a cancelled
failure, or as one wrapped once by the activity or the child workflow that was cancelled.

`Graph.toFailure` turns anything thrown into a failure: failures stay as they are, the host's signal
becomes a cancelled failure, other errors become application failures whose type is the error's name,
and whatever is no error becomes an application failure of its own type. An error that cannot be shown
cannot be turned into a failure either.

| here | there |
| --- | --- |
| `Graph.isAbort` | `isAbortError` |
| `Graph.isFailure` | `isFailureError`, or `instanceof FailureError` |
| `Graph.isCancellation` | `isCancellation` |
| `Graph.ensureFailure` | `ensureFailureError` |
| `Frames` | the lines of a stack that the host writes below its header |
-/

namespace FailureWire

/-- The type of application failures that stand for thrown values which are no errors. -/
def nonErrorType : String := "NonErrorThrown"

/-- The message of a failure that stands for a thrown value which is neither an error nor a text. -/
def unknownMessage : String := "Unknown error"

/-- Where a failure is made: for the host's signal, for another error, for what is no error, or for a wire
failure of a class. -/
inductive Making where
  | ofSignal
  | ofError
  | ofOther
  | received (c : ErrorClass)

/-- The calls on the way to each such place, as the host writes them into a stack. -/
abbrev Frames := Making → String

/-- The frames of a host that writes none. -/
def Frames.none : Frames := fun _ => ""

/-- Where the failure for an error is made. -/
def ThrownError.making {δ : Type} (e : ThrownError δ) : Making := if e.isAbort then .ofSignal else .ofError

namespace Graph

/-- Whether a value is the host's signal of cancellation. -/
def isAbort (g : Graph) (v : Value) : Bool := g.read v "name" = .text "AbortError"

def isFailure (g : Graph) (v : Value) : Bool :=
  match g.errorOf? v with
  | some e => e.failure?.isSome
  | none => false

def isCancelled (g : Graph) (v : Value) : Bool :=
  match g.errorOf? v with
  | some e => e.isCancelled
  | none => false

/-- Whether a value is the failure of an activity or a child workflow. -/
def isWrapper (g : Graph) (v : Value) : Bool :=
  match g.errorOf? v with
  | some e => e.isWrapper
  | none => false

/-- Whether a value represents cancellation. -/
def isCancellation (g : Graph) (v : Value) : Bool :=
  g.isAbort v || g.isCancelled v || (g.isWrapper v && g.isCancelled (g.read v "cause"))

/-- What the failure that stands for an error takes over: its cause and its stack. -/
def carriedOver (g : Graph) (frames : Frames) (e : ThrownError Value) : FailureOptions where
  cause := .ofOption e.cause
  stackTrace := g.stackOf e
  frames := frames e.making

/-- The failure that stands for an error which is none. -/
def failureOfError (g : Graph) (frames : Frames) (e : ThrownError Value) :
    Except Fault (ThrownError Document) :=
  if e.isAbort then
    ThrownError.cancelled g (if e.message.isTruthy then e.message else .undefined) []
      (g.carriedOver frames e)
  else
    ThrownError.ofKind g (.ofApplication e.name [] .undefined .undefined) e.message
      (g.carriedOver frames e)

/-- The failure that stands for a thrown value which is no error. -/
def failureOfOther (frames : Frames) (v : Value) : ThrownError Document :=
  let message : String := v.text?.getD unknownMessage
  .build (.ofApplication (.text nonErrorType) [] .undefined .undefined) (.text message)
    (.text (nonErrorType ++ ": " ++ message)) { frames := frames .ofOther }

/-- The failure that stands for a thrown value. -/
def toFailure (g : Graph) (frames : Frames) (v : Value) : Except Fault (ThrownError Document) :=
  match g.errorOf? v with
  | some e => if e.failure?.isSome then .ok (e.map .existing) else g.failureOfError frames e
  | none => .ok (failureOfOther frames v)

/-- Turns a thrown value into a failure: the value itself if it is one, else a new object. -/
def ensureFailure (g : Graph) (v : Value) (frames : Frames := .none) : Except Fault (Graph × Value) :=
  if g.isFailure v then .ok (g, v) else do return g.addError (← g.toFailure frames v)

end Graph
end FailureWire
