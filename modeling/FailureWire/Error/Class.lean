/-!
# Classes of errors

The classes of errors form a tree with `error` at its root. Below `base` stand the classes of this
library; those below `failure` are the taxonomy of failures that fail a workflow execution. Users
derive further classes from any of them.

`c.isA d` holds exactly when `d` is `c` or one of the classes above it.

`base` is `BaseError` and `failure` is `FailureError`; `ErrorClass.name` are the names that instances have.
-/

namespace FailureWire

/-- A class of errors. -/
inductive ErrorClass where
  /-- Any error. -/
  | error
  /-- Errors that carry a code and a context. -/
  | base
  /-- Errors that fail a workflow execution. -/
  | failure
  | application
  | cancelled
  | terminated
  | timeout
  | server
  | activity
  | childWorkflow
  | alreadyStarted
  | nondeterminism
  | configuration
  | wireFormat
  /-- A class that a user or the host derives from another one. -/
  | derived (name : String) (parent : ErrorClass)
deriving DecidableEq, Repr

namespace ErrorClass

def name : ErrorClass → String
  | .error => "Error"
  | .base => "BaseError"
  | .failure => "FailureError"
  | .application => "ApplicationError"
  | .cancelled => "CancelledError"
  | .terminated => "TerminatedError"
  | .timeout => "TimeoutError"
  | .server => "ServerError"
  | .activity => "ActivityError"
  | .childWorkflow => "ChildWorkflowError"
  | .alreadyStarted => "WorkflowAlreadyStartedError"
  | .nondeterminism => "NondeterminismError"
  | .configuration => "ConfigurationError"
  | .wireFormat => "WireFormatError"
  | .derived name _ => name

/-- A class and the classes above it, up to the root. -/
def lineage : ErrorClass → List ErrorClass
  | .error => [.error]
  | .base => [.base, .error]
  | .failure => [.failure, .base, .error]
  | .nondeterminism => [.nondeterminism, .base, .error]
  | .configuration => [.configuration, .base, .error]
  | .wireFormat => [.wireFormat, .base, .error]
  | .derived name parent => .derived name parent :: lineage parent
  | c => [c, .failure, .base, .error]

/-- The classes above a class, up to the root. -/
def ancestors (c : ErrorClass) : List ErrorClass := c.lineage.tail

/-- Whether instances of the first class are instances of the second one. -/
def isA (c d : ErrorClass) : Bool := c.lineage.contains d

/-- The class of this name that is derived, step by step, by these names. -/
def derive (c : ErrorClass) (names : List String) : ErrorClass :=
  names.foldl (fun parent name => .derived name parent) c

theorem lineage_eq (c : ErrorClass) : c.lineage = c :: c.ancestors := by
  cases c <;> rfl

/-- Instances of a class are instances of the class itself and of the classes above it. -/
theorem isA_iff {c d : ErrorClass} : c.isA d = true ↔ d = c ∨ d ∈ c.ancestors := by
  rw [isA, lineage_eq, List.contains_iff_mem, List.mem_cons]

end ErrorClass
end FailureWire
