import FailureWire.Value.Graph

/-!
# Workflow failure policy

An error that workflow code raises either fails the workflow execution or only the current task, which
is then retried. Failures fail the execution; so do the instances of classes that are listed for all
workflows or for the workflow's type. A predicate is asked about everything else, if there is one. It
may have effects of a monad `m`: `Policy.isWorkflowFailure_of_listed` and
`Policy.isWorkflowFailure_of_unlisted` say when it is asked, and that it is asked once.

Replaying a history that does not match is an error of the class `ErrorClass.nondeterminism`. A list
covers it when it lists that class or one of the classes above it.

`Policy` models `DefaultWorkflowFailurePolicy` with its `isWorkflowFailure` and `classify`;
`coversNondeterminism` goes by the same name there.
-/

namespace FailureWire

/-- What an error does to a workflow. -/
inductive Outcome where
  | failWorkflow
  | retryTask
deriving DecidableEq, Repr

def Outcome.name : Outcome → String
  | .failWorkflow => "fail_workflow"
  | .retryTask => "retry_task"

/-- Which errors fail a workflow, apart from failures. -/
structure Policy (m : Type → Type) where
  /-- Classes whose instances fail every workflow. -/
  listed : List ErrorClass := []
  /-- Classes whose instances fail the workflows of a type. -/
  listedFor : Fields (List ErrorClass) := []
  /-- Whether an error that no class decides about fails a workflow of a type. -/
  predicate : Option (Value → Option String → m Bool) := none

def coversNondeterminism (classes : List ErrorClass) : Bool :=
  classes.any fun c => c = .nondeterminism || ErrorClass.nondeterminism.ancestors.contains c

namespace Graph

def isOneOf (g : Graph) (v : Value) (classes : List ErrorClass) : Bool :=
  match g.errorOf? v with
  | some e => classes.any e.errorClass.isA
  | none => false

end Graph

namespace Policy

variable {m : Type → Type}

def classesFor (p : Policy m) (workflowType : Option String) : List ErrorClass :=
  .failure :: p.listed ++ ((workflowType.bind (Fields.get? p.listedFor)).getD [])

/-- Whether an error fails a workflow of this type. -/
def isWorkflowFailure [Monad m] (p : Policy m) (g : Graph) (error : Value)
    (workflowType : Option String) : m Bool :=
  if g.isOneOf error (p.classesFor workflowType) then pure true
  else match p.predicate with
    | some ask => ask error workflowType
    | none => pure false

/-- What an error does to a workflow of this type. -/
def classify [Monad m] (p : Policy m) (g : Graph) (error : Value)
    (workflowType : Option String) : m Outcome := do
  return if ← p.isWorkflowFailure g error workflowType then .failWorkflow else .retryTask

def nondeterminismFails (p : Policy m) : Bool := coversNondeterminism p.listed

/-- The workflow types whose workflows nondeterminism fails. -/
def nondeterminismFailsFor (p : Policy m) : List String :=
  Fields.names (p.listedFor.filter fun f => coversNondeterminism f.2)

/-! ## Facts -/

/-- An instance of a class that counts decides at once. -/
theorem isWorkflowFailure_of_listed [Monad m] {p : Policy m} {g : Graph} {error : Value}
    {workflowType : Option String} (h : g.isOneOf error (p.classesFor workflowType) = true) :
    p.isWorkflowFailure g error workflowType = pure true := by
  simp [isWorkflowFailure, h]

/-- About anything else the predicate is asked, once. -/
theorem isWorkflowFailure_of_unlisted [Monad m] {p : Policy m} {g : Graph} {error : Value}
    {workflowType : Option String} {ask : Value → Option String → m Bool}
    (h : g.isOneOf error (p.classesFor workflowType) = false) (hp : p.predicate = some ask) :
    p.isWorkflowFailure g error workflowType = ask error workflowType := by
  simp [isWorkflowFailure, h, hp]

end Policy
end FailureWire
