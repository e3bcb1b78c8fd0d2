import FailureWire.Error.Class
import FailureWire.Value.Fields
import FailureWire.Value.Basic

/-!
# Kinds of failures

The taxonomy: which kinds of failures there are and what each of them carries. What a failure carries
is whatever its raiser or its sender gave it; nothing here makes sure that a type is a text or an event
id a number.

Details are of a type `δ`, so that the same kinds describe errors whose details are a value of a graph
and errors whose details have just been decoded.

The constructors are the classes below `FailureError`, from `ApplicationError` to
`WorkflowAlreadyStartedError`, and `generic` is that class itself.
-/

namespace FailureWire

/-- A kind of failure, with what it carries. -/
inductive FailureKind (δ : Type) where
  /-- A failure without further information. -/
  | generic
  /-- A failure raised by application code. -/
  | application (type : Value) (details : δ) (nonRetryable nextRetryDelay : Value)
  /-- Cooperative cancellation of a workflow or an activity. -/
  | cancelled (details : δ)
  /-- Forced termination from outside. -/
  | terminated (details : δ)
  /-- A workflow or an activity timed out. -/
  | timeout (type : Value) (lastHeartbeatDetails : δ)
  /-- A failure of the orchestration server itself. -/
  | server (nonRetryable : Value)
  /-- An activity failed; the cause is its own failure. -/
  | activity (scheduledEventId startedEventId identity activityType activityId retryState : Value)
  /-- A child workflow failed; the cause is its own failure. -/
  | childWorkflow (namespaceName workflowId runId workflowType initiatedEventId startedEventId
      retryState : Value)
  /-- An execution with the same workflow id is running already. -/
  | alreadyStarted (workflowId workflowType runId : Value)
deriving DecidableEq, Repr

namespace FailureKind

variable {δ ε : Type}

def errorClass : FailureKind δ → ErrorClass
  | .generic => .failure
  | .application .. => .application
  | .cancelled _ => .cancelled
  | .terminated _ => .terminated
  | .timeout .. => .timeout
  | .server _ => .server
  | .activity .. => .activity
  | .childWorkflow .. => .childWorkflow
  | .alreadyStarted .. => .alreadyStarted

def code : FailureKind δ → String
  | .generic => "failure"
  | .application .. => "application_error"
  | .cancelled _ => "cancelled"
  | .terminated _ => "terminated"
  | .timeout .. => "timeout"
  | .server _ => "server_error"
  | .activity .. => "activity_error"
  | .childWorkflow .. => "child_workflow_error"
  | .alreadyStarted .. => "workflow_already_started"

/-- The details that a failure carries, heartbeat details included. -/
def details? : FailureKind δ → Option δ
  | .application _ ds _ _ | .cancelled ds | .terminated ds | .timeout _ ds => some ds
  | _ => none

/-- A kind with its details mapped. -/
def map (f : δ → ε) : FailureKind δ → FailureKind ε
  | .generic => .generic
  | .application type ds nonRetryable delay => .application type (f ds) nonRetryable delay
  | .cancelled ds => .cancelled (f ds)
  | .terminated ds => .terminated (f ds)
  | .timeout type ds => .timeout type (f ds)
  | .server nonRetryable => .server nonRetryable
  | .activity a b c d e r => .activity a b c d e r
  | .childWorkflow a b c d e s r => .childWorkflow a b c d e s r
  | .alreadyStarted a b c => .alreadyStarted a b c

/-! ## Properties by name -/

def properties : FailureKind Value → Fields Value
  | .generic => []
  | .application type details nonRetryable nextRetryDelay =>
    [("type", type), ("details", details), ("nonRetryable", nonRetryable),
      ("nextRetryDelay", nextRetryDelay)]
  | .cancelled details | .terminated details => [("details", details)]
  | .timeout type lastHeartbeatDetails =>
    [("type", type), ("lastHeartbeatDetails", lastHeartbeatDetails)]
  | .server nonRetryable => [("nonRetryable", nonRetryable)]
  | .activity scheduledEventId startedEventId identity activityType activityId retryState =>
    [("scheduledEventId", scheduledEventId), ("startedEventId", startedEventId),
      ("identity", identity), ("activityType", activityType), ("activityId", activityId),
      ("retryState", retryState)]
  | .childWorkflow namespaceName workflowId runId workflowType initiatedEventId startedEventId
      retryState =>
    [("namespace", namespaceName), ("workflowId", workflowId), ("runId", runId),
      ("workflowType", workflowType), ("initiatedEventId", initiatedEventId),
      ("startedEventId", startedEventId), ("retryState", retryState)]
  | .alreadyStarted workflowId workflowType runId =>
    [("workflowId", workflowId), ("workflowType", workflowType), ("runId", runId)]

/-- A kind with every property read anew: by its name, and given the value that it had. -/
def reread (read : String → Value → Value) : FailureKind Value → FailureKind Value
  | .generic => .generic
  | .application type details nonRetryable nextRetryDelay =>
    .application (read "type" type) (read "details" details) (read "nonRetryable" nonRetryable)
      (read "nextRetryDelay" nextRetryDelay)
  | .cancelled details => .cancelled (read "details" details)
  | .terminated details => .terminated (read "details" details)
  | .timeout type lastHeartbeatDetails =>
    .timeout (read "type" type) (read "lastHeartbeatDetails" lastHeartbeatDetails)
  | .server nonRetryable => .server (read "nonRetryable" nonRetryable)
  | .activity scheduledEventId startedEventId identity activityType activityId retryState =>
    .activity (read "scheduledEventId" scheduledEventId) (read "startedEventId" startedEventId)
      (read "identity" identity) (read "activityType" activityType) (read "activityId" activityId)
      (read "retryState" retryState)
  | .childWorkflow namespaceName workflowId runId workflowType initiatedEventId startedEventId
      retryState =>
    .childWorkflow (read "namespace" namespaceName) (read "workflowId" workflowId)
      (read "runId" runId) (read "workflowType" workflowType)
      (read "initiatedEventId" initiatedEventId) (read "startedEventId" startedEventId)
      (read "retryState" retryState)
  | .alreadyStarted workflowId workflowType runId =>
    .alreadyStarted (read "workflowId" workflowId) (read "workflowType" workflowType)
      (read "runId" runId)

/-! ## Facts -/

@[simp] theorem errorClass_map (f : δ → ε) (k : FailureKind δ) :
    (k.map f).errorClass = k.errorClass := by
  cases k <;> rfl

@[simp] theorem code_map (f : δ → ε) (k : FailureKind δ) : (k.map f).code = k.code := by
  cases k <;> rfl

@[simp] theorem map_id (k : FailureKind δ) : k.map id = k := by
  cases k <;> rfl

theorem map_map {ζ : Type} (f : δ → ε) (g : ε → ζ) (k : FailureKind δ) :
    (k.map f).map g = k.map (g ∘ f) := by
  cases k <;> rfl

end FailureKind
end FailureWire
