import FailureWire.Payload.Codec
import FailureWire.Wire.Duration

/-!
# Wire failures

A wire failure is a record with a message, the source that produced it, a stack trace, a cause and
information about its kind. A chain of wire failures is linked by causes; `WireLink` is one link of
it without its cause. Nobody promises that a field of a wire failure holds what it should: whoever
wants to know has the failure parsed (`FailureWire.Wire.Format`).

Records inside the information are of a type `π`, so that it can describe failures that are about to be
sent, and failures that are objects of a graph. `WireLink.document` writes a link; `Graph.infoAt` reads
the information of one.

`WireLink` and `FailureInfo` are the types `WireFailure` and `FailureInfo`, with the cases that
`toFailureInfo` writes and `toError` reads.
-/

namespace FailureWire

/-- Information about the kind of a failure. -/
inductive FailureInfo (π : Type) where
  /-- No information, or a case that this library has no errors for. -/
  | unmapped (case : Value)
  | application (type nonRetryable : Value) (details nextRetryDelay : Option π)
  | timeout (timeoutType : Value) (lastHeartbeatDetails : Option π)
  | canceled (details : Option π)
  | terminated (details : Option π)
  | server (nonRetryable : Value)
  | activity (scheduledEventId startedEventId identity activityType activityId retryState : Value)
  | childWorkflow (namespaceName workflowId runId workflowType initiatedEventId startedEventId
      retryState : Value)
deriving DecidableEq, Repr

/-- A wire failure without its cause. -/
structure WireLink where
  message : Value
  source : Value
  stackTrace : Value
  encodedAttributes : Option Document
  info : FailureInfo Document

namespace FailureInfo

variable {π : Type}

/-- Whether there is a class of errors for the information. -/
def isMapped : FailureInfo π → Bool
  | .unmapped _ => false
  | _ => true

def case : FailureInfo π → Value
  | .unmapped case => case
  | .application .. => .text "applicationFailureInfo"
  | .timeout .. => .text "timeoutFailureInfo"
  | .canceled _ => .text "canceledFailureInfo"
  | .terminated _ => .text "terminatedFailureInfo"
  | .server _ => .text "serverFailureInfo"
  | .activity .. => .text "activityFailureInfo"
  | .childWorkflow .. => .text "childWorkflowExecutionFailureInfo"

/-! ## Writing -/

/-- A field that may be missing. -/
def optionalField (name : String) (d : Option Document) : Fields Document :=
  d.toList.map fun d => (name, d)

def fields : FailureInfo Document → Fields Document
  | .unmapped _ => []
  | .application type nonRetryable details nextRetryDelay =>
    [("type", .existing type), ("nonRetryable", .existing nonRetryable)] ++
      optionalField "details" details ++ optionalField "nextRetryDelay" nextRetryDelay
  | .timeout timeoutType lastHeartbeatDetails =>
    ("timeoutType", .existing timeoutType) ::
      optionalField "lastHeartbeatDetails" lastHeartbeatDetails
  | .canceled details | .terminated details => optionalField "details" details
  | .server nonRetryable => [("nonRetryable", .existing nonRetryable)]
  | .activity scheduledEventId startedEventId identity activityType activityId retryState =>
    [("scheduledEventId", .existing scheduledEventId), ("startedEventId", .existing startedEventId),
      ("identity", .existing identity),
      ("activityType", .record [("name", .existing activityType)]),
      ("activityId", .existing activityId), ("retryState", .existing retryState)]
  | .childWorkflow namespaceName workflowId runId workflowType initiatedEventId startedEventId
      retryState =>
    [("namespace", .existing namespaceName),
      ("workflowExecution",
        .record [("workflowId", .existing workflowId), ("runId", .existing runId)]),
      ("workflowType", .record [("name", .existing workflowType)]),
      ("initiatedEventId", .existing initiatedEventId),
      ("startedEventId", .existing startedEventId), ("retryState", .existing retryState)]

def document (info : FailureInfo Document) : Document :=
  match info with
  | .unmapped case => .record [("case", .existing case)]
  | info => .record [("case", .existing info.case), ("value", .record info.fields)]

end FailureInfo

def WireDuration.document (d : WireDuration) : Document :=
  .record [("seconds", .number d.seconds), ("nanos", .number d.nanos)]

def WireLink.document (link : WireLink) (cause : Option Document) : Document :=
  .record
    ([("message", .existing link.message), ("source", .existing link.source),
        ("stackTrace", .existing link.stackTrace)] ++
      FailureInfo.optionalField "cause" cause ++ [("failureInfo", link.info.document)] ++
      FailureInfo.optionalField "encodedAttributes" link.encodedAttributes)

/-- The document of a chain of links, the outermost one first, that ends in this cause. -/
def chainDocument (links : List WireLink) (last : Option Document) : Option Document :=
  links.foldr (fun link cause => some (link.document cause)) last

/-! ## Reading -/

namespace Graph

/-- A property that counts only if its value counts as true. -/
def truthyAt (g : Graph) (v : Value) (name : String) : Option Value :=
  some (g.read v name) |>.filter (·.isTruthy)

def durationOf (g : Graph) (v : Value) : Except Fault WireDuration := do
  let seconds ← g.toNumber (← g.readOf v "seconds")
  let nanos ← g.toNumber (← g.readOf v "nanos")
  return ⟨seconds, nanos⟩

/-- The payloads that a value lists; none where the list has a gap. -/
def payloadsOf (g : Graph) (v : Value) : Except Fault (List (Option Value)) :=
  match g.objectOf? (g.read v "payloads") with
  | some (.list items) => .ok (items.map some)
  | some (.sparse fields) => .ok ((fields.mapValues some).slots none)
  | some (.bytes []) | some (.numbers _ []) => .ok []
  | _ => .error .wrongType

def infoOfCase (g : Graph) (case value : Value) : Except Fault (FailureInfo Value) :=
  match case with
  | .text "applicationFailureInfo" => do
    return .application (← g.readOf value "type") (g.read value "nonRetryable")
      (g.truthyAt value "details") (g.truthyAt value "nextRetryDelay")
  | .text "timeoutFailureInfo" => do
    return .timeout (← g.readOf value "timeoutType") (g.truthyAt value "lastHeartbeatDetails")
  | .text "canceledFailureInfo" => do
    let _ ← g.readOf value "details"
    return .canceled (g.truthyAt value "details")
  | .text "terminatedFailureInfo" => do
    let _ ← g.readOf value "details"
    return .terminated (g.truthyAt value "details")
  | .text "serverFailureInfo" => do return .server (← g.readOf value "nonRetryable")
  | .text "activityFailureInfo" => do
    let activityType ← g.readOf (← g.readOf value "activityType") "name"
    return .activity (g.read value "scheduledEventId") (g.read value "startedEventId")
      (g.read value "identity") activityType (g.read value "activityId") (g.read value "retryState")
  | .text "childWorkflowExecutionFailureInfo" => do
    let execution ← g.readOf value "workflowExecution"
    let workflowId ← g.readOf execution "workflowId"
    let workflowType ← g.readOf (← g.readOf value "workflowType") "name"
    return .childWorkflow (g.read value "namespace") workflowId (g.read execution "runId")
      workflowType (g.read value "initiatedEventId") (g.read value "startedEventId")
      (g.read value "retryState")
  | case => .ok (.unmapped case)

def infoAt (g : Graph) (v : Value) : Except Fault (FailureInfo Value) :=
  let info := g.read v "failureInfo"
  if info.isMissing then .ok (.unmapped .undefined)
  else g.infoOfCase (g.read info "case") (g.read info "value")

end Graph
end FailureWire
