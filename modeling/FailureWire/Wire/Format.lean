import FailureWire.Error.Taxonomy
import FailureWire.Value.Schema

/-!
# The wire format

`parseFailure` decides whether an untyped value is a wire failure. All that is wrong is listed, in the
order of the fields. Two rules are lenient: properties that the format does not name are dropped at
every level, and failure information of an unknown case counts as information that is not set.

Failure information of a known case either has the shape of that case or is invalid as a whole; only
numbers that are whole but too big are reported at their places.

| here | there |
| --- | --- |
| `checkInfo` | `lenientFailureInfo`, of an unknown case nothing is left |
| `checkFailure` | `wireFailureSchema` |
| `parseFailure` | `parseWireFailure` |
| `errorOf`, `pathText` | `WireFormatError`, `formatPath` |
-/

namespace FailureWire

namespace Schema

def payload : Schema := .record [("metadata", .table .bytes), ("data", .bytes)]

def payloads : Schema := .record [("payloads", .list payload)]

def duration : Schema := .record [("seconds", .number), ("nanos", .integer)]

def named : Schema := .record [("name", .text)]

/-- The shape of the information of each known case. -/
def infoCases : List (String × Schema) :=
  [("applicationFailureInfo",
      .record [("type", .text), ("nonRetryable", .bool), ("details", .optional payloads),
        ("nextRetryDelay", .optional duration)]),
    ("timeoutFailureInfo",
      .record [("timeoutType", .integer), ("lastHeartbeatDetails", .optional payloads)]),
    ("canceledFailureInfo", .record [("details", .optional payloads)]),
    ("terminatedFailureInfo", .record [("details", .optional payloads)]),
    ("serverFailureInfo", .record [("nonRetryable", .bool)]),
    ("resetWorkflowFailureInfo", .record [("lastHeartbeatDetails", .optional payloads)]),
    ("activityFailureInfo",
      .record [("scheduledEventId", .integer), ("startedEventId", .integer), ("identity", .text),
        ("activityType", named), ("activityId", .text), ("retryState", .integer)]),
    ("childWorkflowExecutionFailureInfo",
      .record [("namespace", .text),
        ("workflowExecution", .record [("workflowId", .text), ("runId", .text)]),
        ("workflowType", named), ("initiatedEventId", .integer), ("startedEventId", .integer),
        ("retryState", .integer)]),
    ("nexusOperationExecutionFailureInfo",
      .record [("scheduledEventId", .integer), ("endpoint", .text), ("service", .text),
        ("operation", .text), ("operationToken", .text)]),
    ("nexusHandlerFailureInfo", .record [("type", .text)])]

def ofCase? (case : Value) : Option Schema := case.text?.bind (Fields.get? infoCases)

end Schema

namespace WireFormat

def checkInfo (g : Graph) (v : Value) : Checked :=
  if (g.objectOf? v).isSome then
    let case := g.read v "case"
    match Schema.ofCase? case with
    | some s =>
      let value := (s.check g (g.read v "value")).under (.name "value")
      if g.isKeyed v && value.findings.all (·.soft) then
        ⟨.record [("case", .existing case), ("value", value.value)], value.findings⟩
      else .fail .invalid
    | none => .ok (.record [("case", .undefined)])
  else .fail .invalid

def checkOptional (g : Graph) (v : Value) (name : String) (check : Value → Checked) :
    List (String × Checked) :=
  match g.get? v name with
  | none => []
  | some .undefined => [(name, .ok .undefined)]
  | some w => [(name, (check w).under (.name name))]

/-- The properties of a failure that come before its cause. -/
def leading : List (String × Schema) :=
  [("message", .text), ("source", .optional .text), ("stackTrace", .optional .text),
    ("encodedAttributes", .optional Schema.payload)]

/-- Checks a failure and its causes. The objects before it in the copy are `count` many; `outer` are the
failures that it is a cause of, with the numbers of their copies. A failure that is a cause of itself
is copied into a cause of itself. `fuel` bounds the number of failures. -/
def checkFailure (g : Graph) : Nat → List (ObjectId × Nat) → Nat → Value → Checked
  | 0, _, _, _ => .ok .undefined
  | fuel + 1, outer, count, v =>
    match v.id?.bind fun id => outer.lookup id with
    | some k => .ok (.again k)
    | none =>
      if g.isKeyed v then
        let head := Schema.checkFields g leading v
        let inner := head.foldl (fun n f => n + f.2.value.objectCount) (count + 1)
        let outer := (v.id?.map fun id => (id, count)).toList ++ outer
        let cause := checkOptional g v "cause" (checkFailure g fuel outer inner)
        .recordOf (head ++ cause ++ checkOptional g v "failureInfo" (checkInfo g))
      else .fail (.expected "object" (g.typeName v))

/-! ## Reporting -/

/-- A path as text: names with points between them, positions in brackets. -/
def pathText (path : List Segment) : String :=
  path.foldl
    (fun out segment =>
      match segment with
      | .position n => out ++ "[" ++ String.ofList n.chars ++ "]"
      | .name s => if out = "" then s else out ++ "." ++ s)
    ""

def issueOf (f : Finding) : Issue := ⟨pathText f.path, f.message⟩

/-- The message about some issues: it names the first one. -/
def messageOf (issues : List Issue) : String :=
  match issues with
  | [] => "Invalid wire failure"
  | first :: _ =>
    "Invalid wire failure at " ++ (if first.path = "" then "<root>" else first.path) ++ ": " ++
      first.message

def issueDocument (i : Issue) : Document :=
  .record [("path", .text i.path), ("message", .text i.message)]

def errorOf (findings : List Finding) : ThrownError Document :=
  let issues := findings.map issueOf
  .wireFormat (messageOf issues) (.list (issues.map issueDocument))

/-- The wire failure that a value is, copied; or all that keeps the value from being one. -/
def parseFailure (g : Graph) (v : Value) : Except (List Finding) Document :=
  let c := checkFailure g (g.size + 2) [] 0 v
  if c.isOk then .ok c.value else .error c.findings

end WireFormat
end FailureWire
