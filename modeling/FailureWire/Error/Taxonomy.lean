import FailureWire.Value.Coerce
import FailureWire.Wire.Code

/-!
# Raising errors

One function for each class of errors that programs raise themselves, and `ThrownError.ofKind` for all
failures. What is not given has the default of its class: cancellations have a message, application
failures may be retried, and a timeout keeps heartbeat details only if it is a heartbeat timeout.

Whatever is given is kept as it is, be it of the expected type or not; but what is to be shown of an
error must have a text, and details must be a sequence.

`ofKind` is the constructor of `FailureError`, which `BaseError` gives the name and the code; the other
functions are the constructors of `ApplicationError` (with its two factories), `CancelledError`,
`WorkflowAlreadyStartedError`, `NondeterminismError`, `ConfigurationError` and `WireFormatError`.
-/

namespace FailureWire

def cancelledMessage : String := "Cancelled"

def alreadyStartedMessage : String := "Workflow execution already started"

/-- What may be given along with a failure; `undefined` for what is not given. -/
structure FailureOptions where
  cause : Value := .undefined
  stored : Value := .undefined
  stackTrace : Value := .undefined
  displayMessage : Value := .undefined
  code : Value := .undefined
  subclasses : List String := []
  frames : String := ""

def orFalse (v : Value) : Value := v.orElse (.bool false)

namespace Graph

/-- The items of a sequence, of which nothing has none. -/
def spread (g : Graph) (v : Value) : Except Fault (List Document) :=
  match v with
  | .undefined | .null => .ok []
  | .text s => .ok (s.toList.map fun c => .text c.toString)
  | v =>
    match g.objectOf? v with
    | some (.list items) | some (.set items) => .ok (items.map .existing)
    | some (.sparse fields) => .ok ((fields.slots .undefined).map .existing)
    | some (.map entries) => .ok (entries.map fun e => .list [.existing e.1, .existing e.2])
    | some (.bytes data) => .ok (data.map fun b => .number (.ofInt b.toNat))
    | some (.numbers _ items) => .ok (items.map .number)
    | some (.boxed (.text s)) => .ok (s.toList.map fun c => .text c.toString)
    | _ => .error .wrongType

end Graph

namespace FailureKind

def ofApplication (type : Value) (details : List Document) (nonRetryable nextRetryDelay : Value) :
    FailureKind Document :=
  .application type (.list details) (orFalse nonRetryable) nextRetryDelay

/-- A timeout. It keeps heartbeat details only if it is a heartbeat timeout. -/
def ofTimeout (type : Value) (lastHeartbeatDetails : List Document) : FailureKind Document :=
  .timeout type
    (.list (if type = .number TimeoutType.heartbeat.code then lastHeartbeatDetails else []))

def ofServer (nonRetryable : Value) : FailureKind Document := .server (orFalse nonRetryable)

end FailureKind

namespace ThrownError

variable {δ : Type}

/-! ## Failures -/

/-- The text for display: an application failure with a type shows the type before the message. -/
def displayMessage (g : Graph) (kind : FailureKind δ) (message given : Value) :
    Except Fault Value :=
  match kind with
  | .application type _ _ _ =>
    if type.isTruthy then do
      return .text (String.ofList ((← g.toText type) ++ ':' :: ' ' :: (← g.toText message)))
    else .ok message
  | _ => .ok (given.orElse message)

/-- The code of a failure; that of a failure without further information may be given. -/
def failureCode (kind : FailureKind δ) (given : Value) : Value :=
  match kind with
  | .generic => given.orElse (.text kind.code)
  | kind => .text kind.code

def checkText (g : Graph) (v : Value) : Except Fault Unit :=
  if v = .undefined then .ok () else do let _ ← g.toText v

/-- A failure with this text for display. A reported stack trace that counts as true is its stack. -/
def build (kind : FailureKind δ) (message display : Value) (options : FailureOptions) :
    ThrownError δ :=
  let body := .failure (failureCode kind options.code) (.record [])
    { displayMessage := display, stored := options.stored, stackTrace := options.stackTrace, kind }
  { raise options.subclasses body message options.cause.defined? with
    stack := if options.stackTrace.isTruthy then some options.stackTrace else none
    frames := options.frames }

def ofKind (g : Graph) (kind : FailureKind δ) (message : Value) (options : FailureOptions) :
    Except Fault (ThrownError δ) := do
  let display ← displayMessage g kind message options.displayMessage
  checkText g display
  return build kind message display options

/-- A failure that application code raises and that may be retried. -/
def retryable (g : Graph) (message : Value) (details : List Document) :
    Except Fault (ThrownError Document) :=
  ofKind g (.ofApplication .undefined details (.bool false) .undefined) message {}

/-- A failure that application code raises and that must not be retried. -/
def nonRetryable (g : Graph) (message : Value) (details : List Document) :
    Except Fault (ThrownError Document) :=
  ofKind g (.ofApplication .undefined details (.bool true) .undefined) message {}

def cancelled (g : Graph) (message : Value) (details : List Document) (options : FailureOptions) :
    Except Fault (ThrownError Document) :=
  ofKind g (.cancelled (.list details)) ((message.defined?).getD (.text cancelledMessage)) options

def alreadyStarted (g : Graph) (workflowId workflowType runId cause : Value) :
    Except Fault (ThrownError Document) :=
  ofKind g (.alreadyStarted workflowId workflowType runId) (.text alreadyStartedMessage) { cause }

/-! ## Other errors -/

/-- A message as errors that are no failures keep it: as a text, and an empty one if it is not given. -/
def hostMessage (g : Graph) (message : Value) : Except Fault Value :=
  if message = .undefined then .ok (.text "") else do
    return .text (String.ofList (← g.toText message))

def host (g : Graph) (subclasses : List String) (named : Bool) (message : Value)
    (cause : Option Value) : Except Fault (ThrownError δ) := do
  return raise subclasses (.host named) (← hostMessage g message) cause

def library (g : Graph) (subclasses : List String) (sort : LibraryError) (message code : Value)
    (context : Document) (cause : Value) : Except Fault (ThrownError δ) := do
  return raise subclasses (.library sort code context) (← hostMessage g message) cause.defined?

/-- Replaying a history did not match it. A workflow type that counts as false is none. -/
def nondeterminism (g : Graph) (message workflowType cause : Value) :
    Except Fault (ThrownError δ) :=
  library g [] .nondeterminism message (.text "nondeterminism")
    (.record (if workflowType.isTruthy then [("workflowType", .existing workflowType)] else [])) cause

def configuration (message : String) (sources : Document) : ThrownError δ :=
  raise [] (.library .configuration (.text "invalid_config") (.record [("sources", sources)]))
    (.text message) none

def wireFormat (message : String) (issues : Document) : ThrownError δ :=
  raise [] (.library .wireFormat (.text "invalid_wire_failure") (.record [("issues", issues)]))
    (.text message) none

/-! ## Facts -/

@[simp] theorem message_build (kind : FailureKind δ) (message display : Value)
    (options : FailureOptions) : (build kind message display options).message = message := rfl

@[simp] theorem failure?_build (kind : FailureKind δ) (message display : Value)
    (options : FailureOptions) :
    (build kind message display options).failure? =
      some ⟨display, options.stored, options.stackTrace, kind⟩ := rfl

@[simp] theorem checkText_text (g : Graph) (s : String) : checkText g (.text s) = .ok () := by
  rw [checkText, if_neg (by simp)]
  rfl

end ThrownError
end FailureWire
