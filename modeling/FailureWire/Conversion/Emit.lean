import FailureWire.Conversion.Options
import FailureWire.Error.Cancellation
import FailureWire.Log.Entry
import FailureWire.Wire.Failure

/-!
# From errors to wire failures

`ConverterOptions.emit` turns a thrown value into a wire failure. The failures that the links of the
value's chain stand for are written as links, from the innermost one outwards; but if one of them was
decoded from a wire failure, and such failures are to be reused, the chain ends there in that very
failure.

| here | there |
| --- | --- |
| `Codec.encodeDetails` | `DefaultFailureConverter.detailsField` |
| `Codec.encodeAttributes` | the payload that `encodeAttributes` makes |
| `FailureKind.toInfo` | `toFailureInfo`, a case for each class |
| `ConverterOptions.linkOf` | `toFailure`, without the cause |
| `ConverterOptions.splitAtStored` | the search for `e.failure !== undefined` in `errorToFailure` |
| `ConverterOptions.errorToFailure` | `errorToFailure` |
-/

namespace FailureWire

variable {δ : Type}

/-! ## Details -/

/-- The field of a list of payloads. -/
def payloadsDocument (payloads : Document) : Document := .record [("payloads", payloads)]

namespace Codec

/-- The payloads of details; none for details without length. Only lists and numeric arrays have
payloads, and a numeric array has no place for them. -/
def encodeDetails (c : Codec) (g : Graph) (details : Document) : Except Fault (Option Document) := do
  let (g, v) := g.add details
  let encodeNumbers (items : List Number) : Except Fault Unit := do
    let _ ← items.mapM fun n => c.encode g (.number n)
  match g.objectOf? v with
  | some (.list []) | some (.bytes []) | some (.numbers _ []) => return none
  | some (.list items) => return some (payloadsDocument (.list (← items.mapM (c.encodeValue g))))
  | some (.sparse fields) =>
    if fields.extent = 0 then return none
    else
      let items := fields.filter fun f => (positionOf? f.1).isSome
      return some (payloadsDocument
        (.sparse (← items.mapM fun (name, v) => do return (name, ← c.encodeValue g v))))
  | some (.bytes data) =>
    encodeNumbers (data.map fun b => .ofInt b.toNat)
    return some (payloadsDocument (.bytes (data.map fun _ => 0)))
  | some (.numbers element items) =>
    encodeNumbers items
    return some (payloadsDocument (.numbers element (items.map fun _ => element.store .nan)))
  | _ =>
    match v, g.read v "length" with
    | .text "", _ => return none
    | _, .number n => if n.isZero then return none else .error .wrongType
    | _, _ => .error .wrongType

def encodeAttributes (c : Codec) (g : Graph) (message stackTrace : Value) : Except Fault Document :=
  let (g, v) := g.add
    (.record [("message", .existing message), ("stack_trace", .existing stackTrace)])
  c.encodeValue g v

end Codec

/-- The duration of the milliseconds that a value stands for. -/
def Graph.wireDelay (g : Graph) (ms : Value) : Except Fault (Option Document) :=
  if ms = .undefined then .ok none
  else do return some (WireDuration.ofMillis (← g.toNumber ms)).document

/-- The information about the kind of a failure. -/
def FailureKind.toInfo (c : Codec) (g : Graph) (kind : FailureKind Document) :
    Except Fault (FailureInfo Document) :=
  match kind with
  | .application type details nonRetryable nextRetryDelay => do
    let details ← c.encodeDetails g details
    return .application (type.orElse (.text "")) nonRetryable details (← g.wireDelay nextRetryDelay)
  | .timeout type lastHeartbeatDetails => do
    return .timeout (codeToWire type) (← c.encodeDetails g lastHeartbeatDetails)
  | .cancelled details => do return .canceled (← c.encodeDetails g details)
  | .terminated details => do return .terminated (← c.encodeDetails g details)
  | .server nonRetryable => .ok (.server nonRetryable)
  | .activity scheduledEventId startedEventId identity activityType activityId retryState =>
    .ok (.activity scheduledEventId startedEventId identity activityType activityId
      (codeToWire retryState))
  | .childWorkflow namespaceName workflowId runId workflowType initiatedEventId startedEventId
      retryState =>
    .ok (.childWorkflow namespaceName workflowId runId workflowType initiatedEventId startedEventId
      (codeToWire retryState))
  | .generic | .alreadyStarted .. => .ok (.unmapped .undefined)

/-! ## Links -/

/-- A chain of wire failures: new links, the outermost one first, and the failure that it ends in, if
it ends in one that was there before. -/
structure Emitted where
  links : List WireLink
  stored : Option Value

/-- The chain as one document. A stored value that counts as false is no cause. -/
def Emitted.document (e : Emitted) : Document :=
  match e.links with
  | [] => .existing (.ofOption e.stored)
  | links =>
    let last := (e.stored.filter (·.isTruthy)).map .existing
    .ofOption (chainDocument links last)

namespace ConverterOptions

/-- The stack trace that is sent for an error: the reported one, else its stack. -/
def stackTraceOf (o : ConverterOptions) (g : Graph) (e : ThrownError δ) : Value :=
  if o.includeStackTrace then
    match (e.failure?.map (·.stackTrace)).filter (!·.isMissing) with
    | some trace => trace
    | none => (g.stackOf e).orElse (.text "")
  else .text ""

/-- The information that is sent about the kind of an error. -/
def infoOf (o : ConverterOptions) (g : Graph) (e : ThrownError Document) :
    Except Fault (FailureInfo Document) :=
  match e.failure? with
  | some f => f.kind.toInfo o.codec g
  | none => .ok (.unmapped .undefined)

def linkOf (o : ConverterOptions) (g : Graph) (e : ThrownError Document) :
    Except Fault WireLink := do
  let stackTrace := o.stackTraceOf g e
  let info ← o.infoOf g e
  if o.encodeCommonAttributes then
    let attributes ← o.codec.encodeAttributes g e.message stackTrace
    return ⟨.text encodedMessage, o.source, .text "", some attributes, info⟩
  else
    return ⟨e.message, o.source, stackTrace, none, info⟩

/-- The links for errors, written from the last one on. -/
def linksOf (o : ConverterOptions) (g : Graph) :
    List (ThrownError Document) → Except Fault (List WireLink)
  | [] => .ok []
  | e :: rest => do
    let links ← o.linksOf g rest
    let link ← o.linkOf g e
    return link :: links

/-- The wire failure that an error was decoded from, if such failures are reused. -/
def storedOf (o : ConverterOptions) (e : ThrownError δ) : Option Value :=
  if o.reuseStoredFailure then e.failure?.bind (·.stored.defined?) else none

/-- The errors before the first one with a stored failure, and that failure. -/
def splitAtStored (o : ConverterOptions) :
    List (ThrownError δ) → List (ThrownError δ) × Option Value
  | [] => ([], none)
  | e :: rest =>
    match o.storedOf e with
    | some v => ([], some v)
    | none =>
      let (before, stored) := o.splitAtStored rest
      (e :: before, stored)

def reportTruncated (direction : Direction) (links : Nat) : Logged Unit :=
  .report .warn "Failure cause chain truncated"
    (some (.record [("direction", .text direction.name), ("depth", .number (.ofInt links))]))

def linksOrSelf (c : Chain) (v : Value) : List Value := if c.links.isEmpty then [v] else c.links

/-- The wire failure for errors, the outermost one first, of which `v` is the first one. -/
def emitErrors (o : ConverterOptions) (g : Graph) (v : Value)
    (errors : List (ThrownError Document)) : Except Fault Emitted := do
  let (errors, stored) := o.splitAtStored errors
  if errors.isEmpty && stored.all Value.isMissing then
    return ⟨[← o.linkOf g (← g.toFailure o.frames v)], none⟩
  else return ⟨← o.linksOf g errors, stored⟩

/-- The wire failure for a thrown value. -/
def emit (o : ConverterOptions) (g : Graph) (v : Value) : Logged Emitted := do
  let chain := g.walk o.maxCauseDepth v
  if chain.truncated then reportTruncated .serialize chain.links.length
  .ofExcept do o.emitErrors g v (← (linksOrSelf chain v).mapM (g.toFailure o.frames))

/-- The wire failure for a thrown value, added to the graph. -/
def errorToFailure (o : ConverterOptions) (g : Graph) (v : Value) : Logged (Graph × Value) := do
  return g.add (← o.emit g v).document

end ConverterOptions
end FailureWire
