import FailureWire.Conversion.Emit

/-!
# From wire failures to errors

`ConverterOptions.receive` turns a wire failure into a chain of errors, the outermost one first. Each
link becomes an error of the class that its information names, and keeps the link as its stored
failure. A link whose information names no class becomes a plain failure; what lies behind it is
converted too, but dropped.

| here | there |
| --- | --- |
| `Codec.decodeDetails` | `DefaultFailureConverter.fromPayloads` |
| `CommonAttributes`, `ConverterOptions.attributesOf` | `CommonAttributes`, `decodeAttributes` |
| `FailureInfo.toKind`, `ConverterOptions.errorOf` | `toError`, a case for each case of the information |
| `Graph.wireWalk` | `wireChain` |
| `ConverterOptions.failureToError` | `failureToError` |
-/

namespace FailureWire

namespace Codec

/-- The value of a payload in a list; a gap in the list stays one, and is read as `undefined`. -/
def decodeSlot (c : Codec) (g : Graph) : Option Value → Except Fault Document
  | some payload => c.decodeValue g payload
  | none => .ok .undefined

/-- The values of a list of payloads, as the items of a list; no list has none. -/
def decodeDetails (c : Codec) (g : Graph) (details : Option Value) : Except Fault (List Document) :=
  match details with
  | some payloads => do return Document.alignFrom 1 (← (← g.payloadsOf payloads).mapM (c.decodeSlot g))
  | none => .ok []

end Codec

def Graph.delayOf (g : Graph) (duration : Option Value) : Except Fault Value :=
  match duration with
  | some d => do return .number (← g.durationOf d).toMillis
  | none => .ok .undefined

/-- The kind of failure that information stands for; none if it stands for no kind. -/
def FailureInfo.toKind (c : Codec) (g : Graph) (info : FailureInfo Value) :
    Except Fault (Option (FailureKind Document)) :=
  match info with
  | .unmapped _ => .ok none
  | .application type nonRetryable details nextRetryDelay => do
    let details ← c.decodeDetails g details
    return some (.ofApplication (if type.isTruthy then type else .undefined) details nonRetryable
      (← g.delayOf nextRetryDelay))
  | .timeout timeoutType lastHeartbeatDetails => do
    return some (.ofTimeout (timeoutTypeFromWire timeoutType)
      (← c.decodeDetails g lastHeartbeatDetails))
  | .canceled details => do return some (.cancelled (.list (← c.decodeDetails g details)))
  | .terminated details => do return some (.terminated (.list (← c.decodeDetails g details)))
  | .server nonRetryable => .ok (some (.ofServer nonRetryable))
  | .activity scheduledEventId startedEventId identity activityType activityId retryState =>
    .ok (some (.activity scheduledEventId startedEventId identity activityType activityId
      (retryStateFromWire retryState)))
  | .childWorkflow namespaceName workflowId runId workflowType initiatedEventId startedEventId
      retryState =>
    .ok (some (.childWorkflow namespaceName workflowId runId workflowType initiatedEventId
      startedEventId (retryStateFromWire retryState)))

/-- What the error of a kind takes over from the wire failure that it is decoded from. -/
def FailureOptions.received (frames : Frames) (kind : FailureKind Document) (failure stackTrace : Value) :
    FailureOptions where
  stored := failure
  stackTrace := stackTrace
  frames := frames (.received kind.errorClass)

/-- A message and a stack trace. -/
structure CommonAttributes where
  message : Value
  stackTrace : Value
deriving DecidableEq, Repr

namespace CommonAttributes

/-- The attributes of a message and a stack trace that are texts; one that is no text is empty. -/
def ofTexts (message : String) (stackTrace : Option String) : CommonAttributes :=
  ⟨.text message, .text (stackTrace.getD "")⟩

/-- The attributes that a decoded payload holds: a record, or an object of the graph, with a message
that is a text. -/
def ofDocument? (g : Graph) (d : Document) : Option CommonAttributes :=
  match d with
  | .record fields =>
    match Fields.get? fields "message" with
    | some (.text message) =>
      some (.ofTexts message ((Fields.get? fields "stack_trace").bind Document.text?))
    | _ => none
  | .error _ (.text message) _ _ => some (.ofTexts message none)
  | .existing v =>
    (g.read v "message").text?.map fun message =>
      .ofTexts message (g.read v "stack_trace").text?
  | _ => none

def plain (g : Graph) (failure : Value) : CommonAttributes :=
  ⟨g.read failure "message", (g.read failure "stackTrace").orElse (.text "")⟩

def toError (a : CommonAttributes) (g : Graph) (frames : Frames) (failure : Value)
    (kind : FailureKind Document) : Except Fault (ThrownError Document) :=
  let message := match kind with
    | .cancelled _ => a.message.defined?.getD (.text cancelledMessage)
    | _ => a.message
  ThrownError.ofKind g kind message (.received frames kind failure a.stackTrace)

end CommonAttributes

namespace Graph

/-- Walks on along a wire failure: as `walkFrom` does, but what is no failure object has no place in
the chain. -/
def wireWalkFrom (g : Graph) : Nat → List ObjectId → Value → Except Fault Chain
  | 0, _, v => .ok ⟨[], v.isTruthy⟩
  | left + 1, seen, v =>
    if v.isTruthy then
      match v.id? with
      | some id =>
        if seen.contains id then .ok ⟨[], true⟩
        else do return (← g.wireWalkFrom left (id :: seen) (g.causeOf v)).cons v
      | none => .error .wrongType
    else .ok ⟨[], false⟩

/-- The chain of causes of a wire failure. -/
def wireWalk (g : Graph) (depth : Depth) (v : Value) : Except Fault Chain :=
  g.wireWalkFrom (depth.linksIn g) [] v

end Graph

namespace ConverterOptions

/-- The message and the stack trace of a failure, out of their payload where there is one. -/
def attributesOf (o : ConverterOptions) (g : Graph) (failure : Value) : Logged CommonAttributes := do
  if failure.isMissing then throw .wrongType
  match g.truthyAt failure "encodedAttributes" with
  | none => return .plain g failure
  | some payload =>
    let decoded ← Logged.ofExcept (o.codec.decodeValue g payload)
    match CommonAttributes.ofDocument? g decoded with
    | some attributes => return attributes
    | none =>
      .report .warn "Ignoring undecodable encoded failure attributes" none
      return .plain g failure

/-- The report that a failure has no information, or none that names a class. -/
def reportUnmapped (info : FailureInfo Value) : Logged Unit :=
  .report .debug "Decoding failure without mapped failure info"
    (some (.record [("failureInfoCase", .existing (info.case.orElse (.text "none")))]))

/-- The error that one link becomes, and whether its class is that of its information. -/
def errorOf (o : ConverterOptions) (g : Graph) (link : Value) :
    Logged (ThrownError Document × Bool) := do
  let attributes ← o.attributesOf g link
  let info ← Logged.ofExcept (g.infoAt link)
  match ← Logged.ofExcept (info.toKind o.codec g) with
  | some kind => return (← Logged.ofExcept (attributes.toError g o.frames link kind), true)
  | none =>
    reportUnmapped info
    return (← Logged.ofExcept (attributes.toError g o.frames link .generic), false)

/-- The errors that links become, from the innermost one outwards; a link without a class of its own
drops what lies behind it. -/
def errorsOf (o : ConverterOptions) (g : Graph) :
    List Value → Logged (List (ThrownError Document))
  | [] => return []
  | link :: rest => do
    let errors ← o.errorsOf g rest
    let (e, mapped) ← o.errorOf g link
    return if mapped then e :: errors else [e]

/-- The errors for a wire failure, the outermost one first. -/
def receive (o : ConverterOptions) (g : Graph) (failure : Value) :
    Logged (List (ThrownError Document)) := do
  let chain ← Logged.ofExcept (g.wireWalk o.maxCauseDepth failure)
  if chain.truncated then reportTruncated .deserialize chain.links.length
  o.errorsOf g (linksOrSelf chain failure)

/-- The error for a wire failure, added to the graph. -/
def failureToError (o : ConverterOptions) (g : Graph) (failure : Value) :
    Logged (Graph × Value) := do
  return g.addErrors (← o.receive g failure)

end ConverterOptions
end FailureWire
