import FailureWire.Log.Level
import FailureWire.Log.Message
import FailureWire.Log.Request

/-!
# Loggers

A logger has a threshold and contexts, those of the loggers that it descends from first. What is at
least as severe as the threshold becomes one line: the severity, the fields of the contexts, the fields
given with the message, and the message, in this order. Of several fields of one name the last one
counts, so that inner contexts override outer ones, and fields override contexts.

A child takes the threshold and the contexts of its parent and adds a context of its own; nothing that
happens to one logger changes another one. A silent logger emits nothing, and neither do its children.

`Logger` models `PinoLogger`, with `child` and one method for each level over pino's `write`; `silent` is
`NullLogger`.
-/

namespace FailureWire

/-- A logger. -/
structure Logger where
  /-- The least severe level that is emitted; none for a silent logger. -/
  threshold : Option LogLevel
  /-- The fields of the contexts, the outermost context first; none if no line is JSON with them. -/
  context : Option LogFields
deriving Inhabited

namespace Logger

/-- The field of the severity. -/
def levelKey : String := "level"

def messageKey : String := "msg"

/-- Names that set up a child logger instead of being fields of its context. -/
def setupKeys : List String := [levelKey, "serializers", "formatters", "customLevels"]

/-- The name by which a context is asked for its fields. -/
def ownershipKey : String := "hasOwnProperty"

def emits (l : Logger) (level : LogLevel) : Bool :=
  l.threshold.any fun t => t.severity ≤ level.severity

/-- A logger that emits nothing. -/
def silent : Logger := ⟨none, some []⟩

/-! ## Contexts -/

/-- The fields that a context lists; a text lists its characters. -/
def contextFields (g : Graph) (context : Value) : Fields Document :=
  match context with
  | .text s => Fields.ofItems (s.toList.map fun c => .text c.toString)
  | context => (g.listing context).filter fun f => !setupKeys.contains f.1

/-- A logger that descends from this one, with a context of its own. Nothing but `undefined` may stand
for no context. -/
def child (l : Logger) (g : Graph) (context : Value) : Except Fault Logger := do
  if l.threshold.isNone then return l
  if context ≠ .undefined && !context.isTruthy then throw .missingContext
  let fields := contextFields g context
  if fields.has ownershipKey then throw .wrongType
  let added ← LogFields.ofFields g true fields
  return { l with context := do return (← l.context) ++ (← added) }

def root (threshold : LogLevel) (g : Graph) (context : Value) : Except Fault Logger :=
  child ⟨some threshold, some []⟩ g context

/-! ## Lines -/

/-- The fields given with a message: an error counts as the error of the message. -/
def given (g : Graph) (fields : Value) : Fields Document :=
  if g.isRequest fields then [(Graph.requestKey, .record (g.requestFields fields))]
  else if (g.errorOf? fields).isSome then [(LogFields.errorKey, .existing fields)]
  else g.listing fields

def messageFields (g : Graph) (fields message : Value) : Except Fault LogFields := do
  let message ←
    if g.isRequest fields then pure message else g.messageOf fields message
  return ((g.render (.existing message)).map fun j => (messageKey, j)).toList

/-- The line for a message that is emitted; none if it is no JSON. -/
def line (l : Logger) (g : Graph) (level : LogLevel) (message fields : Value) :
    Except Fault (Option LogFields) := do
  let message ← messageFields g fields message
  let given ← LogFields.ofFields g false (given g fields)
  return do
    return [(levelKey, .number (.ofInt level.severity))] ++ (← l.context) ++ (← given) ++ message

/-- Logs a message: the line that is emitted, if one is. One that is no JSON cannot be read. -/
def log (l : Logger) (g : Graph) (level : LogLevel) (message fields : Value) :
    Except Fault (Option LogFields) :=
  if l.emits level then do
    match ← l.line g level message fields with
    | some line => return some line
    | none => throw .badText
  else .ok none

/-! ## Facts -/

theorem silent_log (g : Graph) (level : LogLevel) (message fields : Value) :
    silent.log g level message fields = .ok none := rfl

theorem silent_child (g : Graph) (context : Value) : silent.child g context = .ok silent := rfl

end Logger
end FailureWire
