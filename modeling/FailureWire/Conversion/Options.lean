import FailureWire.Error.Cancellation
import FailureWire.Error.Chain
import FailureWire.Payload.Codec

/-!
# Options of a converter

What a converter between errors and wire failures can be told, with the defaults for what it is not
told.

The options are `FailureConverterOptions`, with the defaults that the constructor of
`DefaultFailureConverter` puts in. `frames` is no option there: it is what the host knows of the call.
-/

namespace FailureWire

/-- How errors and wire failures are converted into each other. -/
structure ConverterOptions where
  /-- Turns details and encoded attributes into payloads and back. -/
  codec : Codec := .standard
  /-- The longest chain of causes that is converted. -/
  maxCauseDepth : Depth := .default
  /-- Whether an error that was decoded from a wire failure is sent as that failure. -/
  reuseStoredFailure : Bool := true
  /-- Whether messages and stack traces move into a payload. -/
  encodeCommonAttributes : Bool := false
  /-- Whether stack traces are sent. -/
  includeStackTrace : Bool := true
  /-- Who the failures are sent by. -/
  source : Value := .text "TypeScriptSDK"
  /-- Where the conversions are called from. -/
  frames : Frames := .none

def encodedMessage : String := "Encoded failure"

def reportContext : Fields Document := [("module", .text "failure-converter")]

/-- Which way a conversion goes. -/
inductive Direction where
  | serialize | deserialize
deriving DecidableEq, Repr

def Direction.name : Direction → String
  | .serialize => "serialize"
  | .deserialize => "deserialize"

end FailureWire
