/-!
# Faults

What can go wrong when values are written to payload text, read from it, read as failures, or logged.
The first three have no wording of their own: a value of the wrong type, text that cannot be read, and
numbers or nestings out of range. `loneHalf` is where texts here come to an end: they consist of
characters, and what goes on with half of a surrogate pair alone has no value.

The first three are the `TypeError`, the `SyntaxError` and the `RangeError` of the host; most others are the
errors that superjson throws, with its messages (`Fault.message?`).
-/

namespace FailureWire

/-- A reason why something stops. -/
inductive Fault where
  | wrongType
  | badText
  | outOfRange
  /-- Half of a surrogate pair, which is escaped alone or taken out of a text. -/
  | loneHalf
  /-- A key that could change what other objects inherit. -/
  | unsafeKey (key : String)
  /-- A path segment that could change what other objects inherit. -/
  | forbiddenSegment (segment : String)
  /-- A path with a backslash that escapes nothing. -/
  | badPath
  /-- A position behind the end of a set or a map. -/
  | outOfBounds
  | unknownNumericArray
  | unknownSymbol
  | unknownClass (name : String)
  | unknownCustom
  | unknownTransformation (name : String)
  /-- Nothing in the place of the context of a logger. -/
  | missingContext
deriving DecidableEq, Repr

/-- Where the message about an unknown class sends its reader. -/
def Fault.classAdvice : String :=
  "https:" ++ "//" ++ "github.com/blitz-js/superjson/issues/116#issuecomment-773996564"

/-- The wording of a fault; none for the faults without one. -/
def Fault.message? : Fault → Option String
  | .wrongType | .badText | .outOfRange | .loneHalf => none
  | .unsafeKey key =>
    some ("Detected property " ++ key ++
      ". This is a prototype pollution risk, please remove it from your object.")
  | .forbiddenSegment segment => some (segment ++ " is not allowed as a property")
  | .badPath => some "invalid path"
  | .outOfBounds => some "index out of bounds"
  | .unknownNumericArray => some "Trying to deserialize unknown typed array"
  | .unknownSymbol => some "Trying to deserialize unknown symbol"
  | .unknownClass name =>
    some ("Trying to deserialize unknown class '" ++ name ++ "' - check " ++ classAdvice)
  | .unknownCustom => some "Trying to deserialize unknown custom value"
  | .unknownTransformation name => some ("Unknown transformation: " ++ name)
  | .missingContext => some "missing bindings for child Pino"

end FailureWire
