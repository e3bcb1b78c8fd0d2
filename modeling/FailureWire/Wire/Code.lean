import FailureWire.Value.Basic

/-!
# Protocol codes

Kinds of timeouts and reasons to stop retrying travel as numbers. 0 means that nothing is specified;
a number that is no code of the table is treated alike when it is read.

The tables are `TimeoutType` and `RetryState`; reading a code is `timeoutTypeFromWire` and
`retryStateFromWire`, writing one is `timeoutTypeToWire` and `retryStateToWire`.
-/

namespace FailureWire

/-- What kind of timeout a failure reports. -/
inductive TimeoutType where
  | startToClose | scheduleToStart | scheduleToClose | heartbeat
deriving DecidableEq, Repr

/-- Why an activity or a child workflow stopped retrying. -/
inductive RetryState where
  | inProgress | nonRetryableFailure | timeout | maximumAttemptsReached | retryPolicyNotSet
  | internalServerError | cancelRequested
deriving DecidableEq, Repr

namespace TimeoutType

def all : List TimeoutType := [.startToClose, .scheduleToStart, .scheduleToClose, .heartbeat]

def code : TimeoutType → Number
  | .startToClose => 1
  | .scheduleToStart => 2
  | .scheduleToClose => 3
  | .heartbeat => 4

def name : TimeoutType → String
  | .startToClose => "START_TO_CLOSE"
  | .scheduleToStart => "SCHEDULE_TO_START"
  | .scheduleToClose => "SCHEDULE_TO_CLOSE"
  | .heartbeat => "HEARTBEAT"

def ofCode? (code : Number) : Option TimeoutType := all.find? fun t => t.code = code

end TimeoutType

namespace RetryState

def all : List RetryState :=
  [.inProgress, .nonRetryableFailure, .timeout, .maximumAttemptsReached, .retryPolicyNotSet,
    .internalServerError, .cancelRequested]

def code : RetryState → Number
  | .inProgress => 1
  | .nonRetryableFailure => 2
  | .timeout => 3
  | .maximumAttemptsReached => 4
  | .retryPolicyNotSet => 5
  | .internalServerError => 6
  | .cancelRequested => 7

def name : RetryState → String
  | .inProgress => "IN_PROGRESS"
  | .nonRetryableFailure => "NON_RETRYABLE_FAILURE"
  | .timeout => "TIMEOUT"
  | .maximumAttemptsReached => "MAXIMUM_ATTEMPTS_REACHED"
  | .retryPolicyNotSet => "RETRY_POLICY_NOT_SET"
  | .internalServerError => "INTERNAL_SERVER_ERROR"
  | .cancelRequested => "CANCEL_REQUESTED"

def ofCode? (code : Number) : Option RetryState := all.find? fun t => t.code = code

end RetryState

/-- The code that says that nothing is specified. -/
def unspecifiedCode : Number := 0

/-- The code that is sent for what stands in the place of a code, if anything does. -/
def codeToWire (code : Value) : Value := code.orElse (.number unspecifiedCode)

/-- A code of a table that is read from a failure; `undefined` unless the table has it. -/
def codeFromWire (has : Number → Bool) (code : Value) : Value :=
  match code with
  | .number n => if has n then code else .undefined
  | _ => .undefined

def timeoutTypeFromWire : Value → Value := codeFromWire fun n => (TimeoutType.ofCode? n).isSome

def retryStateFromWire : Value → Value := codeFromWire fun n => (RetryState.ofCode? n).isSome

end FailureWire
