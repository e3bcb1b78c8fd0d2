import FailureWire.Number.Basic

/-!
# Log levels

Six levels of rising severity. A logger with a level emits what is at least as severe.

The levels are `LogLevels`.
-/

namespace FailureWire

/-- How severe a log entry is. -/
inductive LogLevel where
  | trace | debug | info | warn | error | fatal
deriving DecidableEq, Repr

namespace LogLevel

def all : List LogLevel := [.trace, .debug, .info, .warn, .error, .fatal]

def name : LogLevel → String
  | .trace => "trace"
  | .debug => "debug"
  | .info => "info"
  | .warn => "warn"
  | .error => "error"
  | .fatal => "fatal"

/-- The number that stands for a level in a log line. -/
def severity : LogLevel → Nat
  | .trace => 10
  | .debug => 20
  | .info => 30
  | .warn => 40
  | .error => 50
  | .fatal => 60

def ofName? (name : String) : Option LogLevel := all.find? fun l => l.name = name

theorem ofName?_name (l : LogLevel) : ofName? l.name = some l := by
  cases l <;> decide

end LogLevel
end FailureWire
