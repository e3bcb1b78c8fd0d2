import FailureWire.Fault
import FailureWire.Log.Level
import FailureWire.Value.Document

/-!
# Log entries

What a conversion reports on its way. `Logged` computations may report entries and may stop with a
fault; what was reported before a fault stays reported.

An entry is a call of a `Logger` by `DefaultFailureConverter`, at the level `warn` or `debug`.
-/

namespace FailureWire

/-- A report: how severe it is, what it says, and further fields. -/
structure LogEntry where
  level : LogLevel
  message : String
  fields : Option Document

/-- A computation that reports entries and may stop with a fault. -/
abbrev Logged := ExceptT Fault (StateM (List LogEntry))

namespace Logged

def report (level : LogLevel) (message : String) (fields : Option Document) : Logged Unit :=
  modify fun entries => entries ++ [⟨level, message, fields⟩]

/-- A computation that may stop with a fault and reports nothing. -/
def ofExcept {α : Type} (x : Except Fault α) : Logged α :=
  match x with
  | .ok a => pure a
  | .error f => throw f

def outcome {α : Type} (x : Logged α) : Except Fault α × List LogEntry := x.run.run []

end Logged
end FailureWire
