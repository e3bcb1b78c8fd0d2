import FailureWire.Number.Basic

/-!
# Durations

On the wire a duration is a number of seconds and the nanoseconds beyond them. Both conversions round
at each step, as 64-bit numbers do.

The conversions are `millisToWireDuration` and `wireDurationToMillis`.
-/

namespace FailureWire

/-- A duration: seconds, and nanoseconds beyond them. -/
structure WireDuration where
  seconds : Number
  nanos : Number
deriving DecidableEq, Repr

namespace WireDuration

def nanosPerMilli : Number := 1000000
def nanosPerSecond : Number := 1000000000

/-- The duration of a number of milliseconds, to the nearest nanosecond. -/
def ofMillis (ms : Number) : WireDuration :=
  let total := (ms * nanosPerMilli).roundHalfUp
  let seconds := (total / nanosPerSecond).floor
  ⟨seconds, total - seconds * nanosPerSecond⟩

def toMillis (d : WireDuration) : Number := d.seconds * 1000 + d.nanos / nanosPerMilli

end WireDuration
end FailureWire
