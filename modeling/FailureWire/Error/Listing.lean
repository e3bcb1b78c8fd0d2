import FailureWire.Error.Thrown

/-!
# What a listing of an error shows

Listings of the properties of an error leave out its message and its stack, the cause that it was made
with, and the name of an error of the host unless it was given one. Properties that no error of the
class has come last.

A listing is what `Object.entries(error)` gives.
-/

namespace FailureWire.ThrownError

def listedName (e : ThrownError Value) : Fields Document :=
  match e.body with
  | .host false => []
  | _ => [("name", .existing e.name)]

def listedContext (e : ThrownError Value) : Fields Document :=
  (e.body.context?.map fun context => ("context", context)).toList

def listedCause (e : ThrownError Value) : Fields Value :=
  if e.listsCause then (e.cause.map fun cause => ("cause", cause)).toList else []

def listing (e : ThrownError Value) : Fields Document :=
  e.listedName ++ e.listedContext ++
    (e.body.properties ++ e.listedCause ++ e.extra).mapValues .existing

end FailureWire.ThrownError
