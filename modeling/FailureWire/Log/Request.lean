import FailureWire.Value.Graph

/-!
# Requests in log lines

Fields that look like a request to a web server, by a method, headers and a socket, are logged as one:
as a record of what tells requests apart.

These are `mapHttpRequest` and `reqSerializer` of pino's standard serializers.
-/

namespace FailureWire.Graph

def requestKey : String := "req"

/-- A property that counts as true, or else another value. -/
def readOr (g : Graph) (v : Value) (name : String) (otherwise : Value) : Value :=
  let w := g.read v name
  if w.isTruthy then w else otherwise

/-- Whether a value looks like a request. -/
def isRequest (g : Graph) (v : Value) : Bool :=
  ["method", "headers", "socket"].all fun name => (g.read v name).isTruthy

/-- The address that a request asks for. -/
def requestUrl (g : Graph) (v : Value) : Value :=
  let path := g.read v "path"
  let url := g.readOr v "url" .undefined
  g.readOr v "originalUrl" (if path.text?.isSome then path else g.readOr url "path" url)

def requestFields (g : Graph) (v : Value) : Fields Document :=
  let info := g.readOr v "info" .undefined
  let connection := g.readOr v "info" (g.read v "socket")
  let optional (name : String) : Fields Document :=
    if (g.read v name).isTruthy then [(name, .existing (g.read v name))] else []
  [("id", .existing (g.readOr v "id" (g.read info "id"))), ("method", .existing (g.read v "method")),
      ("url", .existing (g.requestUrl v))] ++
    optional "query" ++ optional "params" ++
    [("headers", .existing (g.read v "headers")),
      ("remoteAddress", .existing (g.read connection "remoteAddress")),
      ("remotePort", .existing (g.read connection "remotePort"))]

end FailureWire.Graph
