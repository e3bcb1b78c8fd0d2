import FailureWire.Value.Basic
import FailureWire.Value.Fields

/-!
# Boxes

Objects around one primitive value: those that `Object(value)` makes, and addresses of the web (`URL`), which are read
and written as their text. An address is taken apart by the host (`FailureWire.Payload.Host`); what can be read off it
is kept with it.
-/

namespace FailureWire

/-- An address of the web. -/
structure Address where
  href : String
  origin : String
  protocol : String
  username : String
  password : String
  host : String
  hostname : String
  port : String
  pathname : String
  search : String
  hash : String
  /-- How many search parameters it has. -/
  searchCount : Nat
deriving DecidableEq, Repr

/-- The texts that can be read off an address, by name. -/
def Address.parts (a : Address) : Fields String :=
  [("href", a.href), ("origin", a.origin), ("protocol", a.protocol), ("username", a.username),
    ("password", a.password), ("host", a.host), ("hostname", a.hostname), ("port", a.port),
    ("pathname", a.pathname), ("search", a.search), ("hash", a.hash)]

/-- What a box holds. -/
inductive Boxed where
  | bool (b : Bool)
  | number (n : Number)
  | text (s : String)
  | address (a : Address)
deriving DecidableEq, Repr

def Boxed.primitive : Boxed → Value
  | .bool b => .bool b
  | .number n => .number n
  | .text s => .text s
  | .address a => .text a.href

end FailureWire
