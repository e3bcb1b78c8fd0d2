import FailureWire.Payload.Reader
import FailureWire.Value.Graph

/-!
# Payload codecs

A payload is bytes with metadata, one entry of which names the encoding. A codec turns values into
payloads and back. A payload in an encoding that a codec does not know is kept as it is, in both
directions, so that whoever knows the encoding can still read it later.

`Codec.standard` writes payload text. `Codec.masked` hides the bytes of that text under a mask; it
stands for codecs that encrypt.

A codec is a `PayloadCodec`. `Codec.standard` models `SuperjsonPayloadCodec`: `isPayload` is the guard before
its `encode`, and its text format is `superjson.stringify` and `superjson.parse` (`TextFormat.annotated`).
-/

namespace FailureWire

/-- Bytes with metadata. -/
structure Payload where
  metadata : Fields Bytes
  /-- The bytes; none where something else stands in their place. -/
  data : Option Bytes
deriving DecidableEq, Repr

/-- What a value is encoded as: a payload, or the value itself if it is a payload already. -/
inductive Encoded where
  | itself
  | payload (p : Payload)
deriving DecidableEq, Repr

/-- What a payload is decoded as: a value, or the payload itself in a foreign encoding. -/
inductive Decoded where
  | itself
  | value (d : Document)

/-- A way to write values as text and to read them. -/
structure TextFormat where
  write : Document → Except Fault (List Char)
  read : List Char → Except Fault Document

def TextFormat.annotated (host : Host) : TextFormat := ⟨Payload.encodeText, Payload.decodeText host⟩

/-- A way to turn values into payloads and back. -/
structure Codec where
  encode : Graph → Value → Except Fault Encoded
  decode : Payload → Except Fault Decoded

namespace Payload

/-- The metadata entry that names the encoding. -/
def encodingKey : String := "encoding"

def textEncoding : String := "json/superjson"

def inEncoding (encoding : String) (data : Bytes) : Payload :=
  ⟨[(encodingKey, Utf8.encode encoding.toList)], some data⟩

def isIn (p : Payload) (encoding : String) : Bool :=
  match Fields.get? p.metadata encodingKey with
  | some name => Utf8.decode name = encoding.toList
  | none => false

def document (p : Payload) : Document :=
  .record
    [("metadata", .record (p.metadata.map fun (name, bytes) => (name, .bytes bytes))),
      ("data", .ofOption (p.data.map .bytes))]

end Payload

namespace Graph

def isBytes (g : Graph) (d : Document) : Bool :=
  match d with
  | .existing v => (g.bytesOf? v).isSome
  | _ => false

/-- Whether a value is a payload: its data are bytes, and so is every entry of its metadata. -/
def isPayload (g : Graph) (v : Value) : Bool :=
  let metadata := g.read v "metadata"
  (g.bytesOf? (g.read v "data")).isSome && (g.objectOf? metadata).isSome &&
    (g.listing metadata).all fun entry => g.isBytes entry.2

/-- The bytes that a value has room for in memory: those of a numeric array count. -/
def memoryOf? (g : Graph) (v : Value) : Option Bytes :=
  match g.objectOf? v with
  | some (.bytes data) => some data
  | some (.numbers element items) => some (items.flatMap element.bytesOf)
  | _ => none

def readOf (g : Graph) (v : Value) (name : String) : Except Fault Value :=
  if v.isMissing then .error .wrongType else .ok (g.read v name)

def metadataOf (g : Graph) (v : Value) : Fields Bytes :=
  (g.listing v).filterMap fun (name, d) =>
    match d with
    | .existing w => (g.memoryOf? w).map fun bytes => (name, bytes)
    | _ => none

/-- The payload that a value is read as. There must be metadata, whose entry about the encoding must be
bytes unless it counts as false; missing data are no bytes at all. -/
def payloadOf (g : Graph) (v : Value) : Except Fault Payload := do
  let metadata ← g.readOf v "metadata"
  let encoding ← g.readOf metadata Payload.encodingKey
  if encoding.isTruthy && (g.memoryOf? encoding).isNone then .error .wrongType
  else
    let data := g.read v "data"
    return ⟨g.metadataOf metadata, if data = .undefined then some [] else g.memoryOf? data⟩

end Graph

namespace Codec

/-- What payload text is decoded as. -/
def decodeData (format : TextFormat) (data : Option Bytes) : Except Fault Decoded :=
  match data with
  | some data => do return .value (← format.read (Utf8.decode data))
  | none => .error .wrongType

/-- Writes values as payload text, and reads it, in a format. -/
def ofFormat (format : TextFormat) : Codec where
  encode g v :=
    if g.isPayload v then .ok .itself
    else do
      let text ← format.write (g.document v)
      return .payload (.inEncoding Payload.textEncoding (Utf8.encode text))
  decode p := if p.isIn Payload.textEncoding then decodeData format p.data else .ok .itself

/-- The codec of annotated JSON, which is read with the help of a host. -/
def standard (host : Host := .plain) : Codec := ofFormat (.annotated host)

/-- The bytes under a mask; under the same mask again they are what they were. -/
def mask (m : UInt8) (data : Bytes) : Bytes := data.map (· ^^^ m)

/-- Writes values as payload text under a mask, in an encoding of this name. -/
def masked (encoding : String) (m : UInt8) (host : Host := .plain) : Codec where
  encode g v := do
    let data := match ← (standard host).encode g v with
      | .payload p => p.data
      | .itself => g.bytesOf? (g.read v "data")
    return .payload (.inEncoding encoding (mask m (data.getD [])))
  decode p := if p.isIn encoding then decodeData (.annotated host) (p.data.map (mask m)) else .ok .itself

def encodeValue (c : Codec) (g : Graph) (v : Value) : Except Fault Document := do
  match ← c.encode g v with
  | .itself => return .existing v
  | .payload p => return p.document

/-- The value of a payload of a graph: the payload itself in a foreign encoding. -/
def decodeValue (c : Codec) (g : Graph) (payload : Value) : Except Fault Document := do
  match ← c.decode (← g.payloadOf payload) with
  | .itself => return .existing payload
  | .value d => return d

end Codec
end FailureWire
