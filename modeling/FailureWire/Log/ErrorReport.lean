import FailureWire.Fault
import FailureWire.Log.Render
import FailureWire.Value.Coerce
import FailureWire.Value.Method

/-!
# Errors in log lines

An error is logged as a record with its type, its message, its stack, its cause and its listed
properties. So is anything that has a message which is a text. Errors inside each other are logged
alike, but not an error inside itself.

The record is the one that `errWithCause` makes, the serializer that `PinoLogger` gives to `err`.
-/

namespace FailureWire

/-- The numbers of the kinds of errors that the host raises about its own objects, by name. -/
def hostErrorCodes : List (String × String) :=
  [("IndexSizeError", "INDEX_SIZE_ERR"), ("DOMStringSizeError", "DOMSTRING_SIZE_ERR"),
    ("HierarchyRequestError", "HIERARCHY_REQUEST_ERR"),
    ("WrongDocumentError", "WRONG_DOCUMENT_ERR"),
    ("InvalidCharacterError", "INVALID_CHARACTER_ERR"),
    ("NoDataAllowedError", "NO_DATA_ALLOWED_ERR"),
    ("NoModificationAllowedError", "NO_MODIFICATION_ALLOWED_ERR"),
    ("NotFoundError", "NOT_FOUND_ERR"), ("NotSupportedError", "NOT_SUPPORTED_ERR"),
    ("InUseAttributeError", "INUSE_ATTRIBUTE_ERR"), ("InvalidStateError", "INVALID_STATE_ERR"),
    ("SyntaxError", "SYNTAX_ERR"), ("InvalidModificationError", "INVALID_MODIFICATION_ERR"),
    ("NamespaceError", "NAMESPACE_ERR"), ("InvalidAccessError", "INVALID_ACCESS_ERR"),
    ("ValidationError", "VALIDATION_ERR"), ("TypeMismatchError", "TYPE_MISMATCH_ERR"),
    ("SecurityError", "SECURITY_ERR"), ("NetworkError", "NETWORK_ERR"),
    ("AbortError", "ABORT_ERR"), ("URLMismatchError", "URL_MISMATCH_ERR"),
    ("QuotaExceededError", "QUOTA_EXCEEDED_ERR"), ("TimeoutError", "TIMEOUT_ERR"),
    ("InvalidNodeTypeError", "INVALID_NODE_TYPE_ERR"), ("DataCloneError", "DATA_CLONE_ERR")]

/-- The class of the errors that the host raises about its own objects. -/
def hostErrorClass : ErrorClass := .derived "DOMException" .error

/-- What a listing shows of such an error through its class: its name, the number of its kind (0 for
a kind without one), and all the numbers. -/
def hostErrorFields (name : Value) : Fields Document :=
  let numbered := hostErrorCodes.mapIdx fun i (kind, constant) =>
    (kind, constant, Number.ofInt (i + 1))
  let code := (numbered.find? fun n => Value.text n.1 = name).map (·.2.2)
  [("name", .existing name), ("code", .number (code.getD 0))] ++
    numbered.map fun (_, constant, n) => (constant, .number n)

/-- The property by which a report leads back to the error that it is about. It is not logged. -/
def originKey : String := "raw"

/-- Whether a report has a value for a property already, be it listed or not. -/
def isReported (report : Fields Document) (name : String) : Bool :=
  match Fields.get? report name with
  | none | some .undefined | some (.existing .undefined) => name = originKey || isInherited name
  | some _ => true

def contextMessage? (context : Fields Document) : Option String :=
  match Fields.get? context "message" with
  | some (.existing v) => v.text?
  | some d => d.text?
  | none => none

namespace Graph

def hasMessage (g : Graph) (v : Value) : Bool := ((g.get? v "message").bind Value.text?).isSome

/-- The type of a value that is logged like an error: its class, unless something else takes the place
of the class; then its name. -/
def reportType (g : Graph) (v : Value) : Document :=
  if (g.get? v "constructor").isSome then .existing (g.read v "name")
  else .text (((g.errorOf? v).map (·.errorClass.name)).getD "Object")

def reportStack (g : Graph) (v : Value) : Value :=
  match g.errorOf? v with
  | some e => g.stackOf e
  | none => g.read v "stack"

def reportFields (g : Graph) (v : Value) : Fields Document :=
  match g.errorOf? v with
  | some e => if e.errorClass = hostErrorClass then hostErrorFields e.name ++ e.listing else e.listing
  | none => g.listing v

/-- Adds a property to a report. What has a message is reported in turn, except inside itself; that is
impossible for a context, which cannot be marked as being reported. -/
def addToReport (g : Graph) (outer : List ObjectId) (reportOf : Value → Except Fault Document)
    (report : Fields Document) (name : String) (d : Document) : Except Fault (Fields Document) :=
  if isReported report name then .ok report
  else match d with
    | .existing v =>
      if g.hasMessage v then
        if v.id?.any outer.contains then .ok report
        else do return Fields.set report name (← reportOf v)
      else .ok (Fields.set report name d)
    | .record context =>
      if (contextMessage? context).isSome then .error .wrongType
      else .ok (Fields.set report name d)
    | d => .ok (Fields.set report name d)

def reportHead (g : Graph) (v : Value) : Fields Document :=
  [("type", g.reportType v), ("message", .existing (g.read v "message")),
    ("stack", .existing (g.reportStack v))]

/-- The errors that an error stands for together, if it has a list of them. -/
def aggregated (g : Graph) (reportOf : Value → Except Fault Document) (v : Value) :
    Except Fault (Fields Document) :=
  match g.listOf? (g.read v "errors") with
  | some errors => do return [("aggregateErrors", .list (← errors.mapM reportOf))]
  | none => .ok []

def causeFields (g : Graph) (v : Value) : Fields Document :=
  let cause := g.read v "cause"
  if g.hasMessage cause then [("cause", .existing cause)] else []

/-- A value as it is logged inside the objects `outer`; `fuel` bounds their number. -/
def reportIn (g : Graph) : Nat → List ObjectId → Value → Except Fault Document
  | 0, _, _ => .error .outOfRange
  | fuel + 1, outer, v =>
    if g.hasMessage v then do
      let outer := v.id?.toList ++ outer
      let reportOf := g.reportIn fuel outer
      let head := g.reportHead v ++ (← g.aggregated reportOf v)
      let fields := g.causeFields v ++ g.reportFields v
      return .record
        (← fields.foldlM (fun report f => g.addToReport outer reportOf report f.1 f.2) head)
    else .ok (.existing v)

def report (g : Graph) (v : Value) : Except Fault Document := g.reportIn (g.size + 2) [] v

end Graph
end FailureWire
