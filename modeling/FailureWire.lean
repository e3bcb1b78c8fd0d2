import FailureWire.Config.Loaded
import FailureWire.Conversion.Receive
import FailureWire.Log.Logger
import FailureWire.Policy
import FailureWire.Text.Pattern
import FailureWire.Proofs.Conversion.Stored
import FailureWire.Proofs.Conversion.Cancellation
import FailureWire.Proofs.Conversion.RoundTrip
import FailureWire.Proofs.Conversion.Rederivation
import FailureWire.Proofs.Conversion.Reuse
import FailureWire.Proofs.Wire.Typed
import FailureWire.Proofs.Conversion.Decoding
import FailureWire.Proofs.Conversion.Encoding
import FailureWire.Proofs.Conversion.Totality
import FailureWire.Proofs.Graph.Same
import FailureWire.Proofs.Wire.Twins
import FailureWire.Proofs.Conversion.Secrecy
import FailureWire.Proofs.Payload.Counterparts
import FailureWire.Proofs.Conversion.Transparency
import FailureWire.Proofs.Wire.Parsed
import FailureWire.Proofs.Conversion.NormalForm
import FailureWire.Proofs.Graph.Tree
import FailureWire.Proofs.Number.Digits
import FailureWire.Proofs.Number.Nearest
import FailureWire.Proofs.Number.Shortest
import FailureWire.Proofs.Payload.Draft
import FailureWire.Proofs.Payload.Drafted
import FailureWire.Proofs.Payload.HandedOn
import FailureWire.Proofs.Config.Sources
import FailureWire.Proofs.Policy
import FailureWire.Proofs.Policy.Settings
import FailureWire.Proofs.Config.Provenance
import FailureWire.Proofs.Conversion.Conformance
import FailureWire.Proofs.Wire.Kept
import FailureWire.Proofs.Conversion.Validation
import FailureWire.Proofs.Error.Walk
import FailureWire.Proofs.Conversion.Signal
import FailureWire.Proofs.Log.Tree
import FailureWire.Proofs.Wire.Located
import FailureWire.Proofs.Conversion.Normalised
import FailureWire.Proofs.Conversion.Trace
