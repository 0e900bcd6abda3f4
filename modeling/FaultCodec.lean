import FaultCodec.Frame
import FaultCodec.Host
import FaultCodec.Settings.Json
import FaultCodec.Settings.Load
import FaultCodec.Settings.Schema
import FaultCodec.Proofs.Relay.Provenance
import FaultCodec.Proofs.Relay.Transparency
import FaultCodec.Proofs.Relay.Retention
import FaultCodec.Proofs.Status.Canonical
import FaultCodec.Proofs.Status.Damage
import FaultCodec.Proofs.Status.Equivalence
import FaultCodec.Proofs.App.Teardown
import FaultCodec.Proofs.Frame
import FaultCodec.Proofs.Host.Closers
import FaultCodec.Proofs.Host.Failures
import FaultCodec.Proofs.Settings.Acceptance
import FaultCodec.Proofs.Settings.Environment
import FaultCodec.Proofs.Settings.Layers
import FaultCodec.Proofs.Settings.Merge
import FaultCodec.Proofs.Settings.Precedence
import FaultCodec.Proofs.Host.Routing
import FaultCodec.Proofs.Status.Trailers
import FaultCodec.Proofs.Json.Decides
import FaultCodec.Proofs.Json.Filling
import FaultCodec.Proofs.Payload.Documents
import FaultCodec.Proofs.Status.Documents
import FaultCodec.Proofs.Settings.Documents
import FaultCodec.Proofs.Relay.Answers
import FaultCodec.Proofs.Status.Causes
import FaultCodec.Proofs.Fault.Chains
import FaultCodec.Proofs.Status.Fallback
import FaultCodec.Proofs.Settings.Validation
import FaultCodec.Proofs.Host.Starting
import FaultCodec.Proofs.Status.Lines
