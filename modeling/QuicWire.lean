import QuicWire.Config
import QuicWire.Datagram.Contexts
import QuicWire.Frame.Samples
import QuicWire.Proofs.Conservation
import QuicWire.Proofs.Masking
import QuicWire.Proofs.Ranges
import QuicWire.Proofs.Truncation
import QuicWire.Proofs.Prediction
import QuicWire.Proofs.Walking
import QuicWire.Proofs.Canonical
import QuicWire.Proofs.Refusals
import QuicWire.Proofs.Containment
import QuicWire.Proofs.Exchange
import QuicWire.Proofs.Isolation
import QuicWire.Proofs.Atomicity
import QuicWire.Proofs.Recovery
import QuicWire.Proofs.SelfDelimiting
import QuicWire.Proofs.Payload
import QuicWire.Proofs.Sensitivity
import QuicWire.Proofs.Latch
import QuicWire.Proofs.Exhaustion
