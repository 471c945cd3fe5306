import LogRelay.Logger.Session
import LogRelay.Main
import LogRelay.Sink.Session
import LogRelay.Proofs.Arena.Bump
import LogRelay.Proofs.Arena.Ownership
import LogRelay.Proofs.Arena.Safety
import LogRelay.Proofs.Record.RoundTrip
import LogRelay.Proofs.Render.Replay
import LogRelay.Proofs.Text.Bounded
import LogRelay.Proofs.Render.Bounded
import LogRelay.Proofs.Logger.History
import LogRelay.Proofs.Message
import LogRelay.Proofs.Logger.Conservation
import LogRelay.Proofs.Entry
import LogRelay.Proofs.Sink.Registry
import LogRelay.Proofs.Logger.Delivery
import LogRelay.Arena.Access
import LogRelay.Logger.Interrupt
import LogRelay.Proofs.Arena.Contention
import LogRelay.Proofs.Logger.Accounting
import LogRelay.Proofs.Checked.Arena
import LogRelay.Proofs.Checked.Ascii
import LogRelay.Proofs.Checked.Buffer
import LogRelay.Proofs.Checked.Decimal
import LogRelay.Proofs.Checked.Format
import LogRelay.Proofs.Checked.Logger
import LogRelay.Proofs.Arena.Slab
import LogRelay.Proofs.Logger.Atomicity
import LogRelay.Proofs.Logger.Capacity
import LogRelay.Proofs.Logger.Lifecycle
import LogRelay.Proofs.Format.Partition
import LogRelay.Proofs.Format.Grammar
import LogRelay.Proofs.Format.Concatenation
import LogRelay.Proofs.Record.Faults
import LogRelay.Proofs.Render.Concatenation
import LogRelay.Proofs.Record.Reading
import LogRelay.Proofs.Record.Recall
import LogRelay.Proofs.Logger.Limits
import LogRelay.Proofs.Render.Mismatch
import LogRelay.Proofs.Logger.Verdict
import LogRelay.Proofs.Text.Digits
import LogRelay.Proofs.Render.Padding
import LogRelay.Proofs.Decimal.Doubles
import LogRelay.Proofs.Render.Integer
import LogRelay.Proofs.Decimal.Notation
import LogRelay.Proofs.Decimal.Written
import LogRelay.Proofs.Render.Real
import LogRelay.Proofs.Decimal.Denoted
import LogRelay.Proofs.Decimal.Spacing
import LogRelay.Proofs.Render.Significant
import LogRelay.Proofs.Render.Width
import LogRelay.Proofs.Render.Pointer
import LogRelay.Proofs.Decimal.Alternate
import LogRelay.Proofs.Render.Alternate
import LogRelay.Arena.Interrupt
import LogRelay.Proofs.Arena.Renewal
import LogRelay.Proofs.Arena.Allotment
import LogRelay.Proofs.Logger.Retention
import LogRelay.Proofs.Logger.Stopping
import LogRelay.Proofs.Logger.Quiet
import LogRelay.Proofs.Logger.Tallies
import LogRelay.Proofs.Queue
import LogRelay.Proofs.Arena.Reclamation
import LogRelay.Proofs.Sink.Freshness
import LogRelay.Proofs.Logger.Setup
import LogRelay.Proofs.Text.Writing
