import DatagramStream.Main
import DatagramStream.Memory.Pair
import DatagramStream.Proofs.Batching
import DatagramStream.Proofs.Calls.Basic
import DatagramStream.Proofs.Calls.Handshake
import DatagramStream.Proofs.Calls.Outcome
import DatagramStream.Proofs.Calls.Retry
import DatagramStream.Proofs.Canonical
import DatagramStream.Proofs.Fins
import DatagramStream.Proofs.Frame
import DatagramStream.Proofs.Handling
import DatagramStream.Proofs.Layout
import DatagramStream.Proofs.Lifecycle
import DatagramStream.Proofs.Lockstep
import DatagramStream.Proofs.Memory.Closed
import DatagramStream.Proofs.Memory.Conserving
import DatagramStream.Proofs.Memory.Draining
import DatagramStream.Proofs.Memory.Returning
import DatagramStream.Proofs.Memory.Waiting
import DatagramStream.Proofs.Network.Listening
import DatagramStream.Proofs.Network.Safety
import DatagramStream.Proofs.Network.Speaking
import DatagramStream.Proofs.Pair.Acks
import DatagramStream.Proofs.Pair.Acts
import DatagramStream.Proofs.Pair.Closing
import DatagramStream.Proofs.Pair.Cost
import DatagramStream.Proofs.Pair.Hearing
import DatagramStream.Proofs.Pair.Ledger
import DatagramStream.Proofs.Pair.Moves
import DatagramStream.Proofs.Pair.Opening
import DatagramStream.Proofs.Pair.Outcome
import DatagramStream.Proofs.Pair.Progress
import DatagramStream.Proofs.Pair.Run
import DatagramStream.Proofs.Pair.Running
import DatagramStream.Proofs.Pair.Stream
import DatagramStream.Proofs.Renumbering.Engine
import DatagramStream.Proofs.Renumbering.Run
import DatagramStream.Proofs.Reporting
import DatagramStream.Proofs.Resending.Run
import DatagramStream.Proofs.Resending.Turns
import DatagramStream.Proofs.Runs
import DatagramStream.Proofs.Scripted
import DatagramStream.Proofs.Session.Acknowledging
import DatagramStream.Proofs.Session.Answering
import DatagramStream.Proofs.Session.Basic
import DatagramStream.Proofs.Session.Delivery
import DatagramStream.Proofs.Session.Intake
import DatagramStream.Proofs.Session.Loop
import DatagramStream.Proofs.Session.Marks
import DatagramStream.Proofs.Session.Numbering
import DatagramStream.Proofs.Session.Opening
import DatagramStream.Proofs.Session.Teardown
import DatagramStream.Proofs.Steps
import DatagramStream.Proofs.Stopping
import DatagramStream.Proofs.Udp.Peer
import DatagramStream.Proofs.Udp.Readiness
import DatagramStream.Proofs.Udp.Staging
import DatagramStream.Proofs.Wire
import DatagramStream.Script
