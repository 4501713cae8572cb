import DatagramStream.Config
import DatagramStream.Signals

/-! The surroundings of a connection: its host, and the policy that decides what is sent again. -/

namespace DatagramStream

abbrev Millis := Nat

/-- A call that may have to wait answers `none` as long as nothing in `σ` lets it return. -/
structure Host (σ : Type) where
  send (header payload : Bytes) : σ → Except IoError Unit × σ
  /-- The next datagram, cut to the capacity; nothing at all says that the channel is closed. -/
  receive (capacity : Nat) : σ → Option (Except IoError Bytes × σ)
  read (limit : Nat) : σ → Except IoError Bytes × σ
  write (data : Bytes) : σ → Except IoError Unit × σ
  unblock : σ → σ
  peerClosed : σ → σ
  /-- Wait for an event of `interest`; the empty set says that the deadline has passed. -/
  wait (interest : Signals) (deadline : Option Millis) : σ → Option (Except IoError Signals × σ)

structure Policy (π : Type) where
  onSend (segment : Segment) : π → π
  onAck (ack : SeqNum) : π → π
  deadline : π → Option Millis
  due : π → List Bytes × π

def Policy.inert : Policy Unit where
  onSend _ := id
  onAck _ := id
  deadline _ := none
  due u := ([], u)

end DatagramStream
