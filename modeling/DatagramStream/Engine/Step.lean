import DatagramStream.Engine.Request

/-! An engine together with its surroundings, and what they do to each other. -/

namespace DatagramStream

inductive Event where
  | send (header payload : Bytes) (outcome : Except IoError Unit)
  | resend (header payload : Bytes) (outcome : Except IoError Unit)
  | receive (capacity : Nat) (outcome : Except IoError Bytes)
  | read (limit : Nat) (outcome : Except IoError Bytes)
  | write (data : Bytes) (outcome : Except IoError Unit)
  | unblock
  | peerClosed
  | wait (interest : Signals) (deadline : Option Millis) (outcome : Except IoError Signals)
  | onSend (segment : Segment)
  | onAck (ack : SeqNum)
  | due (datagrams : List Bytes)

def Event.isPolicy : Event → Bool
  | onSend _ | onAck _ | due _ => true
  | _ => false

structure Machine (π σ : Type) where
  engine : Engine
  policy : π
  host : σ

namespace Machine

variable {π σ : Type}

/-- Grant what the engine asks for. `none`: it has ended, or has to wait. -/
def step (P : Policy π) (H : Host σ) (m : Machine π σ) : Option (Machine π σ × List Event) :=
  match m.engine.request with
  | .transmit s next =>
    let (outcome, host) := H.send s.header.encode s.payload m.host
    let sent := Event.send s.header.encode s.payload outcome
    match outcome with
    | .ok () => some (⟨next outcome, P.onSend s m.policy, host⟩, [sent, .onSend s])
    | .error _ => some (⟨next outcome, m.policy, host⟩, [sent])
  | .resend header payload next =>
    let (outcome, host) := H.send header payload m.host
    some (⟨next outcome, m.policy, host⟩, [.resend header payload outcome])
  | .receive capacity next =>
    (H.receive capacity m.host).map fun (outcome, host) =>
      (⟨next outcome, m.policy, host⟩, [.receive capacity outcome])
  | .read limit next =>
    let (outcome, host) := H.read limit m.host
    some (⟨next outcome, m.policy, host⟩, [.read limit outcome])
  | .write data next =>
    let (outcome, host) := H.write data m.host
    some (⟨next outcome, m.policy, host⟩, [.write data outcome])
  | .unblock next =>
    some (⟨next, m.policy, H.unblock m.host⟩, [.unblock])
  | .peerClosed next =>
    some (⟨next, m.policy, H.peerClosed m.host⟩, [.peerClosed])
  | .wait interest next =>
    let deadline := P.deadline m.policy
    (H.wait interest deadline m.host).map fun (outcome, host) =>
      (⟨next outcome, m.policy, host⟩, [.wait interest deadline outcome])
  | .noteAck ack next =>
    some (⟨next, P.onAck ack m.policy, m.host⟩, [.onAck ack])
  | .collectDue next =>
    let (datagrams, policy) := P.due m.policy
    some (⟨next datagrams, policy, m.host⟩, [.due datagrams])
  | .finished _ => none

def iterate (P : Policy π) (H : Host σ) :
    Nat → Machine π σ → List Event → Machine π σ × List Event
  | 0, m, past => (m, past)
  | fuel + 1, m, past =>
    match m.step P H with
    | none => (m, past)
    | some (m, events) => iterate P H fuel m (events.reverse ++ past)

def run (P : Policy π) (H : Host σ) (fuel : Nat) (m : Machine π σ) : Machine π σ × List Event :=
  let (m, past) := m.iterate P H fuel []
  (m, past.reverse)

end Machine

end DatagramStream
