import DatagramStream.Context
import DatagramStream.Host

/-! The engine of a connection, which asks its surroundings for one thing at a time. -/

namespace DatagramStream

inductive Role where
  | active
  | passive
  deriving DecidableEq

namespace Role

def other : Role → Role
  | active => passive
  | passive => active

@[simp] theorem other_other (r : Role) : r.other.other = r := by
  cases r <;> rfl

theorem other_ne (r : Role) : r.other ≠ r := by
  cases r <;> simp [other]

theorem eq_or_eq_other (r q : Role) : q = r ∨ q = r.other := by
  cases r <;> cases q <;> simp [other]

def pick {α : Type} (x y : α) : Role → α
  | active => x
  | passive => y

@[simp] theorem pick_active {α : Type} (x y : α) : pick x y active = x := rfl

@[simp] theorem pick_passive {α : Type} (x y : α) : pick x y passive = y := rfl

end Role

/-- What an engine is about to do. The signals that some of them carry are the events of this turn
of the control loop that have not been reacted to yet. -/
inductive Point where
  | sendSyn
  | awaitSynAck
  | ackSynAck
  | awaitSyn
  | sendSynAck
  | awaitFirstAck
  | unblock (opened : Except ConnectionError Unit)
  | wait
  | read (rest : Signals)
  | sendData (payload : Bytes) (rest : Signals)
  | receive (rest : Signals)
  | noteAck (segment : Segment) (rest : Signals)
  | ackFin (rest : Signals)
  | tellPeerClosed (rest : Signals)
  | deliver (payload : Bytes) (rest : Signals)
  | ackData (rest : Signals)
  | sendFin
  | collectDue
  | resend (datagram : Bytes) (more : List Bytes)
  | ended (result : Except ConnectionError Unit)

structure Engine where
  config : Config
  ctx : Context
  thenLoop : Bool
  point : Point

/-- What an engine asks for, and how it goes on. -/
inductive Request (τ : Type) where
  | transmit (segment : Segment) (next : Except IoError Unit → τ)
  | resend (header payload : Bytes) (next : Except IoError Unit → τ)
  | receive (capacity : Nat) (next : Except IoError Bytes → τ)
  | read (limit : Nat) (next : Except IoError Bytes → τ)
  | write (data : Bytes) (next : Except IoError Unit → τ)
  | unblock (next : τ)
  | peerClosed (next : τ)
  | wait (interest : Signals) (next : Except IoError Signals → τ)
  | noteAck (ack : SeqNum) (next : τ)
  | collectDue (next : List Bytes → τ)
  | finished (result : Except ConnectionError Unit)

namespace Engine

def goto (e : Engine) (p : Point) : Engine :=
  { e with point := p }

def fail (e : Engine) (cause : ConnectionError) : Engine :=
  e.goto (.ended (.error cause))

def result? (e : Engine) : Option (Except ConnectionError Unit) :=
  match e.point with
  | .ended result => some result
  | _ => none

def stamp (e : Engine) (flags : Flags) (payload : Bytes) : Segment where
  header :=
    { seq := e.ctx.next, ack := e.ctx.expected, flags := flags, window := e.config.window }
  payload := payload

def interest (e : Engine) : Signals :=
  if e.ctx.state.canSend then .all else .network

def turn (e : Engine) : Engine :=
  e.goto (if e.ctx.done then .ended (.ok ()) else .wait)

def resending (e : Engine) : List Bytes → Engine
  | [] => e.turn
  | datagram :: more => e.goto (.resend datagram more)

def react (e : Engine) (rest : Signals) : Engine :=
  if rest.appData then
    e.goto (.read { rest with appData := false })
  else if rest.networkData then
    e.goto (.receive { rest with networkData := false })
  else if rest.closeRequested ∧ e.ctx.state.canSend then
    e.goto .sendFin
  else
    e.goto .collectDue

def handshake (config : Config) (ctx : Context) (role : Role) : Engine :=
  match config.validate with
  | .error cause => ⟨config, ctx, false, .unblock (.error cause)⟩
  | .ok () =>
    match role with
    | .active => ⟨config, ctx.transition .sendSyn, false, .sendSyn⟩
    | .passive => ⟨config, ctx.transition .listen, false, .awaitSyn⟩

def loop (config : Config) (ctx : Context) : Engine :=
  let e : Engine := ⟨config, ctx, false, .wait⟩
  if ctx.state.isSynchronized then e.turn else e.fail (.notSynchronized ctx.state)

def run (config : Config) (ctx : Context) (role : Role) : Engine :=
  { handshake config ctx role with thenLoop := true }

end Engine

end DatagramStream
