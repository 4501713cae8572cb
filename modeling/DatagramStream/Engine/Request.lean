import DatagramStream.Engine.Basic

/-! What an engine asks for at each point, and where each answer takes it. -/

namespace DatagramStream

namespace Engine

def arrival (e : Engine) : Except IoError Bytes → Except ConnectionError (Option Segment)
  | .error cause => .error (.io cause)
  | .ok [] => .error .channelClosed
  | .ok datagram =>
    match Segment.ofBuffer e.config.receiveCapacity datagram with
    | .error _ => .ok none
    | .ok segment => .ok (some segment)

/-! The handshake. -/

def unresolved (e : Engine) : Engine :=
  e.goto (.unblock (.ok ()))

def broken (e : Engine) (cause : ConnectionError) : Engine :=
  e.goto (.unblock (.error cause))

def acksSyn (e : Engine) (s : Segment) : Bool :=
  s.header.flags.ack && e.config.acks.accepts s.header.ack (e.ctx.isn + 1)

def onSynAck (e : Engine) (s : Segment) : Engine :=
  if s.header.flags.syn && e.acksSyn s then
    { e with
      ctx := { e.ctx with expected := s.header.seq + 1, next := e.ctx.isn + 1 }
      point := .ackSynAck }
  else
    e.unresolved

def onSyn (e : Engine) (s : Segment) : Engine :=
  if s.header.flags.syn then
    { e with
      ctx := { e.ctx with expected := s.header.seq + 1, next := e.ctx.isn }.transition .recvSyn
      point := .sendSynAck }
  else
    e.unresolved

def onFirstAck (e : Engine) (s : Segment) : Engine :=
  if e.acksSyn s then
    { e with
      ctx := { e.ctx with next := e.ctx.isn + 1 }.transition .recvAck
      point := .unblock (.ok ()) }
  else
    e.unresolved

def onReply (e : Engine) (onSegment : Engine → Segment → Engine) (answer : Except IoError Bytes) :
    Engine :=
  match e.arrival answer with
  | .error cause => e.broken cause
  | .ok none => e.unresolved
  | .ok (some s) => onSegment e s

def opened (e : Engine) : Except ConnectionError Unit → Engine
  | .error cause => e.fail cause
  | .ok () =>
    if e.ctx.state = .established then
      if e.thenLoop then e.turn else e.goto (.ended (.ok ()))
    else
      e.fail (.handshakeIncomplete e.ctx.state)

/-! The control loop. -/

def onFinAcked (e : Engine) : Engine :=
  let ctx := e.ctx.transition .recvAck
  let done :=
    match ctx.state with
    | .finWait2 => ctx.done || e.config.teardown == .awaitAck
    | .timeWait | .closed => true
    | _ => ctx.done
  { e with ctx := { ctx with done := done } }

def onAck (e : Engine) (ack : SeqNum) : Engine :=
  if e.ctx.state.awaitsFinAck && e.config.acks.accepts ack e.ctx.next then e.onFinAcked else e

def onContent (e : Engine) (s : Segment) (rest : Signals) : Engine :=
  if s.header.flags.fin then
    { e with ctx := { e.ctx with expected := s.header.seq + 1 }, point := .ackFin rest }
  else if !s.payload.isEmpty && e.ctx.inOrder s.header.seq && e.ctx.state.canReceive then
    e.goto (.deliver s.payload rest)
  else
    e.react rest

def onSegment (e : Engine) (s : Segment) (rest : Signals) : Engine :=
  if s.header.flags.ack then e.goto (.noteAck s rest) else e.onContent s rest

def closeIfTimeWait (e : Engine) : Engine :=
  if e.ctx.state = .timeWait then { e with ctx := { e.ctx with done := true } } else e

def onFinAnswered (e : Engine) (rest : Signals) : Engine :=
  if e.ctx.peerFinSeen then
    e.closeIfTimeWait.react rest
  else
    { e with
      ctx := { e.ctx with peerFinSeen := true }.transition .recvFin
      point := .tellPeerClosed rest }

def onSuccess {α : Type} (e : Engine) (next : α → Engine) : Except IoError α → Engine
  | .ok a => next a
  | .error cause => e.fail (.io cause)

def onOpening (e : Engine) (next : Engine) : Except IoError Unit → Engine
  | .ok () => next
  | .error cause => e.broken (.io cause)

def request (e : Engine) : Request Engine :=
  match e.point with
  | .sendSyn =>
    .transmit (e.stamp .synOnly []) (e.onOpening (e.goto .awaitSynAck))
  | .awaitSynAck =>
    .receive e.config.receiveCapacity (e.onReply onSynAck)
  | .ackSynAck =>
    .transmit (e.stamp .ackOnly [])
      (e.onOpening { e with ctx := e.ctx.transition .recvSynAck, point := .unblock (.ok ()) })
  | .awaitSyn =>
    .receive e.config.receiveCapacity (e.onReply onSyn)
  | .sendSynAck =>
    .transmit (e.stamp .synAck []) (e.onOpening (e.goto .awaitFirstAck))
  | .awaitFirstAck =>
    .receive e.config.receiveCapacity (e.onReply onFirstAck)
  | .unblock outcome =>
    .unblock (e.opened outcome)
  | .wait =>
    .wait e.interest (e.onSuccess fun events => e.react (events.inter e.interest))
  | .read rest =>
    .read e.config.payloadLimit
      (e.onSuccess fun data => if data.isEmpty then e.react rest else e.goto (.sendData data rest))
  | .sendData payload rest =>
    .transmit (e.stamp .ackOnly payload)
      (e.onSuccess fun _ =>
        { e with ctx := e.ctx.recordSent .ackOnly payload.length }.react rest)
  | .receive rest =>
    .receive e.config.receiveCapacity fun answer =>
      match e.arrival answer with
      | .error cause => e.fail cause
      | .ok none => e.react rest
      | .ok (some s) => e.onSegment s rest
  | .noteAck s rest =>
    .noteAck s.header.ack ((e.onAck s.header.ack).onContent s rest)
  | .ackFin rest =>
    .transmit (e.stamp .ackOnly []) (e.onSuccess fun _ => e.onFinAnswered rest)
  | .tellPeerClosed rest =>
    .peerClosed (e.closeIfTimeWait.react rest)
  | .deliver payload rest =>
    .write payload
      (e.onSuccess fun _ =>
        { e with ctx := e.ctx.recordDelivered payload.length, point := .ackData rest })
  | .ackData rest =>
    .transmit (e.stamp .ackOnly []) (e.onSuccess fun _ => e.react rest)
  | .sendFin =>
    .transmit (e.stamp .finOnly [])
      (e.onSuccess fun _ =>
        { e with
          ctx := (e.ctx.recordSent .finOnly 0).transition .sendFin
          point := .receive .empty })
  | .collectDue =>
    .collectDue e.resending
  | .resend datagram more =>
    .resend (datagram.take headerLength) (datagram.drop headerLength)
      (e.onSuccess fun _ => e.resending more)
  | .ended result =>
    .finished result

end Engine

end DatagramStream
