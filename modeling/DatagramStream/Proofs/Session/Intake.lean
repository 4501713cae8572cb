import DatagramStream.Proofs.Session.Basic

/-! What a step of the control loop takes in from the peer. -/

namespace DatagramStream

def Event.answer? : Event → Option (Except IoError Unit)
  | write _ outcome => some outcome
  | _ => none

namespace Trace

def answers (t : Trace) : List (Except IoError Unit) :=
  t.filterMap Event.answer?

@[simp] lemma answers_append (t u : Trace) : answers (t ++ u) = answers t ++ answers u :=
  List.filterMap_append

end Trace

namespace Engine

variable {e e' : Engine} {events : List Event}

def Idle (e : Engine) : Prop :=
  match e.point with
  | .noteAck _ _ | .deliver _ _ => False
  | _ => True

lemma idle_react (e : Engine) (rest : Signals) : (e.react rest).Idle := by
  rw [react]
  split_ifs <;> exact trivial

lemma idle_resending (e : Engine) (datagrams : List Bytes) : (e.resending datagrams).Idle := by
  cases datagrams with
  | nil =>
    rw [resending, turn]
    split_ifs <;> exact trivial
  | cons datagram more => exact trivial

lemma idle_onFinAnswered (e : Engine) (rest : Signals) : (e.onFinAnswered rest).Idle := by
  rw [onFinAnswered]
  split_ifs
  · exact idle_react _ rest
  · exact trivial

structure Apart (e : Engine) (events : List Event) (e' : Engine) : Prop where
  arrived : Trace.arrived events = []
  written : Trace.written events = []
  answers : Trace.answers events = []
  expected : e'.ctx.expected = e.ctx.expected
  received : e'.ctx.received = e.ctx.received
  before : e.Idle
  after : e'.Idle
  unheard : e.heardFin = false → e'.heardFin = false
  heard : e.heardFin = true → e'.heardFin = true ∨ e'.stage = .finished

lemma Apart.of_heardFin (ha : Trace.arrived events = []) (hw : Trace.written events = [])
    (hs : Trace.answers events = []) (hx : e'.ctx.expected = e.ctx.expected)
    (hr : e'.ctx.received = e.ctx.received) (hb : e.Idle) (hi : e'.Idle)
    (hf : e'.heardFin = e.heardFin) :
    e.Apart events e' :=
  ⟨ha, hw, hs, hx, hr, hb, hi, fun h => hf.trans h, fun h => .inl (hf.trans h)⟩

lemma Apart.react {rest : Signals} (ha : Trace.arrived events = []) (hw : Trace.written events = [])
    (hs : Trace.answers events = []) (hx : e'.ctx.expected = e.ctx.expected)
    (hr : e'.ctx.received = e.ctx.received) (hb : e.Idle) (hf : e'.ctx.peerFinSeen = e.heardFin) :
    e.Apart events (e'.react rest) :=
  .of_heardFin ha hw hs (by rw [react_ctx, hx]) (by rw [react_ctx, hr]) hb (idle_react e' rest)
    (by rw [heardFin_react, hf])

lemma Apart.resending {datagrams : List Bytes} (ha : Trace.arrived events = [])
    (hw : Trace.written events = []) (hs : Trace.answers events = [])
    (hx : e'.ctx.expected = e.ctx.expected) (hr : e'.ctx.received = e.ctx.received) (hb : e.Idle)
    (hf : e'.ctx.peerFinSeen = e.heardFin) :
    e.Apart events (e'.resending datagrams) :=
  .of_heardFin ha hw hs (by rw [resending_ctx, hx]) (by rw [resending_ctx, hr]) hb
    (idle_resending e' datagrams) (by rw [heardFin_resending, hf])

inductive Intake : Engine → List Event → Engine → Prop
  | apart {e e' : Engine} {events : List Event} : e.Apart events e' → Intake e events e'
  | hear (e : Engine) (rest : Signals) {d : Bytes} {g : Segment}
      (good : Segment.ofBuffer e.config.receiveCapacity d = .ok g) :
      Intake (e.goto (.receive rest)) [.receive e.config.receiveCapacity (.ok d)]
        (e.onSegment g rest)
  | noteAck (e : Engine) (g : Segment) (rest : Signals) :
      Intake (e.goto (.noteAck g rest)) [.onAck g.header.ack]
        ((e.onAck g.header.ack).onContent g rest)
  | deliver (e : Engine) (payload : Bytes) (rest : Signals) :
      Intake (e.goto (.deliver payload rest)) [.write payload (.ok ())]
        { e with ctx := e.ctx.recordDelivered payload.length, point := .ackData rest }
  | refuse (e : Engine) (payload : Bytes) (rest : Signals) (cause : IoError) :
      Intake (e.goto (.deliver payload rest)) [.write payload (.error cause)] (e.fail (.io cause))

lemma arrived_of_failure {c : Event} (h : c.isFailure = true) :
    Trace.arrived [c] = [] ∧ Trace.written [c] = [] ∧ Trace.answers [c] = [] := by
  cases c with
  | receive capacity outcome =>
    cases outcome with
    | error cause => exact ⟨rfl, rfl, rfl⟩
    | ok d =>
      cases d with
      | nil =>
        refine ⟨?_, rfl, rfl⟩
        simp only [Trace.arrived, List.filterMap_cons, Event.arrived?, Segment.ofBuffer]
        split_ifs <;> rfl
      | cons x d => cases h
  | write data outcome => cases h
  | _ => exact ⟨rfl, rfl, rfl⟩

lemma Apart.fail {p : Point} {c : Event} (cause : ConnectionError) (may : p.mayFail = true)
    (failure : c.isFailure = true) : (e.goto p).Apart [c] (e.fail cause) := by
  obtain ⟨ha, hw, hs⟩ := arrived_of_failure failure
  refine ⟨ha, hw, hs, rfl, rfl, ?_, trivial, fun hf => ?_, fun _ => .inr rfl⟩
  · cases p <;> first | exact trivial | cases may
  · simp only [heardFin, Bool.or_eq_false_iff] at hf
    exact (Bool.or_false _).trans hf.1

theorem LoopStep.intake (h : e.LoopStep events e') : e.Intake events e' := by
  have unheld {e : Engine} {p : Point} (hp : (e.goto p).heardFin = (e.ctx.peerFinSeen || false)) :
      e.ctx.peerFinSeen = (e.goto p).heardFin := by
    rw [hp, Bool.or_false]
  cases h with
  | hear e rest good => exact .hear e rest good
  | noteAck e g rest => exact .noteAck e g rest
  | deliver e payload rest => exact .deliver e payload rest
  | refuse e payload rest cause => exact .refuse e payload rest cause
  | fail e cause may failure => exact .apart (.fail cause may failure)
  | wait | readNone | ackData => exact .apart (.react rfl rfl rfl rfl rfl trivial (unheld rfl))
  | sendData e payload rest =>
    exact .apart (.react rfl rfl rfl rfl rfl trivial
      (unheld (e := e) (p := .sendData payload rest) rfl))
  | drop e rest some bad =>
    exact .apart (.react (Trace.arrived_of_bad bad) rfl rfl rfl rfl trivial (unheld rfl))
  | tellPeerClosed e rest =>
    obtain ⟨hx, hr⟩ := closeIfTimeWait_keeps e
    exact .apart (.react rfl rfl rfl hx hr trivial ((closeIfTimeWait_seen e).trans (unheld rfl)))
  | readSome | sendFin => exact .apart (.of_heardFin rfl rfl rfl rfl rfl trivial trivial rfl)
  | ackFin e rest =>
    obtain ⟨hf, -, hx, hr⟩ := onFinAnswered_keeps e rest
    refine .apart (.of_heardFin rfl rfl rfl hx hr trivial (idle_onFinAnswered e rest) ?_)
    rw [hf, heardFin]
    exact (Bool.or_true _).symm
  | collectDue | resend => exact .apart (.resending rfl rfl rfl rfl rfl trivial (unheld rfl))

end Engine

end DatagramStream
