import DatagramStream.Proofs.Renumbering.Engine
import DatagramStream.Proofs.Session.Intake
import DatagramStream.Proofs.Session.Opening

/-! Two runs that differ only in where the numbers of both sides start. -/

namespace DatagramStream

def Event.shift (own peer now : SeqNum) : Event → Event
  | send header payload outcome => send (Bytes.shift own now header) payload outcome
  | receive capacity outcome => receive capacity (outcome.map (Bytes.shift peer own))
  | onSend g => onSend (g.shift own now)
  | onAck ack => onAck (ack + own)
  | c => c

def Script.shift (own peer : SeqNum) (s : Script) : Script :=
  { s with net := s.net.map (Except.map (Bytes.shift peer own)) }

def Segment.greets (acks : AckCheck) (isn : SeqNum) (role : Role) (g : Segment) : Bool :=
  g.header.flags.syn &&
    match role with
    | .active => g.header.flags.ack && acks.accepts g.header.ack (isn + 1)
    | .passive => true

namespace Trace

variable {greets : Segment → Bool} {own peer : SeqNum} {t u : Trace}

def greeted (greets : Segment → Bool) (t : Trace) : Bool :=
  t.arrived.head?.any greets

/-- By how much the peer's numbers are moved, as far as the connection can tell. -/
def known (greets : Segment → Bool) (peer : SeqNum) (t : Trace) : SeqNum :=
  if t.greeted greets then peer else 0

def shift (greets : Segment → Bool) (own peer : SeqNum) (past : Trace) : Trace → Trace
  | [] => []
  | c :: t => c.shift own peer (known greets peer past) :: shift greets own peer (past ++ [c]) t

lemma greeted_append (h : t.greeted greets = true) (u : Trace) :
    greeted greets (t ++ u) = true := by
  rw [greeted] at h ⊢
  rw [arrived_append]
  cases ha : t.arrived with
  | nil =>
    rw [ha] at h
    cases h
  | cons g more =>
    rw [ha] at h
    exact h

lemma greeted_silent (h : u.arrived = []) : greeted greets (t ++ u) = t.greeted greets := by
  rw [greeted, greeted, arrived_append, h, List.append_nil]

lemma greeted_first {g : Segment} (h : t.arrived = []) (hu : u.arrived = [g]) :
    greeted greets (t ++ u) = greets g := by
  rw [greeted, arrived_append, h, hu]
  rfl

lemma known_of_greeted (h : t.greeted greets = true) : t.known greets peer = peer :=
  if_pos h

lemma known_silent (h : u.arrived = []) : known greets peer (t ++ u) = t.known greets peer := by
  rw [known, known, greeted_silent h]

lemma shift_append (past t u : Trace) : shift greets own peer past (t ++ u) =
    shift greets own peer past t ++ shift greets own peer (past ++ t) u := by
  induction t generalizing past with
  | nil => rw [List.append_nil]; rfl
  | cons c t ih =>
    rw [List.cons_append, shift, shift, ih, List.append_assoc]
    rfl

end Trace

namespace Engine

variable {e e' : Engine} {own peer now : SeqNum} {past t : Trace} {events : List Event}
  {role : Role}

def greets (e : Engine) (role : Role) : Segment → Bool :=
  Segment.greets e.config.acks e.ctx.isn role

def Greeting (role : Role) (past : Trace) (e : Engine) : Prop :=
  match e.point with
  | .sendSyn | .awaitSynAck => role = .active ∧ past.arrived = []
  | .awaitSyn => role = .passive ∧ past.arrived = []
  | .unblock (.ok ()) => e.ctx.state = .established → past.greeted (e.greets role) = true
  | .unblock (.error _) | .ended _ => True
  | _ => past.greeted (e.greets role) = true

lemma greets_step (hs : e.Step events e') : e'.greets role = e.greets role := by
  have hf := fixed_step hs
  rw [greets, greets, config_eq hf, isn_eq hf]

lemma Greeting.of_greeted (hg : t.greeted (e.greets role) = true) (hp : e.stage ≠ .opening) :
    e.Greeting role t := by
  obtain ⟨config, ctx, thenLoop, point⟩ := e
  cases point with
  | sendSyn | awaitSynAck | ackSynAck | awaitSyn | sendSynAck | awaitFirstAck => exact absurd rfl hp
  | unblock outcome => exact absurd rfl hp
  | ended => exact trivial
  | _ => exact hg

lemma Greeting.greeted (h : e.Greeting role t) (hp : e.stage = .serving) :
    t.greeted (e.greets role) = true := by
  obtain ⟨config, ctx, thenLoop, point⟩ := e
  cases point with
  | sendSyn | awaitSynAck | ackSynAck | awaitSyn | sendSynAck | awaitFirstAck => cases hp
  | unblock outcome => cases hp
  | ended => cases hp
  | _ => exact h

lemma Greeting.of_turn (hg : t.greeted (e.greets role) = true) : e.turn.Greeting role t := by
  have hp : e.turn.stage ≠ .opening := by
    rw [stage_turn]
    split_ifs <;> simp
  exact .of_greeted hg hp

lemma Greeting.onReply {onSegment : Engine → Segment → Engine} {answer : Except IoError Bytes}
    (hs : e.unresolved.Greeting role (past ++ [.receive e.config.receiveCapacity answer]))
    (hn : ∀ g, Trace.arrived [.receive e.config.receiveCapacity answer] = [g] →
      (onSegment e g).Greeting role (past ++ [.receive e.config.receiveCapacity answer])) :
    (e.onReply onSegment answer).Greeting role
      (past ++ [.receive e.config.receiveCapacity answer]) := by
  rw [Engine.onReply]
  cases ha : e.arrival answer with
  | error cause => exact trivial
  | ok found =>
    have hf := arrived_of_arrival ha
    cases found with
    | none => exact hs
    | some g => exact hn g hf

lemma Greeting.step_opening (h : e.Greeting role past) (hc : e.Coherent) (hp : e.stage = .opening)
    (hs : e.Step events e') : e'.Greeting role (past ++ events) := by
  obtain ⟨config, ctx, thenLoop, point⟩ := e
  cases point with
  | sendSyn =>
    obtain ⟨-, -, ha, outcome, rfl⟩ := opening_transmit hs
    cases outcome with
    | error cause => exact trivial
    | ok u => exact ⟨h.1, by rw [Trace.arrived_append, h.2, ha, List.append_nil]⟩
  | awaitSynAck =>
    obtain ⟨outcome, rfl, rfl⟩ := hs
    obtain ⟨rfl, hnone⟩ := h
    change ctx = _ at hc
    have hst : ctx.state ≠ .established := by
      rw [hc]
      simp
    refine onReply (absurd · hst) fun g hg => ?_
    rw [onSynAck]
    split_ifs with hsyn
    · exact (Trace.greeted_first hnone hg).trans hsyn
    · exact (absurd · hst)
  | ackSynAck =>
    obtain ⟨-, -, -, outcome, rfl⟩ := opening_transmit hs
    cases outcome with
    | error cause => exact trivial
    | ok u => exact fun _ => Trace.greeted_append h events
  | awaitSyn =>
    obtain ⟨outcome, rfl, rfl⟩ := hs
    obtain ⟨rfl, hnone⟩ := h
    change ctx = _ at hc
    have hst : ctx.state ≠ .established := by
      rw [hc]
      simp
    refine onReply (absurd · hst) fun g hg => ?_
    rw [onSyn]
    split_ifs with hsyn
    · refine (Trace.greeted_first hnone hg).trans ?_
      simp [greets, Segment.greets, hsyn]
    · exact (absurd · hst)
  | sendSynAck =>
    obtain ⟨-, -, -, outcome, rfl⟩ := opening_transmit hs
    cases outcome with
    | error cause => exact trivial
    | ok u => exact Trace.greeted_append h events
  | awaitFirstAck =>
    obtain ⟨outcome, rfl, rfl⟩ := hs
    have hg := Trace.greeted_append h [.receive config.receiveCapacity outcome]
    refine onReply (fun _ => hg) fun g _ => ?_
    rw [onFirstAck]
    split_ifs <;> exact fun _ => hg
  | unblock outcome =>
    obtain ⟨rfl, rfl⟩ := hs
    cases outcome with
    | error cause => exact trivial
    | ok u =>
      rw [opened]
      split_ifs with hst
      · exact of_turn (Trace.greeted_append (h hst) [.unblock])
      · exact trivial
      · exact trivial
  | _ => cases hp

lemma Greeting.step (h : e.Greeting role past) (hc : e.Coherent) (hs : e.Step events e') :
    e'.Greeting role (past ++ events) := by
  cases hp : e.stage with
  | opening => exact h.step_opening hc hp hs
  | finished => exact absurd hp (stage_ne_finished hs)
  | serving =>
    apply of_greeted
    · rw [greets_step hs]
      exact Trace.greeted_append (h.greeted hp) events
    · rcases (loopStep_of_step hp hs).stage_cases with hnext | ⟨hnext, -⟩ <;> simp [hnext]

lemma arrived_of_closed {answer : Except IoError Bytes} {cause : ConnectionError}
    (h : e.arrival answer = .error cause) :
    Trace.arrived [.receive e.config.receiveCapacity answer] = [] := by
  cases answer with
  | error cause => rfl
  | ok d =>
    obtain ⟨rfl, -⟩ | ⟨bad, -, -, ha⟩ | ⟨g, -, ha⟩ := arrival_cases e d
    · exact (arrived_of_failure rfl).1
    · rw [ha] at h
      cases h
    · rw [ha] at h
      cases h

lemma known_of_await {answer : Except IoError Bytes} (hnone : past.arrived = [])
    (htakes : ∀ g, e.takesSyn g = e.greets role g) :
    Trace.known (e.greets role) peer (past ++ [.receive e.config.receiveCapacity answer]) =
      e.later peer (past.known (e.greets role) peer) answer := by
  rw [later]
  cases ha : e.arrival answer with
  | error cause => exact Trace.known_silent (arrived_of_closed ha)
  | ok found =>
    have hf := arrived_of_arrival ha
    cases found with
    | none => exact Trace.known_silent hf
    | some g =>
      have hzero : past.known (e.greets role) peer = 0 := by
        rw [Trace.known, Trace.greeted, hnone]
        rfl
      rw [Trace.known, Trace.greeted_first hnone hf, hzero, ← htakes]

lemma known_of_greeted {answer : Except IoError Bytes} (hg : past.greeted (e.greets role) = true) :
    Trace.known (e.greets role) peer (past ++ [.receive e.config.receiveCapacity answer]) =
      e.later peer (past.known (e.greets role) peer) answer := by
  rw [Trace.known_of_greeted (Trace.greeted_append hg _), Trace.known_of_greeted hg, later]
  split
  · rw [ite_self]
  · rfl

lemma Greeting.known_step (h : e.Greeting role past) (hs : e.Step events e') (peer : SeqNum) :
    (∃ answer, events = [.receive e.config.receiveCapacity answer] ∧
      Trace.known (e.greets role) peer (past ++ events) =
        e.later peer (past.known (e.greets role) peer) answer) ∨
    (Trace.arrived events = [] ∧ ∀ capacity answer, events ≠ [.receive capacity answer]) := by
  obtain ⟨config, ctx, thenLoop, point⟩ := e
  cases point with
  | awaitSynAck =>
    obtain ⟨outcome, rfl, rfl⟩ := hs
    obtain ⟨rfl, hnone⟩ := h
    exact .inl ⟨outcome, rfl, known_of_await hnone fun g => rfl⟩
  | awaitSyn =>
    obtain ⟨outcome, rfl, rfl⟩ := hs
    obtain ⟨rfl, hnone⟩ := h
    exact .inl ⟨outcome, rfl, known_of_await hnone fun g => (Bool.and_true _).symm⟩
  | awaitFirstAck | receive =>
    obtain ⟨outcome, rfl, rfl⟩ := hs
    exact .inl ⟨outcome, rfl, known_of_greeted h⟩
  | sendSyn | ackSynAck | sendSynAck | sendData | ackFin | ackData | sendFin =>
    obtain ⟨rfl, -⟩ | ⟨cause, rfl, -⟩ := hs <;> exact .inr ⟨rfl, by simp⟩
  | unblock | noteAck | tellPeerClosed =>
    obtain ⟨rfl, -⟩ := hs
    exact .inr ⟨rfl, by simp⟩
  | read | deliver | collectDue | resend =>
    obtain ⟨outcome, rfl, -⟩ := hs
    exact .inr ⟨rfl, by simp⟩
  | wait =>
    obtain ⟨deadline, outcome, rfl, -⟩ := hs
    exact .inr ⟨rfl, by simp⟩
  | ended => exact hs.elim

end Engine

lemma Engine.events_of_step {e e' : Engine} {events : List Event} (hs : e.Step events e') :
    (∃ c, events = [c]) ∨ ∃ g : Segment, events = g.transmitted := by
  rw [Step] at hs
  cases hr : e.request with
  | transmit g next =>
    rw [hr] at hs
    obtain ⟨rfl, -⟩ | ⟨cause, rfl, -⟩ := hs
    · exact .inr ⟨g, rfl⟩
    · exact .inl ⟨_, rfl⟩
  | resend | receive | read | write | collectDue =>
    rw [hr] at hs
    obtain ⟨outcome, rfl, -⟩ := hs
    exact .inl ⟨_, rfl⟩
  | unblock | peerClosed | noteAck =>
    rw [hr] at hs
    obtain ⟨rfl, -⟩ := hs
    exact .inl ⟨_, rfl⟩
  | wait =>
    rw [hr] at hs
    obtain ⟨deadline, outcome, rfl, -⟩ := hs
    exact .inl ⟨_, rfl⟩
  | finished =>
    rw [hr] at hs
    exact hs.elim

lemma Trace.shift_step {greets : Segment → Bool} {own peer : SeqNum} {t : Trace} {e e' : Engine}
    {events : List Event} (hs : e.Step events e') :
    shift greets own peer t events = events.map (Event.shift own peer (t.known greets peer)) := by
  obtain ⟨c, rfl⟩ | ⟨g, rfl⟩ := Engine.events_of_step hs
  · rfl
  · rw [Segment.transmitted, shift, shift, known_silent rfl]
    rfl

namespace Script

variable {own peer : SeqNum}

lemma shift_receive {capacity : Nat} (h : headerLength ≤ capacity) (s : Script) :
    (s.shift own peer).receive capacity =
      ((s.receive capacity).1.map (Bytes.shift peer own),
        (s.receive capacity).2.shift own peer) := by
  obtain ⟨net, app, events, sendFaults, writeFaults⟩ := s
  rcases net with _ | ⟨cause | datagram, net⟩
  · rfl
  · rfl
  · simp only [receive, shift, List.map_cons, Except.map, Bytes.take_shift h]

lemma shift_read (limit : Nat) (s : Script) : (s.shift own peer).read limit =
    ((s.read limit).1, (s.read limit).2.shift own peer) := by
  obtain ⟨net, app, events, sendFaults, writeFaults⟩ := s
  rcases app with _ | ⟨cause | data, app⟩ <;> rfl

lemma shift_wait (s : Script) : (s.shift own peer).wait = (s.wait.1, s.wait.2.shift own peer) := by
  obtain ⟨net, app, events, sendFaults, writeFaults⟩ := s
  rcases events with _ | ⟨outcome, events⟩ <;> rfl

end Script

namespace Machine

variable {m : Machine Unit Script} {own peer now : SeqNum} {later : Except IoError Bytes → SeqNum}

def shift (own peer now : SeqNum) (m : Machine Unit Script) : Machine Unit Script :=
  ⟨m.engine.shift own now, m.policy, m.host.shift own peer⟩

def afterwards (now : SeqNum) (later : Except IoError Bytes → SeqNum) : List Event → SeqNum
  | [.receive _ answer] => later answer
  | _ => now

lemma step_shift
    (h : Request.Shifted own peer now later m.engine.request (m.engine.shift own now).request) :
    (m.shift own peer now).step .inert Script.host =
      (m.step .inert Script.host).map fun (m', events) =>
        (m'.shift own peer (afterwards now later events),
          events.map (Event.shift own peer now)) := by
  obtain ⟨engine, policy, host⟩ := m
  rw [step, step]
  simp only [shift] at h ⊢
  generalize engine.request = r at *
  generalize (engine.shift own now).request = r' at *
  cases h with
  | @transmit g next next' h =>
    have hheader : (g.shift own now).header.encode = Bytes.shift own now g.header.encode :=
      g.header.encode_shift own now
    obtain ⟨net, app, events, sendFaults, writeFaults⟩ := host
    rcases sendFaults with _ | ⟨_ | cause, faults⟩ <;> simp only [hheader, h] <;> rfl
  | resend h =>
    simp only [h]
    rfl
  | @receive capacity next next' large h =>
    have hreceive : Script.host.receive capacity (host.shift own peer) =
        some ((host.receive capacity).1.map (Bytes.shift peer own),
          (host.receive capacity).2.shift own peer) :=
      congrArg some (host.shift_receive large)
    simp only [hreceive, Option.map_some, h]
    rfl
  | @read limit next next' h =>
    have hread : Script.host.read limit (host.shift own peer) =
        ((host.read limit).1, (host.read limit).2.shift own peer) := host.shift_read limit
    simp only [hread, h]
    rfl
  | write h =>
    simp only [h]
    rfl
  | unblock h =>
    rw [h]
    rfl
  | peerClosed h =>
    rw [h]
    rfl
  | @wait interest next next' h =>
    have hwait : Script.host.wait interest (Policy.inert.deadline policy) (host.shift own peer) =
        some (host.wait.1, host.wait.2.shift own peer) := congrArg some host.shift_wait
    simp only [hwait, Option.map_some, h]
    rfl
  | noteAck h =>
    rw [h]
    rfl
  | collectDue h =>
    simp only [h]
    rfl
  | finished result => rfl

variable {t : Trace} {role : Role} {events : List Event} {m' : Machine Unit Script}

lemma afterwards_of_other (h : ∀ capacity answer, events ≠ [.receive capacity answer]) :
    afterwards now later events = now := by
  unfold afterwards
  split
  · exact absurd rfl (h _ _)
  · rfl

lemma step_renumbered (own peer : SeqNum) (hg : m.engine.Greeting role t) :
    (m.shift own peer (t.known (m.engine.greets role) peer)).step .inert Script.host =
      (m.step .inert Script.host).map fun (m', events) =>
        (m'.shift own peer (Trace.known (m.engine.greets role) peer (t ++ events)),
          Trace.shift (m.engine.greets role) own peer t events) := by
  have hnow : m.engine.stage = .serving → t.known (m.engine.greets role) peer = peer := by
    intro hp
    exact Trace.known_of_greeted (hg.greeted hp)
  rw [step_shift (Engine.request_shift hnow)]
  cases hs : m.step .inert Script.host with
  | none => rfl
  | some next =>
    obtain ⟨m', events⟩ := next
    have he := step_engine hs
    have hknown : Trace.known (m.engine.greets role) peer (t ++ events) =
        afterwards (t.known (m.engine.greets role) peer)
          (m.engine.later peer (t.known (m.engine.greets role) peer)) events := by
      obtain ⟨answer, rfl, hknown⟩ | ⟨harrived, hother⟩ := hg.known_step he peer
      · exact hknown
      · rw [Trace.known_silent harrived, afterwards_of_other hother]
    simp only [Option.map_some, hknown, Trace.shift_step he]

lemma iterate_renumbered {greets : Segment → Bool} (own peer : SeqNum)
    (hgreets : m.engine.greets role = greets) (hg : m.engine.Greeting role t)
    (hc : m.engine.Coherent) {past : List Event} (hp : past.reverse = t) (fuel : Nat) :
    (m.shift own peer (t.known greets peer)).iterate .inert Script.host fuel
        (Trace.shift greets own peer [] t).reverse =
      ((m.iterate .inert Script.host fuel past).1.shift own peer
          (Trace.known greets peer (m.iterate .inert Script.host fuel past).2.reverse),
        (Trace.shift greets own peer []
          (m.iterate .inert Script.host fuel past).2.reverse).reverse) := by
  -- The peer's numbers move in the middle of a run, so the trace up to here is carried along.
  induction fuel generalizing m t past with
  | zero => rw [iterate, iterate, hp]
  | succ fuel ih =>
    have hstep := step_renumbered own peer hg
    rw [hgreets] at hstep
    rw [iterate, iterate, hstep]
    cases hs : m.step .inert Script.host with
    | none =>
      simp only [Option.map_none]
      rw [hp]
    | some next =>
      obtain ⟨m', events⟩ := next
      have he := step_engine hs
      have hnext : (events.reverse ++ past).reverse = t ++ events := by
        rw [List.reverse_append, hp, List.reverse_reverse]
      simp only [Option.map_some]
      rw [← ih ((Engine.greets_step he).trans hgreets) (hg.step hc he)
          (Engine.coherent_step hc he) hnext,
        Trace.shift_append, List.reverse_append, List.nil_append]

def start (config : Config) (n : SeqNum) (role : Role) (s : Script) : Machine Unit Script :=
  ⟨.run { config with isn := .fixed n } (.new n) role, (), s⟩

lemma start_shift (config : Config) (n own peer : SeqNum) (role : Role) (s : Script) :
    start config (n + own) role (s.shift own peer) = (start config n role s).shift own peer 0 := by
  have hvalid (isn : InitialSeq) : Config.validate { config with isn := isn } = config.validate :=
    rfl
  unfold start Engine.run Engine.handshake
  simp only [hvalid]
  cases config.validate with
  | error cause => rfl
  | ok u => cases role <;> rfl

lemma greeting_start (config : Config) (n : SeqNum) (role : Role) (s : Script) :
    (start config n role s).engine.Greeting role [] ∧
      (start config n role s).engine.greets role = Segment.greets config.acks n role := by
  unfold start Engine.run Engine.handshake
  cases Config.validate { config with isn := .fixed n } with
  | error cause => exact ⟨trivial, rfl⟩
  | ok u => cases role <;> exact ⟨⟨rfl, rfl⟩, rfl⟩

/-- With the numbers of both sides moved, a run asks for the same calls, and only the numbers in
them and in the context are moved. -/
theorem run_renumbered (config : Config) (n own peer : SeqNum) (role : Role) (s : Script)
    (fuel : Nat) :
    let greets := Segment.greets config.acks n role
    let r := (start config n role s).run .inert Script.host fuel
    let r' := (start config (n + own) role (s.shift own peer)).run .inert Script.host fuel
    r'.2 = Trace.shift greets own peer [] r.2 ∧ r'.1.engine.result? = r.1.engine.result? ∧
      r'.1.engine.ctx = r.1.engine.ctx.shift own (Trace.known greets peer r.2) ∧
      r'.1.host = r.1.host.shift own peer := by
  intro greets r r'
  obtain ⟨hgreeting, hgreets⟩ := greeting_start config n role s
  have hrun := iterate_renumbered own peer hgreets hgreeting (Engine.coherent_run _ n role)
    List.reverse_nil fuel
  rw [show Trace.known greets peer [] = 0 from rfl, ← start_shift] at hrun
  change
    iterate .inert Script.host fuel (start config (n + own) role (s.shift own peer)) [] = _ at hrun
  have hr' : r' =
      (r.1.shift own peer (Trace.known greets peer r.2), Trace.shift greets own peer [] r.2) := by
    simp only [r', r, run, hrun, List.reverse_reverse]
    rfl
  rw [hr']
  exact ⟨rfl, Engine.result?_shift, rfl, rfl⟩

end Machine

end DatagramStream
