import DatagramStream.Proofs.Calls.Outcome
import DatagramStream.Proofs.Memory.Ending
import DatagramStream.Proofs.Pair.Cost
import DatagramStream.Proofs.Resending.Turns
import DatagramStream.Proofs.Session.Teardown

/-! A call on a host in memory returns, whatever the peer sends before it shuts its end of the link
down or drops it: each step uses up a staged byte, a datagram, the close, or part of a turn. -/

namespace DatagramStream

def ConnectionError.Expected (gone : Bool) : ConnectionError → Prop
  | io cause => cause.kind = .brokenPipe ∧ gone = true
  | channelClosed | handshakeIncomplete _ | invalidConfig _ => True
  | segment _ | invalidState _ => False

namespace Event

def Granted (h : MemoryHost) : Event → Prop
  | send _ _ (.error io) | resend _ _ (.error io) => io.kind = .brokenPipe ∧ h.peerGone = true
  | receive _ (.error _) | read _ (.error _) | write _ (.error _) | wait _ _ (.error _) => False
  | read _ (.ok data) => data ≠ []
  | wait interest _ (.ok ready) =>
    (ready.inter interest).isEmpty = false ∧ (ready.appData = true → h.app.outbound ≠ [])
  | due datagrams => datagrams = []
  | _ => True

def taken : Event → Nat
  | receive _ (.ok d) | read _ (.ok d) => min d.length 1
  | _ => 0

lemma Granted.fault {h : MemoryHost} {c : Event} {io : IoError} (hc : c.Granted h)
    (hio : c.fault? = some io) :
    (ConnectionError.io io).Expected h.peerGone := by
  unfold fault? at hio
  split at hio <;> cases hio <;> first | exact hc | exact hc.elim

end Event

lemma ConnectionError.Expected.mono {gone gone' : Bool} {cause : ConnectionError}
    (h : cause.Expected gone) (hgone : gone = true → gone' = true) : cause.Expected gone' := by
  cases cause with
  | io io => exact ⟨h.1, hgone h.2⟩
  | _ => exact h

def Trace.hostCalls (t : Trace) : Nat :=
  t.countP fun c => !c.isPolicy

@[simp] lemma Trace.hostCalls_append (t u : Trace) :
    hostCalls (t ++ u) = hostCalls t + hostCalls u :=
  List.countP_append

def Trace.taken (t : Trace) : Nat :=
  (t.map Event.taken).sum

lemma Trace.taken_of_ne_nil {n : Nat} {d : Bytes} (hd : d ≠ []) :
    taken [.read n (.ok d)] = 1 ∧ taken [.receive n (.ok d)] = 1 := by
  cases d with
  | nil => exact absurd rfl hd
  | cons x d => simp [taken, Event.taken]

def Point.left : Point → Nat
  | .sendSyn | .awaitSyn => 9
  | .awaitSynAck | .sendSynAck => 8
  | .ackSynAck | .awaitFirstAck => 7
  | p => p.cost

lemma Point.left_le (p : Point) : p.left ≤ 18 := by
  cases p with
  | noteAck g rest => exact Nat.succ_le_succ (Nat.le_trans g.cost_le (by decide))
  | _ => simp [left, cost]

lemma Point.left_of_isReaction {p : Point} (h : p.isReaction = true) : p.left = p.cost := by
  cases p <;> first | rfl | cases h

namespace Engine

variable {e e' : Engine} {h h' : MemoryHost} {rest : Signals} {events : List Event}

def left (e : Engine) : Nat :=
  e.point.left + e.ctx.state.finCost

def Proper (h : MemoryHost) (e : Engine) : Prop :=
  match e.point with
  | .unblock (.error cause) | .ended (.error cause) => cause.Expected h.peerGone
  | .ended (.ok ()) => True
  | .resend _ _ => False
  | .read _ => e.config.validate = .ok () ∧ h.app.outbound ≠ []
  | _ => e.config.validate = .ok ()

lemma left_lt {k : Nat} (n : Nat) (hn : e.point.left = n)
    (hf : e'.ctx.state.finCost ≤ e.ctx.state.finCost) (hp : e'.point.left < n + k) :
    e'.left < e.left + k := by
  rw [left, left, hn]
  omega

lemma finCost_step (hc : e.Coherent) (he : e.Step events e') :
    e'.ctx.state.finCost ≤ e.ctx.state.finCost := by
  have hfins := finsSent_step hc he
  rw [State.finCost, State.finCost]
  cases hs : e.ctx.state.finSent with
  | false =>
    rw [if_neg Bool.false_ne_true]
    split_ifs
    · exact Nat.zero_le _
    · exact Nat.le_refl _
  | true =>
    cases hs' : e'.ctx.state.finSent with
    | true => exact Nat.le_refl _
    | false => simp [hs, hs'] at hfins

lemma Step.hostCalls_le (he : e.Step events e') : Trace.hostCalls events ≤ 1 := by
  rw [Step] at he
  cases hr : e.request with
  | transmit g next =>
    rw [hr] at he
    obtain ⟨rfl, -⟩ | ⟨cause, rfl, -⟩ := he <;> simp [Trace.hostCalls, Event.isPolicy]
  | resend | receive | read | write | collectDue =>
    rw [hr] at he
    obtain ⟨-, rfl, -⟩ := he
    simp [Trace.hostCalls, Event.isPolicy]
  | wait =>
    rw [hr] at he
    obtain ⟨-, -, rfl, -⟩ := he
    simp [Trace.hostCalls, Event.isPolicy]
  | unblock | peerClosed | noteAck =>
    rw [hr] at he
    obtain ⟨rfl, -⟩ := he
    simp [Trace.hostCalls, Event.isPolicy]
  | finished result =>
    rw [hr] at he
    exact he.elim

lemma left_react (e : Engine) (rest : Signals) :
    (e.react rest).point.left = (e.react rest).point.cost :=
  Point.left_of_isReaction (isReaction_react e rest)

lemma Proper.keep (hp : e.Proper h) (hgone : h.peerGone = true → h'.peerGone = true)
    (ha : h'.app = h.app) :
    e.Proper h' := by
  obtain ⟨config, ctx, thenLoop, point⟩ := e
  cases point with
  | unblock result | ended result =>
    cases result with
    | error cause => exact ConnectionError.Expected.mono hp hgone
    | ok u => exact hp
  | read rest => exact ⟨hp.1, by rw [ha]; exact hp.2⟩
  | _ => exact hp

lemma Proper.left_pos {p : Point} (hp : (e.goto p).Proper h) (may : p.mayFail = true) :
    0 < p.left := by
  cases p with
  | resend => exact hp.elim
  | wait | read | sendData | receive | ackFin | ackData | sendFin => simp [Point.left, Point.cost]
  | _ => cases may

lemma proper_react (hv : e.config.validate = .ok ())
    (ha : rest.appData = true → h.app.outbound ≠ []) :
    (e.react rest).Proper h := by
  rw [react]
  split_ifs with happ
  · exact ⟨hv, ha happ⟩
  · exact hv
  · exact hv
  · exact hv

lemma proper_onContent (hv : e.config.validate = .ok ()) (hr : rest.OnlyClose) (g : Segment) :
    (e.onContent g rest).Proper h := by
  rw [onContent]
  split_ifs
  · exact hv
  · exact hv
  · exact proper_react hv fun ha => absurd ha (by simp [hr.1])

lemma proper_onSegment (hv : e.config.validate = .ok ()) (hr : rest.OnlyClose) (g : Segment) :
    (e.onSegment g rest).Proper h := by
  rw [onSegment]
  split_ifs
  · exact hv
  · exact proper_onContent hv hr g

lemma proper_onFinAnswered (hv : e.config.validate = .ok ()) (hr : rest.OnlyClose) :
    (e.onFinAnswered rest).Proper h := by
  rw [onFinAnswered]
  split_ifs
  · exact proper_react (by rwa [closeIfTimeWait_config]) fun ha => absurd ha (by simp [hr.1])
  · exact hv

lemma proper_turn (hv : e.config.validate = .ok ()) : e.turn.Proper h := by
  rw [turn]
  split_ifs
  · exact trivial
  · exact hv

lemma left_turn_le (e : Engine) : e.turn.point.left ≤ 4 := by
  rw [turn]
  split_ifs <;> simp [goto, Point.left, Point.cost]

lemma proper_onOpening {next : Engine} {outcome : Except IoError Unit} {header payload : Bytes}
    {n : Nat} (hg : (Event.send header payload outcome).Granted h) (hsix : 6 < n)
    (hn : next.Proper h ∧ next.point.left < n) :
    (e.onOpening next outcome).Proper h ∧ (e.onOpening next outcome).point.left < n := by
  cases outcome with
  | error io => exact ⟨hg, hsix⟩
  | ok u => exact hn

lemma proper_onReply {onSegment : Engine → Segment → Engine} {answer : Except IoError Bytes}
    {capacity n : Nat} (hg : (Event.receive capacity answer).Granted h) (hsix : 6 < n)
    (hv : e.config.validate = .ok ())
    (hn : ∀ g, (onSegment e g).Proper h ∧ (onSegment e g).point.left < n) :
    (e.onReply onSegment answer).Proper h ∧ (e.onReply onSegment answer).point.left < n := by
  rw [onReply]
  cases answer with
  | error io => exact hg.elim
  | ok d =>
    obtain ⟨-, ha⟩ | ⟨cause, -, -, ha⟩ | ⟨g, -, ha⟩ := arrival_cases e d
    · rw [ha]
      exact ⟨trivial, hsix⟩
    · rw [ha]
      exact ⟨hv, hsix⟩
    · rw [ha]
      exact hn g

lemma opening_sent {g : Segment} {next : Except IoError Unit → Engine}
    (he : (Request.transmit g next).Answered events e') :
    ∃ outcome, Event.send g.header.encode g.payload outcome ∈ events ∧ e' = next outcome := by
  obtain ⟨rfl, rfl⟩ | ⟨cause, rfl, rfl⟩ := he
  · exact ⟨.ok (), List.mem_cons_self, rfl⟩
  · exact ⟨.error cause, List.mem_cons_self, rfl⟩

lemma opening_step (hp : e.Proper h) (ho : e.stage = .opening) (he : e.Step events e')
    (hgone : h.peerGone = true → h'.peerGone = true) (hg : ∀ c ∈ events, c.Granted h') :
    e'.Proper h' ∧ e'.point.left < e.point.left := by
  obtain ⟨config, ctx, thenLoop, point⟩ := e
  cases point with
  | sendSyn | ackSynAck | sendSynAck =>
    obtain ⟨outcome, hc, rfl⟩ := opening_sent he
    exact proper_onOpening (hg _ hc) (by simp [Point.left])
      ⟨hp, by simp [goto, Point.left, Point.cost]⟩
  | awaitSynAck =>
    obtain ⟨outcome, rfl, rfl⟩ := he
    refine proper_onReply (hg _ List.mem_cons_self) (by simp [Point.left]) hp fun g => ?_
    rw [onSynAck]
    split_ifs <;> exact ⟨hp, by simp [unresolved, goto, Point.left, Point.cost]⟩
  | awaitSyn =>
    obtain ⟨outcome, rfl, rfl⟩ := he
    refine proper_onReply (hg _ List.mem_cons_self) (by simp [Point.left]) hp fun g => ?_
    rw [onSyn]
    split_ifs <;> exact ⟨hp, by simp [unresolved, goto, Point.left, Point.cost]⟩
  | awaitFirstAck =>
    obtain ⟨outcome, rfl, rfl⟩ := he
    refine proper_onReply (hg _ List.mem_cons_self) (by simp [Point.left]) hp fun g => ?_
    rw [onFirstAck]
    split_ifs <;> exact ⟨hp, by simp [unresolved, goto, Point.left, Point.cost]⟩
  | unblock outcome =>
    obtain ⟨-, rfl⟩ := he
    cases outcome with
    | error cause => exact ⟨hp.mono hgone, by simp [opened, fail, goto, Point.left, Point.cost]⟩
    | ok u =>
      rw [opened]
      split_ifs
      · exact ⟨proper_turn hp,
          Nat.lt_of_le_of_lt (left_turn_le _) (by simp [Point.left, Point.cost])⟩
      · exact ⟨trivial, by simp [goto, Point.left, Point.cost]⟩
      · exact ⟨trivial, by simp [fail, goto, Point.left, Point.cost]⟩
  | _ => cases ho

lemma serving_step (hc : e.Coherent) (hp : e.Proper h) (he : e.Step events e')
    (hl : e.LoopStep events e') (hg : ∀ c ∈ events, c.Granted h') :
    e'.Proper h' ∧ e'.left < e.left + 16 * Trace.taken events := by
  have hfin := finCost_step hc he
  have nothing {rest : Signals} (hr : rest.appData = false) (ha : rest.appData = true) :
      h'.app.outbound ≠ [] := by
    rw [hr] at ha
    cases ha
  cases hl with
  | wait e deadline ready =>
    -- A wait that takes nothing would not lead on if there were no event to react to.
    obtain ⟨hsome, hstaged⟩ := hg _ List.mem_cons_self
    have hcost := cost_react_some (e := e) hsome fun hclose => by
      rw [interest] at hclose
      split_ifs at hclose with hs
      · exact hs
      · simp [Signals.inter, Signals.network] at hclose
    refine ⟨proper_react hp fun ha => hstaged (Bool.and_eq_true_iff.mp ha).1, left_lt 4 rfl hfin ?_⟩
    rw [left_react]
    omega
  | readNone e rest => exact absurd rfl (hg _ List.mem_cons_self)
  | @readSome e rest payload some =>
    refine ⟨hp.1, left_lt 3 rfl hfin ?_⟩
    simp [goto, Point.left, Point.cost, (Trace.taken_of_ne_nil some).1]
  | sendData e payload rest =>
    have hcost := cost_react { e with ctx := e.ctx.recordSent .ackOnly payload.length } rest
    refine ⟨proper_react hp (nothing hc.2.2), left_lt 18 rfl hfin ?_⟩
    rw [left_react]
    omega
  | @drop e rest d cause some bad =>
    have hcost := cost_react e rest
    refine ⟨proper_react hp (nothing hc.2.1), left_lt 2 rfl hfin ?_⟩
    rw [left_react, (Trace.taken_of_ne_nil some).2]
    omega
  | @hear e rest d g good =>
    have some : d ≠ [] := by
      rintro rfl
      cases good
    have hcost := cost_onSegment e g rest
    have hg := g.cost_le
    refine ⟨proper_onSegment hp hc.2 g, left_lt 2 rfl hfin ?_⟩
    rw [Point.left_of_isReaction (isReaction_onSegment e g rest), (Trace.taken_of_ne_nil some).2]
    omega
  | noteAck e g rest =>
    have hcost := cost_onContent (e.onAck g.header.ack) g rest
    have hv : (e.onAck g.header.ack).config.validate = .ok () := by
      rw [config_eq (fixed_onAck e _)]
      exact hp
    refine ⟨proper_onContent hv hc.2 g, left_lt (g.cost + 1) rfl hfin ?_⟩
    rw [Point.left_of_isReaction (isReaction_onContent _ g rest)]
    omega
  | ackFin e rest =>
    have hcost := cost_onFinAnswered e rest
    refine ⟨proper_onFinAnswered hp hc.2, left_lt 12 rfl hfin ?_⟩
    rw [Point.left_of_isReaction (isReaction_onFinAnswered e rest)]
    omega
  | tellPeerClosed e rest =>
    have hcost := cost_react e.closeIfTimeWait rest
    refine ⟨proper_react (by rwa [closeIfTimeWait_config]) (nothing hc.2.2.1),
      left_lt 6 rfl hfin ?_⟩
    rw [left_react]
    omega
  | deliver e payload rest =>
    exact ⟨hp, left_lt 12 rfl hfin (Nat.lt_add_right _ (by simp [Point.left, Point.cost]))⟩
  | refuse e payload rest cause => exact (hg _ List.mem_cons_self).elim
  | ackData e rest =>
    have hcost := cost_react e rest
    refine ⟨proper_react hp (nothing hc.2.1), left_lt 11 rfl hfin ?_⟩
    rw [left_react]
    omega
  | sendFin e =>
    -- There is one FIN at most, and it has been paid for in advance.
    refine ⟨hp, ?_⟩
    have hs : e.ctx.state.canSend = true := hc.2
    have hbefore : e.ctx.state.finCost = 14 := by
      rw [State.finCost, State.finSent_of_canSend hs]
      rfl
    have hafter : ((e.ctx.recordSent .finOnly 0).transition .sendFin).state.finCost = 0 := by
      rw [State.finCost, Context.finSent_sendFin hs]
      rfl
    rw [left, left, hafter]
    change 2 + 0 < 1 + e.ctx.state.finCost + _
    omega
  | collectDue e datagrams =>
    have hle := left_turn_le e
    obtain rfl : datagrams = [] := hg _ List.mem_cons_self
    refine ⟨proper_turn hp, left_lt 5 rfl hfin ?_⟩
    rw [resending]
    omega
  | resend e datagram more => exact hp.elim
  | @fail e p c cause may failure =>
    refine ⟨?_, left_lt p.left rfl hfin (Nat.lt_add_right _ (hp.left_pos may))⟩
    obtain ⟨-, io, hio, rfl⟩ | ⟨rest, rfl, rfl⟩ := failure_cases may failure he
    · exact (hg c List.mem_cons_self).fault hio
    · obtain ⟨outcome, houtcome, hfail⟩ := he
      cases houtcome
      cases congrArg result? hfail
      exact trivial

theorem proper_step (hc : e.Coherent) (hp : e.Proper h) (he : e.Step events e')
    (hgone : h.peerGone = true → h'.peerGone = true) (hg : ∀ c ∈ events, c.Granted h') :
    e'.Proper h' ∧ e'.left < e.left + 16 * Trace.taken events := by
  cases hs : e.stage with
  | opening =>
    obtain ⟨hproper, hless⟩ := opening_step hp hs he hgone hg
    exact ⟨hproper, left_lt _ rfl (finCost_step hc he) (Nat.lt_add_right _ hless)⟩
  | serving => exact serving_step hc hp he (loopStep_of_step hs he) hg
  | finished => exact absurd hs (stage_ne_finished he)

lemma proper_run (config : Config) (isn : SeqNum) (role : Role) :
    (run config (.new isn) role).Proper h := by
  unfold run handshake
  cases hv : config.validate with
  | error cause =>
    obtain ⟨text, rfl⟩ := Config.invalidConfig_of_error hv
    exact trivial
  | ok u => cases role <;> exact hv

lemma left_run (config : Config) (isn : SeqNum) (role : Role) :
    (run config (.new isn) role).left ≤ 23 := by
  unfold run handshake
  cases config.validate with
  | error cause => simp [left, Point.left, Point.cost, State.finCost, State.finSent, Context.new]
  | ok u =>
    cases role <;>
      simp [left, Point.left, State.finCost, State.finSent, Context.transition, Context.new,
        State.next?]

end Engine

structure MemoryHost.Grants (drops : Bool) (h : MemoryHost) (events : List Event)
    (h' : MemoryHost) : Prop where
  spends : h.Spends drops (Trace.taken events) h'
  granted : ∀ c ∈ events, c.Granted h'

namespace Machine

variable {m m' : Machine Unit MemoryHost} {drops : Bool} {t : Trace}

lemma exists_granted (hE : m.host.Ends drops) (hp : m.engine.Proper m.host)
    (hr : m.engine.result? = none) :
    ∃ m' events, m.step .inert MemoryHost.host = some (m', events) ∧
      m.host.Grants drops events m'.host := by
  obtain ⟨⟨config, ctx, thenLoop, point⟩, policy, host⟩ := m
  rw [step]
  cases point with
  | sendSyn | ackSynAck | sendSynAck | sendData | ackFin | ackData | sendFin =>
    dsimp only [Engine.request, MemoryHost.host]
    obtain ⟨h', hsend, hs⟩ | ⟨hsend, hgone⟩ := hE.send_cases _ _
    · rw [hsend]
      exact ⟨_, _, rfl, hs, by simp [Event.Granted]⟩
    · rw [hsend]
      exact ⟨_, _, rfl, hE.spends, by simp [Event.Granted, IoError.peerDropped, hgone]⟩
  | awaitSynAck | awaitSyn | awaitFirstAck | receive =>
    obtain ⟨d, h', hreceive, hs⟩ := hE.exists_receive config.receiveCapacity
    dsimp only [Engine.request, MemoryHost.host]
    rw [hreceive]
    exact ⟨_, _, rfl, hs, by simp [Event.Granted]⟩
  | wait =>
    obtain ⟨ready, h', hwait, hs, hsome, hstaged⟩ :=
      hE.exists_wait (Engine.networkData_of_request_wait ⟨config, ctx, thenLoop, .wait⟩ rfl)
    dsimp only [Engine.request, MemoryHost.host, Policy.inert]
    rw [hwait]
    exact ⟨_, _, rfl, hs, by simpa [Event.Granted] using ⟨hsome, hstaged⟩⟩
  | read rest =>
    obtain ⟨hv, hstaged⟩ := hp
    have hlimit : 0 < config.payloadLimit := by
      obtain ⟨heq, hpos⟩ := Config.payloadLimit_of_valid hv
      rwa [heq]
    obtain ⟨data, h', hread, hsome, hs⟩ := hE.exists_read hlimit hstaged
    dsimp only [Engine.request, MemoryHost.host]
    rw [hread]
    refine ⟨_, _, rfl, ?_, by simpa [Event.Granted] using hsome⟩
    rwa [(Trace.taken_of_ne_nil hsome).1]
  | unblock | noteAck | tellPeerClosed | deliver | collectDue =>
    exact ⟨_, _, rfl, ⟨⟨hE.sending, hE.gone, hE.drops, hE.closes⟩, Nat.le_refl _, id⟩,
      by simp [Event.Granted, MemoryHost.host, MemoryHost.write, Policy.inert]⟩
  | resend datagram more => exact hp.elim
  | ended result => cases hr

structure Ending (drops : Bool) (m : Machine Unit MemoryHost) : Prop where
  host : m.host.Ends drops
  coherent : m.engine.Coherent
  proper : m.engine.Proper m.host

def left (m : Machine Unit MemoryHost) : Nat :=
  m.engine.left + 16 * m.host.supply

namespace Ending

lemma expected (h : m.Ending drops) {cause : ConnectionError}
    (hr : m.engine.result? = some (.error cause)) :
    cause.Expected m.host.peerGone := by
  have hproper := h.proper
  rwa [Engine.Proper, Engine.point_of_result hr] at hproper

lemma exists_step (h : m.Ending drops) (hr : m.engine.result? = none) :
    ∃ m' events, m.step .inert MemoryHost.host = some (m', events) := by
  obtain ⟨m', events, hstep, -⟩ := exists_granted h.host h.proper hr
  exact ⟨m', events, hstep⟩

lemma step (h : m.Ending drops) {events : List Event}
    (hs : m.step .inert MemoryHost.host = some (m', events)) :
    m'.Ending drops ∧ m'.left < m.left := by
  have he := step_engine hs
  obtain ⟨hhost, hcoherent, hproper⟩ := h
  have hr : m.engine.result? = none := by
    cases hr : m.engine.result? with
    | none => rfl
    | some result =>
      exact absurd (Engine.stage_of_result (by rw [hr]; rfl)) (Engine.stage_ne_finished he)
  obtain ⟨m₁, events₁, hs₁, ⟨hE, hsupply, hgone⟩, hgranted⟩ := exists_granted hhost hproper hr
  obtain ⟨rfl, rfl⟩ := Prod.mk.inj (Option.some.inj (hs.symm.trans hs₁))
  obtain ⟨hproper', hless⟩ := Engine.proper_step hcoherent hproper he hgone hgranted
  refine ⟨⟨hE, Engine.coherent_step hcoherent he, hproper'⟩, ?_⟩
  rw [left, left]
  omega

lemma run (h : m.Ending drops) {fuel : Nat} (hf : m.left ≤ fuel) :
    (m.run .inert MemoryHost.host fuel).1.engine.result?.isSome := by
  induction fuel generalizing m with
  | zero =>
    cases hr : m.engine.result? with
    | some result => exact Option.isSome_of_eq_some hr
    | none =>
      obtain ⟨m', events, hs⟩ := h.exists_step hr
      have hless := (h.step hs).2
      omega
  | succ fuel ih =>
    cases hr : m.engine.result? with
    | some result =>
      have hend : m.engine.result?.isSome := Option.isSome_of_eq_some hr
      rwa [run_of_stuck (step_ended hend)]
    | none =>
      obtain ⟨m', events, hs⟩ := h.exists_step hr
      obtain ⟨h', hless⟩ := h.step hs
      rw [run_succ hs]
      exact ih h' (by omega)

end Ending

lemma left_le_patience (m : Machine Unit MemoryHost) : m.left ≤ m.host.patience := by
  have hpoint := m.engine.point.left_le
  have hfin : m.engine.ctx.state.finCost ≤ 14 := by
    rw [State.finCost]
    split_ifs <;> decide
  have hpending : m.host.app.pending.toList.length ≤ 1 := by
    cases m.host.app.pending <;> simp
  rw [left, Engine.left, MemoryHost.supply, MemoryHost.patience]
  omega

/-- What a call on a host in memory has asked for up to some moment, while the peer does what it
means to do, at any time. -/
inductive Interleaved (m : Machine Unit MemoryHost) : Trace → Machine Unit MemoryHost → Prop
  | refl : Interleaved m [] m
  | step {t : Trace} {m' m'' : Machine Unit MemoryHost} {events : List Event} : Interleaved m t m' →
      m'.step .inert MemoryHost.host = some (m'', events) → Interleaved m (t ++ events) m''
  | peer {t : Trace} {m' : Machine Unit MemoryHost} {a : Millis × PeerAct}
      {more : List (Millis × PeerAct)} :
      Interleaved m t m' → m'.host.agenda = a :: more →
        Interleaved m t ⟨m'.engine, m'.policy, { m'.host.perform a.2 with agenda := more }⟩

lemma Interleaved.run (h : m.Interleaved t m') (fuel : Nat) :
    m.Interleaved (t ++ (m'.run .inert MemoryHost.host fuel).2)
      (m'.run .inert MemoryHost.host fuel).1 :=
  run_keeps .step h fuel

lemma Interleaved.ending (h : m.Interleaved t m') (hm : m.Ending drops) :
    m'.Ending drops ∧ t.hostCalls + m'.left ≤ m.left := by
  induction h with
  | refl => exact ⟨hm, Nat.le_of_eq (Nat.zero_add _)⟩
  | @step t m₁ m₂ events _ hs ih =>
    obtain ⟨hm₁, hle⟩ := ih
    obtain ⟨hm₂, hless⟩ := hm₁.step hs
    have hcalls := (step_engine hs).hostCalls_le
    refine ⟨hm₂, ?_⟩
    rw [Trace.hostCalls_append]
    omega
  | @peer t m₁ a more _ ha ih =>
    obtain ⟨⟨hE, hcoherent, hproper⟩, hle⟩ := ih
    obtain ⟨hE, hsupply, hgone⟩ := hE.advance ha
    refine ⟨⟨hE, hcoherent, hproper.keep hgone (MemoryHost.app_perform a.2 m₁.host)⟩, ?_⟩
    exact Nat.le_trans
      (Nat.add_le_add_left (Nat.add_le_add_left (Nat.mul_le_mul_left 16 hsupply) _) _) hle

/-- A new call whose peer will send these datagrams, each after a while, and then shut its end of
the link down or drop it. -/
def facing (config : Config) (isn : SeqNum) (role : Role) (app : MemoryApp)
    (datagrams : List (Millis × Bytes)) (last : Millis) (drops : Bool) :
    Machine Unit MemoryHost where
  engine := .run config (.new isn) role
  policy := ()
  host :=
    { app := app
      agenda := datagrams.map (fun (delay, d) => (delay, .send d)) ++
        [(last, if drops then .drop else .shutdown)] }

section

variable (config : Config) (isn : SeqNum) (role : Role) (app : MemoryApp)
  (datagrams : List (Millis × Bytes)) (last : Millis)

lemma ending_facing : (facing config isn role app datagrams last drops).Ending drops := by
  refine ⟨⟨rfl, fun hgone => (by cases hgone), fun a ha hdrop => ?_, fun _ => ?_⟩,
    Engine.coherent_run config isn role, Engine.proper_run config isn role⟩
  · rcases List.mem_append.mp ha with ha | ha
    · obtain ⟨d, -, rfl⟩ := List.mem_map.mp ha
      cases hdrop
    · rw [List.mem_singleton.mp ha] at hdrop
      cases drops with
      | true => rfl
      | false => cases hdrop
  · refine ⟨_, List.mem_append_right _ List.mem_cons_self, ?_⟩
    cases drops <;> rfl

lemma left_facing : (facing config isn role app datagrams last drops).left ≤
    16 * (app.outbound.length + app.pending.toList.length + datagrams.length) + 39 := by
  have hrun := Engine.left_run config isn role
  simp only [left, facing, MemoryHost.supply, List.length_append, List.length_map,
    List.length_singleton]
  change _ + 16 * (_ + _ + 0 + _) ≤ _
  omega

end

variable {config : Config} {isn : SeqNum} {role : Role} {app : MemoryApp}
  {datagrams : List (Millis × Bytes)} {last : Millis}

/-- A call whose peer will close asks its host for a bounded number of things and returns, and the
only failure of the link that can end it is that the peer has gone away. -/
theorem run_returns (h : (facing config isn role app datagrams last drops).Interleaved t m) :
    t.hostCalls ≤ 16 * (app.outbound.length + app.pending.toList.length + datagrams.length) + 39 ∧
    (m.engine.result? = none → ∃ m' events, m.step .inert MemoryHost.host = some (m', events)) ∧
    (∀ cause, m.engine.result? = some (.error cause) → cause.Expected m.host.peerGone) ∧
    (m.host.peerGone = true → drops = true) ∧
    ∃ u m', (facing config isn role app datagrams last drops).Interleaved (t ++ u) m' ∧
      MemoryHost.run m.engine m.host = (m'.engine, m'.host) ∧ m'.engine.result?.isSome := by
  obtain ⟨hm, hle⟩ := h.ending (ending_facing config isn role app datagrams last)
  have hleft : (facing config isn role app datagrams last drops).left ≤ _ :=
    left_facing config isn role app datagrams last
  refine ⟨by omega, hm.exists_step, fun cause hr => hm.expected hr, hm.host.gone, _, _,
    h.run m.host.patience, rfl, hm.run m.left_le_patience⟩

def deserted : Machine Unit MemoryHost :=
  facing { mss := 1 } 1 .active { outbound := [7, 8] }
    [(0, Segment.encode ⟨{ seq := 100, ack := 2, flags := .synAck }, []⟩)] 5 true

def desertedFirst : Machine Unit MemoryHost × Trace :=
  deserted.run .inert MemoryHost.host 7

def desertedRest : Machine Unit MemoryHost × Trace :=
  run .inert MemoryHost.host 20
    ⟨desertedFirst.1.engine, (), { desertedFirst.1.host.perform .drop with agenda := [] }⟩

theorem run_returns_deserted :
    deserted.Interleaved (desertedFirst.2 ++ desertedRest.2) desertedRest.1 ∧
      desertedRest.1.engine.result? = some (.error (.io .peerDropped)) ∧
      (ConnectionError.io .peerDropped).Expected desertedRest.1.host.peerGone ∧
      Trace.sent (desertedFirst.2 ++ desertedRest.2) = [7] := by
  have hfirst : deserted.Interleaved desertedFirst.2 desertedFirst.1 := Interleaved.refl.run 7
  have hagenda : desertedFirst.1.host.agenda = [(5, .drop)] := by
    rfl
  have hrest : deserted.Interleaved (desertedFirst.2 ++ desertedRest.2) desertedRest.1 :=
    (hfirst.peer hagenda).run 20
  have hended : desertedRest.1.engine.result? = some (.error (.io .peerDropped)) := by
    decide +kernel
  obtain ⟨-, -, hexpected, -⟩ := run_returns hrest
  exact ⟨hrest, hended, hexpected _ hended, by decide +kernel⟩

end Machine

end DatagramStream
