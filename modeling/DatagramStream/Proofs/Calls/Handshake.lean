import DatagramStream.Proofs.Calls.Basic
import DatagramStream.Proofs.Renumbering.Run

/-! What a handshake comes to on a connection that has had other calls before. -/

namespace DatagramStream

/-- What a handshake in this role has received resolves it: an answer to its SYN, or a SYN and then
the ACK of its own. -/
def Trace.Resolved (acks : AckCheck) (isn : SeqNum) (syn : Segment) (t : Trace) : Role → Prop
  | .active => t.arrived = [syn] ∧ syn.greets acks isn .active = true
  | .passive => ∃ ack, t.arrived = [syn, ack] ∧ syn.greets acks isn .passive = true ∧
      ack.header.flags.ack = true ∧ acks.accepts ack.header.ack (isn + 1) = true

lemma Trace.Resolved.silent {acks : AckCheck} {isn : SeqNum} {syn : Segment} {t u : Trace}
    {role : Role} (h : t.Resolved acks isn syn role) (hu : u.arrived = []) :
    Trace.Resolved acks isn syn (t ++ u) role := by
  have harrived : Trace.arrived (t ++ u) = t.arrived := by
    rw [Trace.arrived_append, hu, List.append_nil]
  cases role with
  | active => exact ⟨harrived.trans h.1, h.2⟩
  | passive =>
    obtain ⟨ack, ht, hrest⟩ := h
    exact ⟨ack, harrived.trans ht, hrest⟩

def Context.tally (c : Context) : SeqNum × Bool × Bool × Nat × Nat :=
  (c.isn, c.done, c.peerFinSeen, c.sent, c.received)

namespace State

variable {s : State} {t : Trigger}

lemma next_of_opening (h : s ≠ .established) (ht : t = .listen ∨ t = .sendSyn ∨ t = .recvSyn) :
    (s.next? t).getD s ≠ .established ∧ ((s.next? t).getD s).isSynchronized = s.isSynchronized := by
  rcases ht with rfl | rfl | rfl
  all_goals
    cases s <;> first | exact absurd rfl h | exact ⟨by decide, rfl⟩

lemma of_next_established (h : s ≠ .established) (hn : (s.next? t).getD s = .established) :
    s.isSynchronized = false := by
  cases s <;> cases t <;> first | rfl | exact absurd rfl h | cases hn

lemma isSynchronized_of_canReceive (h : s.canReceive = true) : s.isSynchronized = true := by
  cases s <;> first | rfl | cases h

end State

namespace Engine

def Pending (start : Context) (e : Engine) : Prop :=
  e.ctx.state ≠ .established ∧ e.ctx.state.isSynchronized = start.state.isSynchronized

def Agreed (start : Context) (role : Role) (t : Trace) (e : Engine) : Prop :=
  e.ctx.next = start.isn + 1 ∧
    ∃ syn, t.Resolved e.config.acks start.isn syn role ∧ e.ctx.expected = syn.header.seq + 1

def Underway (start : Context) (role : Role) (t : Trace) (e : Engine) : Prop :=
  e.ctx.tally = start.tally ∧ e.thenLoop = false ∧
    match e.point with
    | .sendSyn | .awaitSynAck => role = .active ∧ t.arrived = [] ∧ e.Pending start
    | .awaitSyn => role = .passive ∧ t.arrived = [] ∧ e.Pending start
    | .ackSynAck => role = .active ∧ e.Pending start ∧ e.Agreed start role t
    | .sendSynAck | .awaitFirstAck => role = .passive ∧ e.Pending start ∧ ∃ syn, t.arrived = [syn] ∧
        syn.greets e.config.acks start.isn .passive = true ∧ e.ctx.expected = syn.header.seq + 1
    | .unblock (.ok ()) => e.ctx.state = .established →
        start.state.isSynchronized = false ∧ e.Agreed start role t
    | .ended (.ok ()) => e.ctx.state = .established ∧
        start.state.isSynchronized = false ∧ e.Agreed start role t
    | .unblock (.error _) | .ended (.error _) => True
    | _ => False

variable {e e' : Engine} {start : Context} {role : Role} {t : Trace} {events : List Event}

lemma onReply_cases (e : Engine) (onSegment : Engine → Segment → Engine)
    (answer : Except IoError Bytes) :
    (∃ outcome, e.onReply onSegment answer = e.goto (.unblock outcome) ∧
        Trace.arrived [.receive e.config.receiveCapacity answer] = []) ∨
      ∃ g, e.onReply onSegment answer = onSegment e g ∧
        Trace.arrived [.receive e.config.receiveCapacity answer] = [g] := by
  rw [onReply]
  cases ha : e.arrival answer with
  | error cause => exact .inl ⟨.error cause, rfl, arrived_of_closed ha⟩
  | ok found =>
    have hf := arrived_of_arrival ha
    cases found with
    | none => exact .inl ⟨.ok (), rfl, hf⟩
    | some g => exact .inr ⟨g, rfl, hf⟩

lemma Pending.established (h : e.Pending start) {t : Trigger}
    (hn : (e.ctx.transition t).state = .established) :
    start.state.isSynchronized = false := by
  rw [← h.2]
  exact State.of_next_established h.1 hn

namespace Underway

lemma onOpening {next : Engine} (h : e.Underway start role t)
    (hn : next.Underway start role (t ++ events)) (outcome : Except IoError Unit) :
    (e.onOpening next outcome).Underway start role (t ++ events) := by
  cases outcome with
  | error cause => exact ⟨h.1, h.2.1, trivial⟩
  | ok u => exact hn

lemma unresolved (h : e.Underway start role t) (hp : e.Pending start) (u : Trace) :
    e.unresolved.Underway start role u :=
  ⟨h.1, h.2.1, fun hc => absurd hc hp.1⟩

lemma onReply {onSegment : Engine → Segment → Engine} {answer : Except IoError Bytes}
    (h : e.Underway start role t) (hp : e.Pending start)
    (hn : ∀ g, Trace.arrived [.receive e.config.receiveCapacity answer] = [g] →
      (onSegment e g).Underway start role (t ++ [.receive e.config.receiveCapacity answer])) :
    (e.onReply onSegment answer).Underway start role
      (t ++ [.receive e.config.receiveCapacity answer]) := by
  obtain ⟨outcome, hreply, -⟩ | ⟨g, hreply, hfound⟩ := e.onReply_cases onSegment answer
  · rw [hreply]
    cases outcome with
    | error cause => exact ⟨h.1, h.2.1, trivial⟩
    | ok u => exact h.unresolved hp _
  · rw [hreply]
    exact hn g hfound

theorem step (h : e.Underway start role t) (hs : e.Step events e') :
    e'.Underway start role (t ++ events) := by
  obtain ⟨config, ctx, thenLoop, point⟩ := e
  obtain ⟨htally, rfl, hpoint⟩ := id h
  have hisn : ctx.isn = start.isn := congrArg Prod.fst htally
  cases point with
  | sendSyn =>
    obtain ⟨hrole, harrived, hpending⟩ := hpoint
    obtain ⟨-, -, hsilent, outcome, rfl⟩ := opening_transmit hs
    apply h.onOpening
    refine ⟨htally, rfl, hrole, ?_, hpending⟩
    rw [Trace.arrived_append, harrived, hsilent, List.append_nil]
  | awaitSynAck =>
    obtain ⟨rfl, harrived, hpending⟩ := hpoint
    obtain ⟨outcome, rfl, rfl⟩ := hs
    refine h.onReply hpending fun g hg => ?_
    rw [onSynAck]
    split_ifs with hsynAck
    · refine ⟨htally, rfl, rfl, hpending, congrArg (· + 1) hisn, g, ⟨?_, ?_⟩, rfl⟩
      · rw [Trace.arrived_append, harrived, hg, List.nil_append]
      · rw [← hisn]
        exact hsynAck
    · exact h.unresolved hpending _
  | ackSynAck =>
    obtain ⟨rfl, hpending, hnext, syn, hresolved, hexpected⟩ := hpoint
    obtain ⟨-, -, hsilent, outcome, rfl⟩ := opening_transmit hs
    apply h.onOpening
    exact ⟨htally, rfl, fun hc =>
      ⟨hpending.established hc, hnext, syn, hresolved.silent hsilent, hexpected⟩⟩
  | awaitSyn =>
    obtain ⟨rfl, harrived, hpending⟩ := hpoint
    obtain ⟨outcome, rfl, rfl⟩ := hs
    refine h.onReply hpending fun g hg => ?_
    rw [onSyn]
    split_ifs with hsyn
    · have hnext := State.next_of_opening hpending.1 (.inr (.inr rfl))
      refine ⟨htally, rfl, rfl, ⟨hnext.1, hnext.2.trans hpending.2⟩, g, ?_, ?_, rfl⟩
      · rw [Trace.arrived_append, harrived, hg, List.nil_append]
      · rw [Segment.greets, hsyn]
        rfl
    · exact h.unresolved hpending _
  | sendSynAck =>
    obtain ⟨hrole, hpending, syn, harrived, hgreets, hexpected⟩ := hpoint
    obtain ⟨-, -, hsilent, outcome, rfl⟩ := opening_transmit hs
    apply h.onOpening
    refine ⟨htally, rfl, hrole, hpending, syn, ?_, hgreets, hexpected⟩
    rw [Trace.arrived_append, harrived, hsilent, List.append_nil]
  | awaitFirstAck =>
    obtain ⟨rfl, hpending, syn, harrived, hgreets, hexpected⟩ := hpoint
    obtain ⟨outcome, rfl, rfl⟩ := hs
    refine h.onReply hpending fun g hg => ?_
    rw [onFirstAck]
    split_ifs with hack
    · simp only [acksSyn, Bool.and_eq_true, hisn] at hack
      refine ⟨htally, rfl, fun hc =>
        ⟨hpending.established hc, congrArg (· + 1) hisn, syn, ?_, hexpected⟩⟩
      refine ⟨g, ?_, hgreets, hack⟩
      rw [Trace.arrived_append, harrived, hg]
      rfl
    · exact h.unresolved hpending _
  | unblock outcome =>
    obtain ⟨rfl, rfl⟩ := hs
    cases outcome with
    | error cause => exact ⟨htally, rfl, trivial⟩
    | ok u =>
      by_cases hstate : ctx.state = .established
      · obtain ⟨hfresh, hnext, syn, hresolved, hexpected⟩ := hpoint hstate
        simp only [opened, if_pos hstate, Bool.false_eq_true, if_false]
        exact ⟨htally, rfl, hstate, hfresh, hnext, syn, hresolved.silent rfl, hexpected⟩
      · simp only [opened, if_neg hstate]
        exact ⟨htally, rfl, trivial⟩
  | ended result => exact hs.elim
  | _ => exact hpoint.elim

end Underway

lemma underway_handshake (config : Config) {ctx : Context} (h : ctx.state ≠ .established)
    (role : Role) :
    (handshake config ctx role).Underway ctx role [] := by
  unfold handshake
  cases config.validate with
  | error cause => exact ⟨rfl, rfl, trivial⟩
  | ok u =>
    cases role with
    | active => exact ⟨rfl, rfl, rfl, rfl, State.next_of_opening h (.inr (.inl rfl))⟩
    | passive => exact ⟨rfl, rfl, rfl, rfl, State.next_of_opening h (.inl rfl)⟩

lemma Underway.agreed (h : e.Underway start role t) (hr : e.result? = some (.ok ())) :
    e.ctx.state = .established ∧ start.state.isSynchronized = false ∧ e.Agreed start role t := by
  obtain ⟨config, ctx, thenLoop, point⟩ := e
  cases point with
  | ended result =>
    obtain rfl : result = .ok () := Option.some.inj hr
    exact h.2.2
  | _ => cases hr

end Engine

namespace Context

variable {c start : Context}

lemma eq_of_tally {peer : SeqNum} (h : c.tally = start.tally) (hs : c.state = .established)
    (hn : c.next = start.isn + 1) (he : c.expected = peer + 1) :
    c = { established start.isn peer with
      done := start.done, peerFinSeen := start.peerFinSeen, sent := start.sent,
        received := start.received } := by
  obtain ⟨state, isn, next, expected, done, seen, sent, received⟩ := c
  simp only [tally, Prod.mk.injEq] at h hs hn he
  obtain ⟨rfl, rfl, rfl, rfl, rfl⟩ := h
  subst hs hn he
  rfl

lemma Orderly.untouched (h : c.Orderly) (hs : c.state.isSynchronized = false)
    (hf : c.peerFinSeen = false) :
    c.Untouched := by
  obtain (hseen | hstate) | h := h
  · rw [hf] at hseen
    cases hseen
  · rw [State.isSynchronized_of_canReceive hstate] at hs
    cases hs
  · exact h

end Context

namespace Calls

variable {π σ : Type} {P : Policy π} {H : Host σ} {config : Config} {isn : SeqNum}
  {past : List Ended} {ctx : Context}

/-- Unless the connection is established already, a handshake that succeeds has been resolved by
what it has received itself, and leaves a new connection but for what the end of an earlier one has
left. -/
theorem handshake_resolved (h : Calls P H config isn past ctx) (hstate : ctx.state ≠ .established)
    {role : Role} {policy : π} {host : σ} {t : Trace} {m : Machine π σ}
    (hs : Machine.Steps P H ⟨.handshake config ctx role, policy, host⟩ t m)
    (hr : m.engine.result? = some (.ok ())) :
    ∃ syn, t.Resolved config.acks isn syn role ∧
      m.engine.ctx = { Context.established isn syn.header.seq with
        done := ctx.done, peerFinSeen := ctx.peerFinSeen, sent := ctx.sent,
          received := ctx.received } ∧
      (ctx.peerFinSeen = false → m.engine.ctx = .established isn syn.header.seq) := by
  have hunderway : m.engine.Underway ctx role t :=
    hs.keeps (I := fun t e => e.Underway ctx role t) (Engine.underway_handshake config hstate role)
      fun h hs => h.step hs
  have hconfig : m.engine.config = config :=
    congrArg Prod.fst (hs.fixed.trans (Engine.fixed_handshake config ctx role))
  obtain ⟨hopen, hfresh, hnext, syn, hresolved, hexpected⟩ := hunderway.agreed hr
  have hctx := Context.eq_of_tally hunderway.1 hopen hnext hexpected
  rw [hconfig, h.isn_eq] at hresolved
  rw [h.isn_eq] at hctx
  refine ⟨syn, hresolved, hctx, fun hseen => ?_⟩
  -- Where a connection can still be opened and the peer has closed none, the calls before have left
  -- no marks.
  obtain ⟨-, hdone, hsent, hreceived⟩ := h.orderly.untouched hfresh hseen
  rw [hctx, hdone, hseen, hsent, hreceived]
  rfl

def attempt (config : Config) (ctx : Context) (s : Script) : Machine Unit Script × Trace :=
  Machine.run .inert Script.host 4 ⟨.handshake config ctx .active, (), s⟩

lemma attempt_steps (config : Config) (ctx : Context) (s : Script) :
    Machine.Steps .inert Script.host ⟨.handshake config ctx .active, (), s⟩ (attempt config ctx s).2
      (attempt config ctx s).1 :=
  Machine.steps_run .inert Script.host 4 _

lemma attempted {s : Script} {result : Except ConnectionError Unit}
    (h : Calls .inert Script.host config isn past ctx)
    (hr : (attempt config ctx s).1.engine.result? = some result) :
    Calls .inert Script.host config isn
      (past ++ [⟨.handshake .active, (attempt config ctx s).2, result⟩])
      (attempt config ctx s).1.engine.ctx :=
  .call h (attempt_steps config ctx s) hr

def welcoming : Script where
  net := [Script.incoming .synAck 100 2 []]

def dismissive : Script where
  net := [Script.incoming .ackOnly 101 2 []]

theorem handshake_resolved_later : ∃ past ctx t, ∃ m : Machine Unit Script,
    Calls .inert Script.host { acks := .strict } 1 past ctx ∧ ctx.state = .synSent ∧
      Machine.Steps .inert Script.host
        ⟨.handshake { acks := .strict } ctx .active, (), welcoming⟩ t m ∧
      m.engine.result? = some (.ok ()) ∧
      ∃ syn, t.Resolved .strict 1 syn .active ∧ m.engine.ctx = .established 1 syn.header.seq := by
  have hfresh : Calls .inert Script.host { acks := .strict } 1 [] (.new 1) := .fresh
  have hcalls := hfresh.attempted (s := dismissive) (by rfl)
  have hsteps := attempt_steps { acks := .strict }
    (attempt { acks := .strict } (.new 1) dismissive).1.engine.ctx
    welcoming
  obtain ⟨syn, hresolved, -, hnew⟩ := handshake_resolved hcalls (by decide +kernel) hsteps (by rfl)
  exact ⟨_, _, _, _, hcalls, by decide +kernel, hsteps, by rfl, syn, hresolved,
    hnew (by decide +kernel)⟩

/-- On an established connection, a handshake succeeds that no SYN has come in for. -/
theorem handshake_succeeds_unresolved : ∃ past ctx t, ∃ m : Machine Unit Script,
    Calls .inert Script.host {} 1 past ctx ∧
      Machine.Steps .inert Script.host ⟨.handshake {} ctx .active, (), dismissive⟩ t m ∧
      m.engine.result? = some (.ok ()) ∧ ∀ syn, ¬ t.Resolved .permissive 1 syn .active := by
  have hfresh : Calls .inert Script.host {} 1 [] (.new 1) := .fresh
  have hcalls := hfresh.attempted (s := welcoming) (by rfl)
  refine ⟨_, _, _, _, hcalls, attempt_steps _ _ _, by rfl, ?_⟩
  rintro syn ⟨harrived, hgreets⟩
  have hnone :
      (Trace.arrived (attempt {} (attempt {} (.new 1) welcoming).1.engine.ctx dismissive).2).all
        fun g => !g.greets .permissive 1 .active := by
    decide +kernel
  rw [harrived] at hnone
  simp [hgreets] at hnone

end Calls

end DatagramStream
