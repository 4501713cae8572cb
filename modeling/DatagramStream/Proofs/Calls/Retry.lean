import DatagramStream.Proofs.Calls.Handshake
import DatagramStream.Proofs.Runs

/-! Active handshakes after others that have failed. -/

namespace DatagramStream

namespace Engine

def Counts (start : Context) (t : Trace) (e : Engine) : Prop :=
  e.ctx.next =
    if t.greeted (Segment.greets e.config.acks start.isn .active) then start.isn + 1 else start.next

def Trying (start : Context) (t : Trace) (e : Engine) : Prop :=
  e.ctx.isn = start.isn ∧ e.thenLoop = false ∧
    match e.point with
    | .sendSyn | .awaitSynAck => e.ctx.state = .synSent ∧ t.arrived = [] ∧ e.ctx.next = start.next
    | .ackSynAck | .unblock (.error _) | .ended (.error _) =>
      e.ctx.state = .synSent ∧ e.Counts start t
    | .unblock (.ok ()) => e.ctx.state = .established ∨ e.ctx.state = .synSent ∧ e.Counts start t
    | .ended (.ok ()) => True
    | _ => False

variable {e e' : Engine} {start : Context} {t u : Trace} {events : List Event}

lemma Counts.silent (h : e.Counts start t) (hu : u.arrived = []) : e.Counts start (t ++ u) := by
  rw [Counts, Trace.greeted_silent hu]
  exact h

lemma counts_of_greeted (hn : e.ctx.next = start.isn + 1)
    (h : t.greeted (Segment.greets e.config.acks start.isn .active) = true) : e.Counts start t :=
  hn.trans (if_pos h).symm

lemma counts_of_not_greeted (hn : e.ctx.next = start.next)
    (h : ¬ t.greeted (Segment.greets e.config.acks start.isn .active) = true) : e.Counts start t :=
  hn.trans (if_neg h).symm

lemma counts_of_unanswered (hn : e.ctx.next = start.next) (h : t.arrived = []) :
    e.Counts start t := by
  apply counts_of_not_greeted hn
  rw [Trace.greeted, h]
  exact Bool.false_ne_true

theorem Trying.step (h : e.Trying start t) (hs : e.Step events e') :
    e'.Trying start (t ++ events) := by
  obtain ⟨config, ctx, thenLoop, point⟩ := e
  obtain ⟨hisn, rfl, hpoint⟩ := h
  cases point with
  | sendSyn =>
    obtain ⟨hstate, harrived, hnext⟩ := hpoint
    obtain ⟨-, -, hsilent, outcome, rfl⟩ := opening_transmit hs
    have hnone : Trace.arrived (t ++ events) = [] := by
      rw [Trace.arrived_append, harrived, hsilent, List.append_nil]
    cases outcome with
    | error cause => exact ⟨hisn, rfl, hstate, counts_of_unanswered hnext hnone⟩
    | ok u => exact ⟨hisn, rfl, hstate, hnone, hnext⟩
  | awaitSynAck =>
    obtain ⟨hstate, harrived, hnext⟩ := hpoint
    obtain ⟨outcome, rfl, rfl⟩ := hs
    obtain ⟨unresolved, hreply, hnone⟩ | ⟨g, hreply, hfound⟩ :=
      onReply_cases ⟨config, ctx, false, .awaitSynAck⟩ onSynAck outcome
    · have hcounts : Counts start (t ++ [.receive config.receiveCapacity outcome])
          ⟨config, ctx, false, .awaitSynAck⟩ := by
        apply counts_of_unanswered hnext
        rw [Trace.arrived_append, harrived, hnone, List.append_nil]
      rw [hreply]
      cases unresolved with
      | error cause => exact ⟨hisn, rfl, hstate, hcounts⟩
      | ok u => exact ⟨hisn, rfl, .inr ⟨hstate, hcounts⟩⟩
    · rw [hreply]
      have hgreeted : Trace.greeted (Segment.greets config.acks start.isn .active)
          (t ++ [.receive config.receiveCapacity outcome]) =
            (g.header.flags.syn && acksSyn ⟨config, ctx, false, .awaitSynAck⟩ g) := by
        rw [Trace.greeted_first harrived hfound, ← hisn]
        rfl
      rw [onSynAck]
      split_ifs with hsynAck
      · exact ⟨hisn, rfl, hstate,
          counts_of_greeted (congrArg (· + 1) hisn) (hgreeted.trans hsynAck)⟩
      · refine ⟨hisn, rfl, .inr ⟨hstate, counts_of_not_greeted hnext ?_⟩⟩
        exact fun hc => hsynAck (hgreeted.symm.trans hc)
  | ackSynAck =>
    obtain ⟨hstate, hcounts⟩ := hpoint
    obtain ⟨-, -, hsilent, outcome, rfl⟩ := opening_transmit hs
    cases outcome with
    | error cause => exact ⟨hisn, rfl, hstate, hcounts.silent hsilent⟩
    | ok u =>
      refine ⟨hisn, rfl, .inl ?_⟩
      change (ctx.state.next? .recvSynAck).getD ctx.state = _
      rw [show ctx.state = .synSent from hstate]
      rfl
  | unblock outcome =>
    obtain ⟨rfl, rfl⟩ := hs
    cases outcome with
    | error cause => exact ⟨hisn, rfl, hpoint.1, hpoint.2.silent rfl⟩
    | ok u =>
      by_cases hopen : ctx.state = .established
      · simp only [opened, if_pos hopen, Bool.false_eq_true, if_false]
        exact ⟨hisn, rfl, trivial⟩
      · obtain ⟨hstate, hcounts⟩ := hpoint.resolve_left hopen
        simp only [opened, if_neg hopen]
        exact ⟨hisn, rfl, hstate, hcounts.silent rfl⟩
  | ended result => exact hs.elim
  | _ => exact hpoint.elim

lemma handshake_active {config : Config} (hv : config.validate = .ok ()) (ctx : Context) :
    handshake config ctx .active = ⟨config, ctx.transition .sendSyn, false, .sendSyn⟩ := by
  simp only [handshake, hv]

lemma state_sendSyn {ctx : Context} (h : ctx.state = .closed ∨ ctx.state = .synSent) :
    (ctx.transition .sendSyn).state = .synSent := by
  rw [Context.transition]
  rcases h with h | h
  · rw [h]
    rfl
  · rw [h]
    rfl

lemma trying_handshake {config : Config} (hv : config.validate = .ok ())
    (h : start.state = .closed ∨ start.state = .synSent) :
    (handshake config start .active).Trying start [] := by
  rw [handshake_active hv]
  exact ⟨rfl, rfl, state_sendSyn h, rfl, rfl⟩

lemma Trying.failed {cause : ConnectionError} (h : e.Trying start t)
    (hr : e.result? = some (.error cause)) :
    e.ctx.state = .synSent ∧ e.Counts start t := by
  obtain ⟨config, ctx, thenLoop, point⟩ := e
  cases point with
  | ended result =>
    obtain rfl : result = .error cause := Option.some.inj hr
    exact h.2.2
  | _ => cases hr

end Engine

def Trace.Unhindered (t : Trace) : Prop :=
  ∀ header payload cause, .send header payload (.error cause) ∉ t

lemma Trace.Unhindered.right {t u : Trace} (h : Unhindered (t ++ u)) : u.Unhindered := by
  intro header payload cause hc
  exact h header payload cause (List.mem_append_right t hc)

namespace Machine

variable {π σ : Type} {P : Policy π} {H : Host σ} {m : Machine π σ} {g : Segment}

lemma run_unblock {outcome : Except ConnectionError Unit} (hp : m.engine.point = .unblock outcome)
    (ht : m.engine.thenLoop = false) (fuel : Nat) :
    m.run P H (fuel + 1) = (⟨m.engine.opened outcome, m.policy, H.unblock m.host⟩, [.unblock]) := by
  have hr : m.engine.request = .unblock (m.engine.opened outcome) := by
    rw [Engine.request, hp]
  have hs : m.step P H =
      some (⟨m.engine.opened outcome, m.policy, H.unblock m.host⟩, [.unblock]) := by
    rw [step, hr]
  have hend : (m.engine.opened outcome).result?.isSome := by
    cases outcome with
    | error cause => rfl
    | ok u =>
      simp only [Engine.opened, ht, Bool.false_eq_true, if_false]
      split_ifs <;> rfl
  rw [run_succ hs, run_of_stuck (step_ended hend)]
  rfl

lemma run_ackSynAck (hp : m.engine.point = .ackSynAck) (ht : m.engine.thenLoop = false)
    (hs : m.engine.ctx.state = .synSent) (hok : Trace.Unhindered (m.run P H 2).2) :
    (m.run P H 2).1.engine.result? = some (.ok ()) ∧
      (m.run P H 2).1.engine.ctx = { m.engine.ctx with state := .established } := by
  obtain ⟨⟨config, ctx, thenLoop, point⟩, policy, host⟩ := m
  obtain rfl : point = .ackSynAck := hp
  obtain rfl : thenLoop = false := ht
  obtain ⟨policy', host', hstep⟩ | ⟨cause, host', hstep⟩ :=
    step_transmit (P := P) (H := H) (m := ⟨⟨config, ctx, false, .ackSynAck⟩, policy, host⟩) rfl
  · rw [run_succ hstep, run_unblock rfl rfl]
    have hopen : (ctx.transition .recvSynAck) = { ctx with state := .established } := by
      rw [Context.transition, show ctx.state = .synSent from hs]
      rfl
    simp only [Engine.onOpening, Engine.opened, hopen, if_true, Bool.false_eq_true, if_false]
    exact ⟨rfl, rfl⟩
  · rw [run_succ hstep] at hok
    exact absurd List.mem_cons_self (hok _ _ cause)

lemma run_awaitSynAck (hp : m.engine.point = .awaitSynAck) (ht : m.engine.thenLoop = false)
    (hs : m.engine.ctx.state = .synSent) (hok : Trace.Unhindered (m.run P H 3).2)
    (hg : (Trace.arrived (m.run P H 3).2).head? = some g)
    (hgreets : g.greets m.engine.config.acks m.engine.ctx.isn .active = true) :
    (m.run P H 3).1.engine.result? = some (.ok ()) ∧
      (m.run P H 3).1.engine.ctx =
        { m.engine.ctx with
          state := .established, next := m.engine.ctx.isn + 1, expected := g.header.seq + 1 } := by
  obtain ⟨⟨config, ctx, thenLoop, point⟩, policy, host⟩ := m
  obtain rfl : point = .awaitSynAck := hp
  obtain rfl : thenLoop = false := ht
  obtain hnone | ⟨outcome, host', hstep⟩ :=
    step_receive (P := P) (H := H) (m := ⟨⟨config, ctx, false, .awaitSynAck⟩, policy, host⟩) rfl
  · rw [run_of_stuck hnone] at hg
    cases hg
  · rw [run_succ hstep] at hok hg ⊢
    rw [Trace.arrived_append] at hg
    obtain ⟨unresolved, hreply, hnone⟩ | ⟨g', hreply, hfound⟩ :=
      Engine.onReply_cases ⟨config, ctx, false, .awaitSynAck⟩ Engine.onSynAck outcome
    · -- Nothing comes in any more once the handshake has given up.
      rw [hreply, run_unblock rfl rfl, hnone] at hg
      cases hg
    · obtain rfl : g' = g := by
        rw [hfound] at hg
        exact Option.some.inj hg
      have hanswer : Engine.onSynAck ⟨config, ctx, false, .awaitSynAck⟩ g' =
          ⟨config, { ctx with expected := g'.header.seq + 1, next := ctx.isn + 1 },
            false, .ackSynAck⟩ :=
        if_pos hgreets
      rw [hreply, hanswer] at hok ⊢
      exact run_ackSynAck rfl rfl hs hok.right

end Machine

def Failed (past : List Ended) : Prop :=
  ∀ p ∈ past, p.call = .handshake .active ∧ ∃ cause, p.result = .error cause

def answered (config : Config) (isn : SeqNum) (past : List Ended) : Bool :=
  past.any fun p => p.trace.greeted (Segment.greets config.acks isn .active)

lemma answered_append (config : Config) (isn : SeqNum) (past : List Ended) (p : Ended) :
    answered config isn (past ++ [p]) =
      (p.trace.greeted (Segment.greets config.acks isn .active) || answered config isn past) := by
  rw [answered, List.any_append, List.any_cons, List.any_nil, Bool.or_false, Bool.or_comm]
  rfl

namespace Calls

variable {π σ : Type} {P : Policy π} {H : Host σ} {config : Config} {isn : SeqNum}
  {past : List Ended} {ctx : Context}

theorem counts_of_failed (h : Calls P H config isn past ctx) (hv : config.validate = .ok ())
    (hf : Failed past) :
    (ctx.state = .closed ∨ ctx.state = .synSent) ∧
      ctx.next = if answered config isn past then isn + 1 else isn := by
  induction h with
  | fresh => exact ⟨.inl rfl, rfl⟩
  | @call past ctx call policy host t m result hpast hsteps hresult ih =>
    obtain ⟨rfl, cause, rfl⟩ := hf _ (List.mem_append_right past List.mem_cons_self)
    obtain ⟨hstate, hnext⟩ := ih fun p hp => hf p (List.mem_append_left _ hp)
    have htrying : m.engine.Trying ctx t :=
      hsteps.keeps (I := fun t e => e.Trying ctx t) (Engine.trying_handshake hv hstate)
        fun h hs => h.step hs
    obtain ⟨hsent, hcounts⟩ := htrying.failed hresult
    have hconfig : m.engine.config = config :=
      congrArg Prod.fst (hsteps.fixed.trans (Engine.fixed_handshake config ctx .active))
    refine ⟨.inr hsent, ?_⟩
    rw [Engine.Counts, hconfig, hpast.isn_eq, hnext] at hcounts
    simp only [answered_append, Bool.or_eq_true, ite_or]
    exact hcounts

/-- After attempts that have failed, the SYN goes out under the first number, unless one of them was
answered and could not send its ACK; either way, an ACK of the first number establishes the
connection. -/
theorem handshake_retried (h : Calls P H config isn past ctx) (hv : config.validate = .ok ())
    (hf : Failed past) (policy : π) (host : σ) :
    let r := Machine.run P H 4 ⟨.handshake config ctx .active, policy, host⟩
    (∃ outcome more, r.2 = .send (Header.encode
        { seq := if answered config isn past then isn + 1 else isn, ack := ctx.expected,
          flags := .synOnly, window := config.window }) [] outcome :: more) ∧
      ∀ g, Trace.Unhindered r.2 → (Trace.arrived r.2).head? = some g → g.header.flags.syn = true →
        g.header.flags.ack = true → g.header.ack = isn + 1 →
          r.1.engine.result? = some (.ok ()) ∧ r.1.engine.ctx.next = isn + 1 ∧
            r.1.engine.ctx.expected = g.header.seq + 1 := by
  obtain ⟨hstate, hnext⟩ := h.counts_of_failed hv hf
  have hsent := Engine.state_sendSyn hstate
  rw [Engine.handshake_active hv]
  intro r
  let e : Engine := ⟨config, ctx.transition .sendSyn, false, .sendSyn⟩
  have hsyn : (e.stamp .synOnly []).header =
      { seq := if answered config isn past then isn + 1 else isn, ack := ctx.expected,
        flags := .synOnly, window := config.window } := by
    rw [← hnext]
    rfl
  rw [← hsyn]
  obtain ⟨policy', host', hstep⟩ | ⟨cause, host', hstep⟩ :=
    Machine.step_transmit (P := P) (H := H) (m := ⟨e, policy, host⟩) rfl
  · have hr : r = _ := Machine.run_succ hstep 3
    rw [hr]
    refine ⟨⟨.ok (), _, rfl⟩, fun g hok hg hsynFlag hackFlag hack => ?_⟩
    have hgreets : g.greets config.acks ctx.isn .active = true := by
      simp only [Segment.greets, hsynFlag, hackFlag, hack, h.isn_eq, AckCheck.accepts_self,
        Bool.and_self]
    obtain ⟨hresult, hctx⟩ :=
      Machine.run_awaitSynAck (m := ⟨e.goto .awaitSynAck, policy', host'⟩)
        rfl rfl hsent hok.right hg hgreets
    refine ⟨hresult, ?_, congrArg Context.expected hctx⟩
    rw [← h.isn_eq]
    exact congrArg Context.next hctx
  · -- The SYN itself has not gone out.
    have hr : r = _ := Machine.run_succ hstep 3
    rw [hr]
    refine ⟨⟨.error cause, _, rfl⟩, fun g hok => ?_⟩
    exact absurd List.mem_cons_self (hok _ _ cause)

theorem handshake_retried_dismissed :
    ∃ past ctx, Calls .inert Script.host {} 1 past ctx ∧ past.length = 1 ∧
      let r := Machine.run .inert Script.host 4 ⟨.handshake {} ctx .active, (), welcoming⟩
      (∃ outcome more, r.2 =
        .send (Header.encode { seq := 1, ack := 0, flags := .synOnly, window := 3072 })
          [] outcome :: more) ∧
        r.1.engine.result? = some (.ok ()) ∧ r.1.engine.ctx.next = 2 ∧
        r.1.engine.ctx.expected = 101 := by
  have hfresh : Calls .inert Script.host {} 1 [] (.new 1) := .fresh
  have hcalls := hfresh.attempted (s := dismissive) (by rfl)
  have hfailed : Failed ([] ++ [⟨.handshake .active, (attempt {} (.new 1) dismissive).2,
      .error (.handshakeIncomplete .synSent)⟩]) := by
    intro p hp
    rw [List.mem_singleton.mp hp]
    exact ⟨rfl, _, rfl⟩
  obtain ⟨hsyn, hresult⟩ := handshake_retried hcalls (by decide) hfailed () welcoming
  refine ⟨_, _, hcalls, rfl, hsyn, ?_⟩
  apply hresult ⟨{ seq := 100, ack := 2, flags := .synAck }, []⟩ ?_ (by decide +kernel) rfl rfl rfl
  have hquiet : (attempt {} (attempt {} (.new 1) dismissive).1.engine.ctx welcoming).2.all
      (fun c => !c.isFailure) = true := by
    decide +kernel
  intro header payload cause hc
  exact absurd (List.all_eq_true.mp hquiet _ hc) (by simp [Event.isFailure])

/-- The first attempt is answered and cannot send its ACK; the second one counts its SYN on from
there. -/
theorem retry_counts_on : ∃ past ctx, Calls .inert Script.host {} 1 past ctx ∧ Failed past ∧
    ∃ outcome more,
      (attempt {} ctx welcoming).2 =
        .send (Header.encode { seq := 2, ack := 101, flags := .synOnly, window := 3072 })
          [] outcome :: more := by
  have hfresh : Calls .inert Script.host {} 1 [] (.new 1) := .fresh
  have hcalls :=
    hfresh.attempted (s := { welcoming with sendFaults := [none, some .networkUnreachable] })
      (by rfl)
  refine ⟨_, _, hcalls, ?_, .ok (), _, rfl⟩
  intro p hp
  rw [List.mem_singleton.mp hp]
  exact ⟨rfl, _, rfl⟩

end Calls

end DatagramStream
