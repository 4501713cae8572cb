import DatagramStream.Proofs.Session.Answering

/-! With strict checks, a connection leaves the states that wait for the acknowledgment of its FIN
when the first one has come in, and it ends well only after that. -/

namespace DatagramStream

lemma State.finAcked_of_isOver {state : State} {teardown : Teardown}
    (h : state.isOver teardown = true) :
    state.finAcked = true := by
  cases state <;> first | rfl | cases h

lemma State.finSeen_of_isOver {state : State} (h : state.isOver .fourWay = true) :
    state.finSeen = true := by
  cases state <;> first | rfl | cases h

lemma Context.finAcked_recvAck {c : Context} (h : c.state.awaitsFinAck = true) :
    (c.transition .recvAck).state.finAcked = true := by
  obtain ⟨state, isn, next, expected, done, seen, sent, received⟩ := c
  cases state <;> first | rfl | cases h

def Event.fin? : Event → Option SeqNum
  | send header payload (.ok ()) =>
    match Segment.parse (header ++ payload) with
    | .ok g => if g.header.flags.fin then some g.header.seq else none
    | .error _ => none
  | _ => none

def Segment.acksFin (fin : SeqNum) (g : Segment) : Bool :=
  g.header.flags.ack && g.header.ack == fin + 1

namespace Trace

variable {t u : Trace}

def fins (t : Trace) : List SeqNum :=
  t.filterMap Event.fin?

/-- The segments that have come in after the FIN went out and acknowledge it. -/
def finAcks : Trace → List Segment
  | [] => []
  | c :: t =>
    match c.fin? with
    | some fin => (arrived t).filter (·.acksFin fin)
    | none => finAcks t

def FirstFinAck (t : Trace) : Prop :=
  ∃ u c g, t = u ++ [c] ∧ arrived [c] = [g] ∧ finAcks u = [] ∧ finAcks t = [g]

@[simp] lemma fins_append (t u : Trace) : fins (t ++ u) = fins t ++ fins u :=
  List.filterMap_append

lemma fins_transmitted {g : Segment} (hp : g.Plain) :
    fins g.transmitted = if g.header.flags.fin then [g.header.seq] else [] := by
  have hg : Segment.parse (g.header.encode ++ g.payload) = .ok g := Segment.parse_encode hp
  have hs : Event.fin? (.send g.header.encode g.payload (.ok ())) =
      if g.header.flags.fin then some g.header.seq else none := by
    simp only [Event.fin?, hg]
  rw [fins, Segment.transmitted]
  split_ifs at hs ⊢
  · rw [List.filterMap_cons_some hs]
    rfl
  · rw [List.filterMap_cons_none hs]
    rfl

lemma fins_transmitted_of_other {g : Segment} (hp : g.Plain) (hf : g.header.flags.fin = false) :
    fins g.transmitted = [] := by
  rw [fins_transmitted hp, hf]
  rfl

lemma finAcks_transmitted (g : Segment) : finAcks g.transmitted = [] := by
  rw [Segment.transmitted, finAcks]
  cases (Event.send g.header.encode g.payload (.ok ())).fin? <;> rfl

lemma fins_of_failure {c : Event} (h : c.isFailure = true) : fins [c] = [] := by
  cases c with
  | send header payload outcome =>
    cases outcome with
    | ok u => cases h
    | error cause => rfl
  | _ => rfl

lemma exists_fin_of_lastFin? (h : t.lastFin?.isSome) :
    ∃ g ∈ t.arrived, g.header.flags.fin = true := by
  rw [lastFin?, Option.isSome_map] at h
  obtain ⟨g, hg⟩ := Option.isSome_iff_exists.mp h
  exact ⟨g, List.mem_filter.mp (List.mem_of_getLast? hg)⟩

lemma length_fins (t : Trace) : t.fins.length = t.finsSent := by
  rw [fins, List.length_filterMap_eq_countP, finsSent]
  congr 1
  funext c
  cases c with
  | send header payload outcome =>
    cases outcome with
    | error cause => rfl
    | ok u =>
      simp only [Event.fin?, Event.sendsFin, Event.isFin]
      cases Segment.parse (header ++ payload) with
      | error cause => rfl
      | ok g => cases hf : g.header.flags.fin <;> simp [hf]
  | _ => rfl

lemma finAcks_append_of_none (h : t.fins = []) : finAcks (t ++ u) = finAcks u := by
  induction t with
  | nil => rfl
  | cons c t ih =>
    cases hc : c.fin? with
    | none =>
      rw [fins, List.filterMap_cons_none hc] at h
      rw [List.cons_append, finAcks, hc]
      exact ih h
    | some fin =>
      rw [fins, List.filterMap_cons_some hc] at h
      cases h

lemma finAcks_append_of_fin {fin : SeqNum} {more : List SeqNum} (h : t.fins = fin :: more) :
    finAcks (t ++ u) = finAcks t ++ u.arrived.filter (·.acksFin fin) := by
  induction t with
  | nil => cases h
  | cons c t ih =>
    cases hc : c.fin? with
    | none =>
      rw [fins, List.filterMap_cons_none hc] at h
      rw [List.cons_append, finAcks, finAcks, hc]
      exact ih h
    | some fin' =>
      rw [fins, List.filterMap_cons_some hc] at h
      obtain ⟨rfl, -⟩ := List.cons.inj h
      rw [List.cons_append, finAcks, finAcks, hc]
      simp

lemma finAcks_of_none (h : t.fins = []) : finAcks t = [] := by
  rw [← List.append_nil t, finAcks_append_of_none h]
  rfl

lemma finAcks_append (h : u.fins = []) : finAcks (t ++ u) =
    finAcks t ++ u.arrived.filter fun g => t.fins.head?.any fun fin => g.acksFin fin := by
  cases ht : t.fins with
  | nil => simp [finAcks_append_of_none ht, finAcks_of_none ht, finAcks_of_none h]
  | cons fin more => simp [finAcks_append_of_fin ht]

end Trace

namespace Engine

variable {e e' : Engine} {t : Trace} {events : List Event}

lemma state_onAck (e : Engine) (ack : SeqNum) : (e.onAck ack).ctx.state =
    if e.ctx.state.awaitsFinAck && e.config.acks.accepts ack e.ctx.next then
      (e.ctx.transition .recvAck).state
    else e.ctx.state := by
  rw [onAck]
  split_ifs <;> rfl

lemma finAcked_onFinAnswered (e : Engine) (rest : Signals) :
    (e.onFinAnswered rest).ctx.state.finAcked = e.ctx.state.finAcked := by
  rw [onFinAnswered]
  split_ifs
  · rw [react_ctx, closeIfTimeWait_state]
  · simp only [Context.transition]
    cases e.ctx.state <;> rfl

lemma next_onFinAnswered (e : Engine) (rest : Signals) :
    (e.onFinAnswered rest).ctx.next = e.ctx.next := by
  rw [onFinAnswered]
  split_ifs
  · rw [react_ctx, ctx_closeIfTimeWait]
  · rfl

@[simp] lemma held_resending (e : Engine) (datagrams : List Bytes) :
    (e.resending datagrams).held = [] := by
  cases datagrams with
  | nil => exact held_turn e
  | cons datagram more => rfl

structure Closes (t : Trace) (e : Engine) : Prop where
  fins : t.fins = if e.ctx.state.finSent then [e.ctx.next - 1] else []
  heard :
    match e.held with
    | [] => e.ctx.state.finAcked = true ↔ t.finAcks ≠ []
    | g :: _ => g.header.flags.ack = true ∧ ∃ (u : Trace) (c : Event), t = u ++ [c] ∧
        Trace.arrived [c] = [g] ∧ Trace.fins [c] = [] ∧
        (e.ctx.state.finAcked = true ↔ u.finAcks ≠ [])

lemma LoopStep.finAcked (h : e.LoopStep events e') (hh : e.held = []) :
    e'.ctx.state.finAcked = e.ctx.state.finAcked := by
  cases h with
  | wait | readNone | drop | ackData | sendData => rw [react_ctx]; rfl
  | hear e rest good => rw [ctx_onSegment]; rfl
  | noteAck e g rest => cases hh
  | ackFin e rest => exact finAcked_onFinAnswered e rest
  | tellPeerClosed e rest => rw [react_ctx, closeIfTimeWait_state]; rfl
  | sendFin e =>
    obtain ⟨config, ⟨state, isn, next, expected, done, seen, sent, received⟩, thenLoop, point⟩ := e
    cases state <;> rfl
  | collectDue | resend => rw [resending_ctx]; rfl
  | readSome | deliver | refuse | fail => rfl

lemma LoopStep.next (h : e.LoopStep events e') (hc : e.Coherent) (hf : e.ctx.state.finSent = true) :
    e'.ctx.next = e.ctx.next := by
  have silent (hsend : e.ctx.state.canSend = true) : False := by
    rw [State.finSent_of_canSend hsend] at hf
    cases hf
  cases h with
  | wait | readNone | drop | ackData => rw [react_ctx]; rfl
  | sendData => exact (silent hc.2.1).elim
  | sendFin => exact (silent hc.2).elim
  | hear e rest good => rw [ctx_onSegment]; rfl
  | noteAck e g rest => rw [ctx_onContent, ctx_onAck]; rfl
  | ackFin e rest => exact next_onFinAnswered e rest
  | tellPeerClosed e rest => rw [react_ctx, ctx_closeIfTimeWait]; rfl
  | collectDue | resend => rw [resending_ctx]; rfl
  | readSome | deliver | refuse | fail => rfl

lemma LoopStep.unbroken (h : e.LoopStep events e') :
    Trace.Unbroken events ∨ ∃ cause, e'.result? = some (.error cause) := by
  cases h with
  | fail | refuse => exact .inr ⟨_, rfl⟩
  | _ => exact .inl (by simp [Trace.Unbroken, Segment.transmitted, Event.isFault])

lemma LoopStep.done (h : e.LoopStep events e') (hr : e'.result? = some (.ok ())) :
    e'.ctx.done = true := by
  have hp : e'.stage = .finished := stage_of_result (by rw [hr]; rfl)
  have ended {e : Engine} {datagrams : List Bytes}
      (hp : (e.resending datagrams).stage = .finished) :
      (e.resending datagrams).ctx.done = true := by
    cases datagrams with
    | nil =>
      rw [resending, stage_turn] at hp
      split_ifs at hp with hd
      exact hd
    | cons datagram more => cases hp
  cases h with
  | wait | readNone | drop | ackData | sendData | tellPeerClosed =>
    rw [stage_react] at hp
    cases hp
  | hear =>
    rw [stage_onSegment] at hp
    cases hp
  | noteAck =>
    rw [stage_onContent] at hp
    cases hp
  | ackFin =>
    rw [stage_onFinAnswered] at hp
    cases hp
  | readSome | deliver | sendFin => cases hp
  | collectDue | resend => exact ended hp
  | refuse | fail => cases hr

namespace Closes

lemma quiet (h : e.Closes t) (hs : e.Sound) (he : e.Step events e') (hb : e.held = [])
    (ha : e'.held = []) (hf : Trace.fins events = []) (hr : Trace.arrived events = []) :
    e'.Closes (t ++ events) := by
  obtain ⟨hfins, hheard⟩ := h
  rw [hb] at hheard
  have hsent : e'.ctx.state.finSent = e.ctx.state.finSent :=
    finSent_of_finless hs.coherent he (by rw [← Trace.length_fins, hf]; rfl)
  have hacked : e'.ctx.state.finAcked = e.ctx.state.finAcked := (hs.loopStep he).finAcked hb
  refine ⟨?_, ?_⟩
  · rw [Trace.fins_append, hf, List.append_nil, hfins, hsent]
    split_ifs with hc
    · rw [(hs.loopStep he).next hs.coherent hc]
    · rfl
  · rw [ha, Trace.finAcks_append hf, hr, hacked]
    simpa using hheard

lemma hear {d : Bytes} {g : Segment} {rest : Signals} (h : (e.goto (.receive rest)).Closes t)
    (good : Segment.ofBuffer e.config.receiveCapacity d = .ok g) :
    (e.onSegment g rest).Closes (t ++ [.receive e.config.receiveCapacity (.ok d)]) := by
  obtain ⟨hfins, hheard⟩ := h
  have hctx := ctx_onSegment e g rest
  have harrived := Trace.arrived_of_good good
  refine ⟨?_, ?_⟩
  · rw [Trace.fins_append, hfins, hctx]
    exact List.append_nil _
  rw [onSegment]
  split_ifs with hack
  · exact ⟨hack, t, _, rfl, harrived, rfl, hheard⟩
  · have hnone : [g].filter (fun g => t.fins.head?.any fun fin => g.acksFin fin) = [] := by
      simp [Segment.acksFin, hack]
    rw [held_onContent, Trace.finAcks_append rfl, harrived, hnone, List.append_nil, state_onContent]
    exact hheard

lemma inHand {g : Segment} {more : List Segment} (h : e.Closes t) (hg : e.held = g :: more) :
    ∃ (u : Trace) (c : Event), t = u ++ [c] ∧ Trace.arrived [c] = [g] ∧
      (e.ctx.state.finAcked = true ↔ u.finAcks ≠ []) ∧
      t.finAcks = u.finAcks ++ if e.ctx.state.finSent && g.header.ack ==
        e.ctx.next then [g] else [] := by
  obtain ⟨hfins, hheard⟩ := h
  rw [hg] at hheard
  obtain ⟨hack, u, c, rfl, harrived, hc, hheard⟩ := hheard
  refine ⟨u, c, rfl, harrived, hheard, ?_⟩
  rw [Trace.fins_append, hc, List.append_nil] at hfins
  rw [Trace.finAcks_append hc, harrived, hfins]
  cases e.ctx.state.finSent <;> simp [Segment.acksFin, hack, List.filter_cons]

lemma noteAck {g : Segment} {rest : Signals} (h : (e.goto (.noteAck g rest)).Closes t)
    (hstrict : e.config.acks = .strict) :
    ((e.onAck g.header.ack).onContent g rest).Closes (t ++ [.onAck g.header.ack]) := by
  have hnext : ((e.onAck g.header.ack).onContent g rest).ctx.next = e.ctx.next := by
    rw [ctx_onContent, ctx_onAck]
  refine ⟨?_, ?_⟩
  · rw [Trace.fins_append, h.fins, state_onContent, finSent_onAck, hnext]
    exact List.append_nil _
  obtain ⟨u, c, -, -, hheard, hacks⟩ := h.inHand rfl
  change e.ctx.state.finAcked = true ↔ u.finAcks ≠ [] at hheard
  change t.finAcks = u.finAcks ++ if e.ctx.state.finSent && g.header.ack ==
    e.ctx.next then [g] else []
    at hacks
  have hsilent : Trace.finAcks (t ++ [.onAck g.header.ack]) = t.finAcks := by
    rw [Trace.finAcks_append rfl]
    exact List.append_nil _
  rw [held_onContent, hsilent, hacks, state_onContent, state_onAck, hstrict, AckCheck.accepts,
    State.finSent_eq]
  -- An ACK has an effect if it is the first for the FIN; a later one finds the FIN complete.
  split_ifs with ha hs hs
  · simp [Context.finAcked_recvAck (Bool.and_eq_true_iff.mp ha).1]
  · simp only [Bool.and_eq_true, Bool.or_eq_true] at ha hs
    exact absurd ⟨.inl ha.1, ha.2⟩ hs
  · simp only [Bool.and_eq_true, Bool.or_eq_true, not_and] at ha hs
    have hk : e.ctx.state.finAcked = true := hs.1.resolve_left fun hw => ha hw hs.2
    simp [hk]
  · rw [List.append_nil]
    exact hheard

lemma sendFin (h : (e.goto .sendFin).Closes t) (hc : (e.goto .sendFin).Coherent) :
    Closes (t ++ (e.stamp .finOnly []).transmitted)
      { e with
        ctx := (e.ctx.recordSent .finOnly 0).transition .sendFin
        point := .receive .empty } := by
  obtain ⟨hfins, -⟩ := h
  obtain ⟨-, hsend⟩ := hc
  change e.ctx.state.canSend = true at hsend
  have hnone : t.fins = [] := by
    rw [hfins, if_neg]
    simp [goto, State.finSent_of_canSend hsend]
  have hnext : e.ctx.next + (UInt32.ofNat 0 + Flags.seqLen .finOnly) - 1 = e.ctx.next :=
    UInt32.add_sub_cancel e.ctx.next 1
  obtain ⟨hsent, hacked⟩ :
      ((e.ctx.recordSent .finOnly 0).transition .sendFin).state.finSent = true ∧
      ((e.ctx.recordSent .finOnly 0).transition .sendFin).state.finAcked = false := by
    obtain ⟨config, ⟨state, isn, next, expected, done, seen, sent, received⟩, thenLoop, point⟩ := e
    cases state <;> first | exact ⟨rfl, rfl⟩ | cases hsend
  refine ⟨?_, ?_⟩
  · rw [Trace.fins_append, hnone, Trace.fins_transmitted (plain_stamp e .finOnly []), hsent]
    exact congrArg (fun fin => [fin]) hnext.symm
  · rw [Trace.finAcks_append_of_none hnone, Trace.finAcks_transmitted]
    simp [held, hacked]

lemma step (h : e.Closes t) (hs : e.Sound) (hstrict : e.config.acks = .strict)
    (he : e.Step events e') :
    e'.Closes (t ++ events) := by
  cases hs.loopStep he with
  | wait | readNone | tellPeerClosed => exact h.quiet hs he rfl (held_react _ _) rfl rfl
  | sendData | ackData =>
    exact h.quiet hs he rfl (held_react _ _)
      (Trace.fins_transmitted_of_other (plain_stamp _ _ _) rfl) rfl
  | ackFin =>
    exact h.quiet hs he rfl (held_onFinAnswered _ _)
      (Trace.fins_transmitted_of_other (plain_stamp _ _ _) rfl) rfl
  | drop e rest some bad => exact h.quiet hs he rfl (held_react _ _) rfl (Trace.arrived_of_bad bad)
  | hear e rest good => exact h.hear good
  | noteAck e g rest => exact h.noteAck hstrict
  | sendFin e => exact h.sendFin hs.coherent
  | readSome | deliver | refuse => exact h.quiet hs he rfl rfl rfl rfl
  | collectDue | resend => exact h.quiet hs he rfl (held_resending _ _) rfl rfl
  | @fail e p c cause may failure =>
    have hb : (e.goto p).held = [] := by
      cases p <;> first | rfl | cases may
    exact h.quiet hs he hb rfl (Trace.fins_of_failure failure) (arrived_of_failure failure).1

lemma finAcks_ne_nil (h : e.Closes t) (hk : e.ctx.state.finAcked = true) : t.finAcks ≠ [] := by
  cases hheld : e.held with
  | nil =>
    have hheard := h.heard
    rw [hheld] at hheard
    exact hheard.mp hk
  | cons g more =>
    obtain ⟨u, c, -, -, hheard, hacks⟩ := h.inHand hheld
    rw [hacks]
    exact List.append_ne_nil_of_left_ne_nil (hheard.mp hk) _

lemma of_established {isn peer : SeqNum} (hctx : e.ctx = .established isn peer)
    (hp : e.point = .wait) :
    e.Closes [] := by
  obtain ⟨config, ctx, thenLoop, point⟩ := e
  obtain rfl : ctx = .established isn peer := hctx
  obtain rfl : point = .wait := hp
  refine ⟨rfl, ?_⟩
  simp [held, Context.established, State.finAcked, Trace.finAcks]

end Closes

lemma point_of_held {g : Segment} {more : List Segment} (h : e.held = g :: more) :
    ∃ rest, e.point = .noteAck g rest := by
  obtain ⟨config, ctx, thenLoop, point⟩ := e
  cases point with
  | noteAck s rest =>
    obtain ⟨rfl, -⟩ := List.cons.inj h
    exact ⟨rest, rfl⟩
  | _ => cases h

lemma point_of_result {result : Except ConnectionError Unit} (h : e.result? = some result) :
    e.point = .ended result := by
  obtain ⟨config, ctx, thenLoop, point⟩ := e
  cases point <;> cases h
  rfl

lemma settled_of_result {result : Except ConnectionError Unit} (h : e.result? = some result) :
    e.Settled := by
  rw [Settled, point_of_result h]
  exact trivial

lemma awaits_step (hs : e.Sound) (he : e.Step events e') (hw : e.ctx.state.awaitsFinAck = true)
    (hk : e'.ctx.state.finAcked = false) : e'.ctx.state.awaitsFinAck = true := by
  have hsent : e.ctx.state.finSent = true := by
    rw [State.finSent_eq, hw, Bool.true_or]
  have hn := finsSent_step hs.coherent he
  rw [hsent] at hn
  have hsent' : e'.ctx.state.finSent = true := by
    cases hs : e'.ctx.state.finSent with
    | true => rfl
    | false =>
      rw [hs] at hn
      cases hn
  rwa [State.finSent_eq, hk, Bool.or_false] at hsent'

end Engine

namespace Machine

variable {π σ : Type} {P : Policy π} {H : Host σ} {config : Config} {isn : SeqNum} {role : Role}
  {opening t : Trace} {m₀ m : Machine π σ}

lemma step_noteAck {g : Segment} {rest : Signals} (hp : m.engine.point = .noteAck g rest) :
    m.step P H = some
      (⟨(m.engine.onAck g.header.ack).onContent g rest, P.onAck g.header.ack m.policy, m.host⟩,
        [.onAck g.header.ack]) := by
  rw [step, Engine.request, hp]

lemma awaits_cases (hc : m.engine.Closes t) (hs : m.engine.Sound)
    (hstrict : m.engine.config.acks = .strict) (hw : m.engine.ctx.state.awaitsFinAck = true) :
    (t.finAcks = [] ∧ ∀ m' events, m.step P H = some (m', events) →
        m'.engine.ctx.state.awaitsFinAck = true) ∨
      t.FirstFinAck ∧ ∃ m' events, m.step P H = some (m', events) ∧
        (m.engine.ctx.state, m'.engine.ctx.state) ∈
          [(State.finWait1, State.finWait2), (.closing, .timeWait), (.lastAck, .closed)] := by
  have hk : m.engine.ctx.state.finAcked = false := by
    cases hst : m.engine.ctx.state <;> first | rfl | (rw [hst] at hw; cases hw)
  cases hheld : m.engine.held with
  | nil =>
    left
    obtain ⟨-, hheard⟩ := hc
    rw [hheld, hk] at hheard
    refine ⟨by simpa using hheard, fun m' events hm => ?_⟩
    have he := step_engine hm
    exact Engine.awaits_step hs he hw (by rw [(hs.loopStep he).finAcked hheld, hk])
  | cons g more =>
    obtain ⟨u, c, rfl, harrived, hheard, hacks⟩ := hc.inHand hheld
    obtain ⟨rest, hp⟩ := Engine.point_of_held hheld
    have hnone : u.finAcks = [] := by
      rw [hk] at hheard
      simpa using hheard
    have hsent : m.engine.ctx.state.finSent = true := by
      rw [State.finSent_eq, hw, Bool.true_or]
    have hstate : ((m.engine.onAck g.header.ack).onContent g rest).ctx.state =
        if g.header.ack = m.engine.ctx.next then (m.engine.ctx.transition .recvAck).state
        else m.engine.ctx.state := by
      rw [Engine.state_onContent, Engine.state_onAck, hw, hstrict]
      simp [AckCheck.accepts]
    rw [hsent, hnone, Bool.true_and, List.nil_append] at hacks
    by_cases hack : g.header.ack = m.engine.ctx.next
    · right
      rw [if_pos (by simpa using hack)] at hacks
      refine ⟨⟨u, c, g, rfl, harrived, hnone, hacks⟩, _, _, step_noteAck hp, ?_⟩
      rw [hstate, if_pos hack, Context.transition]
      revert hw
      cases m.engine.ctx.state <;> simp [State.awaitsFinAck, State.next?]
    · left
      rw [if_neg (by simpa using hack)] at hacks
      refine ⟨hacks, fun m' events hm => ?_⟩
      rw [step_noteAck hp] at hm
      cases hm
      rw [hstate, if_neg hack]
      exact hw

lemma Opened.closes (h : m₀.Opened P H config isn role opening) (hstrict : config.acks = .strict)
    (hs : m₀.again.Steps P H t m) : m.engine.Sound ∧ m.engine.config = config ∧ m.engine.Closes t ∧
      (m.engine.result? = some (.ok ()) → t.Unbroken ∧ m.engine.ctx.done = true) := by
  obtain ⟨peer, hagain, -, hwait, hconfig, hsound⟩ := h.again
  obtain ⟨hsound, hconfig, hcloses, hended⟩ :
      m.engine.Sound ∧ m.engine.config = config ∧ m.engine.Closes t ∧
      ((∀ cause, m.engine.result? ≠ some (.error cause)) →
        t.Unbroken ∧ (m.engine.result? = some (.ok ()) → m.engine.ctx.done = true)) := by
    apply hs.keeps_loop
      (I := fun t e => e.config = config ∧ e.Closes t ∧
        ((∀ cause, e.result? ≠ some (.error cause)) →
          t.Unbroken ∧ (e.result? = some (.ok ()) → e.ctx.done = true))) hsound
    · refine ⟨hconfig, .of_established hagain hwait,
        fun _ => ⟨by simp [Trace.Unbroken], fun hr => ?_⟩⟩
      rw [Engine.result?, hwait] at hr
      cases hr
    · rintro t e events e' hs ⟨hc, ht, hu⟩ he
      have hl := hs.loopStep he
      refine ⟨(Engine.config_eq hl.fixed).trans hc, ht.step hs (hc ▸ hstrict) he,
        fun hok => ⟨?_, hl.done⟩⟩
      have hnone : ∀ cause, e.result? ≠ some (.error cause) := by
        intro cause hr
        exact Engine.stage_ne_finished he (Engine.stage_of_result (by rw [hr]; rfl))
      rcases hl.unbroken with hnew | ⟨cause, hfailed⟩
      · exact (hu hnone).1.append hnew
      · exact absurd hfailed (hok cause)
  refine ⟨hsound, hconfig, hcloses, fun hr => ?_⟩
  obtain ⟨hu, hd⟩ := hended (by simp [hr])
  exact ⟨hu, hd hr⟩

/-- With strict checks, a FIN is complete right after the first segment that acknowledges it, and a
control loop that ends well has received that segment and, if both sides have to close, a FIN that
it has acknowledged. -/
theorem loop_closes_strictly (h : m₀.Opened P H config isn role opening)
    (hstrict : config.acks = .strict) (hs : m₀.again.Steps P H t m) :
    (m.engine.ctx.state.awaitsFinAck = true →
      (t.finAcks = [] ∧ ∀ m' events, m.step P H = some (m', events) →
        m'.engine.ctx.state.awaitsFinAck = true) ∨
      t.FirstFinAck ∧ ∃ m' events, m.step P H = some (m', events) ∧
        (m.engine.ctx.state, m'.engine.ctx.state) ∈
          [(State.finWait1, State.finWait2), (.closing, .timeWait), (.lastAck, .closed)]) ∧
    (m.engine.ctx.state.finAcked = true → t.finAcks ≠ []) ∧
    (m.engine.result? = some (.ok ()) → t.fins.length = 1 ∧ t.finAcks ≠ [] ∧
      (config.teardown = .fourWay →
        ∃ g ∈ t.arrived, g.header.flags.fin = true ∧ t.Acknowledged (g.header.seq + 1) g)) := by
  obtain ⟨hsound, hconfig, hcloses, hended⟩ := h.closes hstrict hs
  refine ⟨awaits_cases hcloses hsound (hconfig ▸ hstrict), hcloses.finAcks_ne_nil, fun hr => ?_⟩
  obtain ⟨hu, hdone⟩ := hended hr
  have hlinked := hsound.linked (Engine.stage_of_result (by rw [hr]; rfl))
  have hover := hlinked.done.symm.trans hdone
  have hacked := State.finAcked_of_isOver hover
  refine ⟨?_, hcloses.finAcks_ne_nil hacked, fun hfour => ?_⟩
  · rw [hcloses.fins, State.finSent_eq, hacked, Bool.or_true]
    rfl
  · have hheard : m.engine.heardFin = true := by
      rw [hconfig, hfour] at hover
      rw [Engine.heardFin, hlinked.seen, State.finSeen_of_isOver hover, Bool.true_or]
    obtain ⟨peer, hctx, -, hwait, -, hstart⟩ := h.again
    obtain ⟨-, htracks, -⟩ := hs.tracks hstart (.of_established hctx hwait)
    obtain ⟨g, hg, hfin⟩ := Trace.exists_fin_of_lastFin? (htracks.ended hheard)
    exact ⟨g, hg, hfin, (h.answered hs hu (Engine.settled_of_result hr)).acknowledged g hg hfin⟩

def hesitant : Script where
  net := [Script.incoming .synAck 100 0xFFFFFFFF [], Script.incoming .ackOnly 101 0xFFFFFFFF [],
    Script.incoming .finOnly 101 0 [], Script.incoming .ackOnly 102 0 []]
  events := [.ok { closeRequested := true }, .ok .network, .ok .network]

def strictFourWay : Config where
  acks := .strict
  teardown := .fourWay

def hesitantOpening : Machine Unit Script × Trace :=
  run .inert Script.host 20 ⟨.handshake strictFourWay (.new 0xFFFFFFFE) .active, (), hesitant⟩

def hesitantLoop : Machine Unit Script × Trace :=
  hesitantOpening.1.again.run .inert Script.host 50

theorem loop_closes_strictly_hesitant :
    hesitantOpening.1.Opened .inert Script.host strictFourWay 0xFFFFFFFE .active hesitantOpening.2 ∧
      strictFourWay.acks = .strict ∧
      hesitantOpening.1.again.Steps .inert Script.host hesitantLoop.2 hesitantLoop.1 ∧
      hesitantLoop.1.engine.result? = some (.ok ()) ∧ Trace.fins hesitantLoop.2 = [0xFFFFFFFF] ∧
      Trace.finAcks hesitantLoop.2 ≠ [] ∧
      ∃ g ∈ Trace.arrived hesitantLoop.2, g.header.flags.fin = true ∧
        Trace.Acknowledged (g.header.seq + 1) g hesitantLoop.2 := by
  have hopened : hesitantOpening.1.Opened .inert Script.host strictFourWay 0xFFFFFFFE .active
      hesitantOpening.2 := ⟨⟨(), hesitant, steps_run _ _ 20 _⟩, by rfl⟩
  have hsteps : hesitantOpening.1.again.Steps .inert Script.host hesitantLoop.2 hesitantLoop.1 :=
    steps_run .inert Script.host 50 _
  have hended : hesitantLoop.1.engine.result? = some (.ok ()) := by
    decide +kernel
  obtain ⟨-, -, hclosed⟩ := loop_closes_strictly hopened rfl hsteps
  obtain ⟨-, hacks, hfour⟩ := hclosed hended
  exact ⟨hopened, rfl, hsteps, hended, by decide +kernel, hacks, hfour rfl⟩

end Machine

end DatagramStream
