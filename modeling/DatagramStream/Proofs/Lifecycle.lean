import DatagramStream.Proofs.Steps

/-! The state of a connection agrees with its cursors, its marks and the point of its engine,
whatever the surroundings answer. -/

namespace DatagramStream

def Signals.OnlyClose (s : Signals) : Prop :=
  s.appData = false ∧ s.networkData = false

namespace State

def isLinked : State → Bool
  | listen | synSent | synReceived => false
  | _ => true

def finSent : State → Bool
  | finWait1 | finWait2 | closing | timeWait | lastAck | closed => true
  | _ => false

def finAcked : State → Bool
  | finWait2 | timeWait | closed => true
  | _ => false

def finSeen : State → Bool
  | closeWait | lastAck | closing | timeWait | closed => true
  | _ => false

lemma finSent_of_canSend {state : State} (h : state.canSend = true) : state.finSent = false := by
  revert h
  cases state <;> simp [canSend, finSent]

lemma finSent_eq (state : State) : state.finSent = (state.awaitsFinAck || state.finAcked) := by
  cases state <;> rfl

def isOver (t : Teardown) : State → Bool
  | timeWait | closed => true
  | finWait2 => t == .awaitAck
  | _ => false

end State

namespace Context

def position (c : Context) : Nat :=
  1 + c.sent + c.state.finSent.toNat

structure Linked (c : Context) (t : Teardown) : Prop where
  state : c.state.isLinked = true
  next : c.next = c.isn + UInt32.ofNat c.position
  seen : c.peerFinSeen = c.state.finSeen
  done : c.done = c.state.isOver t

def established (isn peer : SeqNum) : Context :=
  { new isn with state := .established, next := isn + 1, expected := peer + 1 }

lemma linked_established (isn peer : SeqNum) (t : Teardown) : (established isn peer).Linked t :=
  ⟨rfl, rfl, rfl, rfl⟩

namespace Linked

variable {c : Context} {t : Teardown}

lemma finSent_of_not_canSend (h : c.Linked t) (hc : c.state.canSend = false) :
    c.state.finSent = true := by
  have hl := h.state
  revert hl hc
  cases c.state <;> simp [State.isLinked, State.canSend, State.finSent]

lemma canReceive_of_unseen (h : c.Linked t) (hs : c.peerFinSeen = false) :
    c.state.canReceive = true := by
  have hl := h.state
  rw [h.seen] at hs
  revert hl hs
  cases c.state <;> simp [State.isLinked, State.finSeen, State.canReceive]

lemma unseen_of_canReceive (h : c.Linked t) (hc : c.state.canReceive = true) :
    c.peerFinSeen = false := by
  rw [h.seen]
  revert hc
  cases c.state <;> simp [State.finSeen, State.canReceive]

lemma recordSent (h : c.Linked t) (payload : Nat) : (c.recordSent .ackOnly payload).Linked t := by
  refine ⟨h.state, ?_, h.seen, h.done⟩
  have hf : Flags.seqLen .ackOnly = 0 := rfl
  simp only [Context.recordSent, h.next, hf, UInt32.add_zero, position]
  rw [SeqNum.add_ofNat_add]
  congr 2
  omega

lemma recordDelivered (h : c.Linked t) (payload : Nat) : (c.recordDelivered payload).Linked t :=
  ⟨h.state, h.next, h.seen, h.done⟩

lemma sendFin (h : c.Linked t) (hs : c.state.canSend = true) :
    ((c.recordSent .finOnly 0).transition .sendFin).Linked t := by
  obtain ⟨state, isn, next, expected, done, seen, sent, received⟩ := c
  obtain ⟨hl, hn, hp, hd⟩ := h
  simp only at hl hn hp hd hs
  have hf : UInt32.ofNat 0 + Flags.seqLen .finOnly = UInt32.ofNat 1 := rfl
  cases state <;> simp only [State.canSend, Bool.false_eq_true] at hs
  all_goals
    refine ⟨rfl, ?_, hp, hd⟩
    simp only [Context.recordSent, transition, State.next?, Option.getD_some, hn, hf, position,
      State.finSent, SeqNum.add_ofNat_add, Bool.toNat_true, Bool.toNat_false, Nat.add_zero]

end Linked

end Context

namespace Engine

def Coherent (e : Engine) : Prop :=
  let linked := e.ctx.Linked e.config.teardown
  match e.point with
  | .sendSyn | .awaitSynAck => e.ctx = { Context.new e.ctx.isn with state := .synSent }
  | .awaitSyn => e.ctx = { Context.new e.ctx.isn with state := .listen }
  | .ackSynAck =>
    ∃ peer, e.ctx = { Context.established e.ctx.isn peer with state := .synSent }
  | .sendSynAck | .awaitFirstAck =>
    ∃ peer, e.ctx =
      { Context.established e.ctx.isn peer with state := .synReceived, next := e.ctx.isn }
  | .unblock (.ok ()) =>
    e.ctx.state = .established → ∃ peer, e.ctx = .established e.ctx.isn peer
  | .unblock (.error _) | .ended (.error _) => True
  | .ended (.ok ()) => linked ∧ (e.thenLoop = true → e.ctx.done = true)
  | .wait => linked ∧ e.ctx.done = false
  | .read rest | .sendData _ rest => linked ∧ e.ctx.state.canSend = true ∧ rest.appData = false
  | .sendFin => linked ∧ e.ctx.state.canSend = true
  | .deliver _ rest => linked ∧ e.ctx.state.canReceive = true ∧ rest.OnlyClose
  | .receive rest | .noteAck _ rest | .ackFin rest | .ackData rest => linked ∧ rest.OnlyClose
  | .tellPeerClosed rest =>
    e.closeIfTimeWait.ctx.Linked e.config.teardown ∧ e.ctx.peerFinSeen = true ∧ rest.OnlyClose
  | .collectDue | .resend _ _ => linked

variable {e e' : Engine} {events : List Event}

@[simp] lemma react_ctx (e : Engine) (rest : Signals) : (e.react rest).ctx = e.ctx := by
  rw [react]
  split_ifs <;> rfl

@[simp] lemma react_config (e : Engine) (rest : Signals) : (e.react rest).config = e.config := by
  rw [react]
  split_ifs <;> rfl

@[simp] lemma turn_ctx (e : Engine) : e.turn.ctx = e.ctx := rfl

lemma coherent_turn (h : e.ctx.Linked e.config.teardown) : e.turn.Coherent := by
  rw [turn]
  cases hd : e.ctx.done with
  | true => exact ⟨h, fun _ => hd⟩
  | false => exact ⟨h, hd⟩

lemma coherent_resending (h : e.ctx.Linked e.config.teardown) (datagrams : List Bytes) :
    (e.resending datagrams).Coherent := by
  cases datagrams with
  | nil => exact coherent_turn h
  | cons datagram more => exact h

lemma coherent_react (h : e.ctx.Linked e.config.teardown) (rest : Signals)
    (hs : rest.appData = true → e.ctx.state.canSend = true) : (e.react rest).Coherent := by
  rw [react]
  split_ifs with ha hn hc
  · exact ⟨h, hs ha, rfl⟩
  · exact ⟨h, by simpa using ha, rfl⟩
  · exact ⟨h, hc.2⟩
  · exact h

lemma coherent_react_onlyClose (h : e.ctx.Linked e.config.teardown) {rest : Signals}
    (hr : rest.OnlyClose) : (e.react rest).Coherent :=
  coherent_react h rest fun ha => by simp [hr.1] at ha

lemma linked_onFinAcked (h : e.ctx.Linked e.config.teardown)
    (hs : e.ctx.state.awaitsFinAck = true) :
    e.onFinAcked.ctx.Linked e.config.teardown := by
  obtain ⟨config, ⟨state, isn, next, expected, done, seen, sent, received⟩, thenLoop, point⟩ := e
  obtain ⟨hl, hn, hp, hd⟩ := h
  simp only at hl hn hp hd hs
  cases state <;> simp only [State.awaitsFinAck, Bool.false_eq_true] at hs
  all_goals
    refine ⟨rfl, hn, hp, ?_⟩
    simp [onFinAcked, Context.transition, State.next?, hd, State.isOver]

lemma linked_onAck (h : e.ctx.Linked e.config.teardown) (ack : SeqNum) :
    (e.onAck ack).ctx.Linked e.config.teardown := by
  rw [onAck]
  split_ifs with hc
  · simp only [Bool.and_eq_true] at hc
    exact linked_onFinAcked h hc.1
  · exact h

lemma coherent_onContent (h : e.ctx.Linked e.config.teardown) (s : Segment) {rest : Signals}
    (hr : rest.OnlyClose) : (e.onContent s rest).Coherent := by
  rw [onContent]
  split_ifs with hf hc
  · exact ⟨⟨h.state, h.next, h.seen, h.done⟩, hr⟩
  · simp only [Bool.and_eq_true] at hc
    exact ⟨h, hc.2, hr⟩
  · exact coherent_react_onlyClose h hr

lemma coherent_onSegment (h : e.ctx.Linked e.config.teardown) (s : Segment) {rest : Signals}
    (hr : rest.OnlyClose) : (e.onSegment s rest).Coherent := by
  rw [onSegment]
  split_ifs
  · exact ⟨h, hr⟩
  · exact coherent_onContent h s hr

lemma linked_closeIfTimeWait (h : e.ctx.Linked e.config.teardown) :
    e.closeIfTimeWait.ctx.Linked e.config.teardown := by
  rw [closeIfTimeWait]
  split_ifs with hs
  · refine ⟨h.state, h.next, h.seen, ?_⟩
    simp [hs, State.isOver]
  · exact h

@[simp] lemma closeIfTimeWait_config (e : Engine) : e.closeIfTimeWait.config = e.config := by
  rw [closeIfTimeWait]
  split_ifs <;> rfl

lemma linked_firstFin (h : e.ctx.Linked e.config.teardown) (hs : e.ctx.peerFinSeen = false)
    (p : Point) :
    (closeIfTimeWait ⟨e.config, { e.ctx with peerFinSeen := true }.transition .recvFin, e.thenLoop,
      p⟩).ctx.Linked e.config.teardown := by
  obtain ⟨config, ⟨state, isn, next, expected, done, seen, sent, received⟩, thenLoop, point⟩ := e
  obtain ⟨hl, hn, hp, hd⟩ := h
  simp only at hl hn hp hd hs
  subst hs
  cases state <;> simp only [State.isLinked, State.finSeen, Bool.false_eq_true] at hl hp
  all_goals
    refine ⟨rfl, hn, rfl, ?_⟩
    simp [closeIfTimeWait, Context.transition, State.next?, hd, State.isOver]

lemma coherent_onFinAnswered (h : e.ctx.Linked e.config.teardown) {rest : Signals}
    (hr : rest.OnlyClose) : (e.onFinAnswered rest).Coherent := by
  rw [onFinAnswered]
  split_ifs with hs
  · exact coherent_react_onlyClose (by simpa using linked_closeIfTimeWait h) hr
  · exact ⟨linked_firstFin h (by simpa using hs) _, rfl, hr⟩

lemma coherent_onReply (onSegment : Engine → Segment → Engine) (answer : Except IoError Bytes)
    (hs : e.ctx.state ≠ .established) (hn : ∀ s, (onSegment e s).Coherent) :
    (e.onReply onSegment answer).Coherent := by
  rw [onReply]
  cases e.arrival answer with
  | error cause => exact trivial
  | ok found =>
    cases found with
    | none => exact fun hc => absurd hc hs
    | some s => exact hn s

lemma coherent_onSuccess {α : Type} {next : α → Engine} (hn : ∀ a, (next a).Coherent)
    (outcome : Except IoError α) : (e.onSuccess next outcome).Coherent := by
  cases outcome with
  | error cause => exact trivial
  | ok a => exact hn a

lemma coherent_onOpening {next : Engine} (hn : next.Coherent) (outcome : Except IoError Unit) :
    (e.onOpening next outcome).Coherent := by
  cases outcome with
  | error cause => exact trivial
  | ok u => exact hn

lemma coherent_opened (h : e.ctx.state = .established → ∃ peer,
    e.ctx = .established e.ctx.isn peer) :
    (e.opened (.ok ())).Coherent := by
  rw [opened]
  split_ifs with hc ht
  all_goals try exact trivial
  all_goals
    obtain ⟨peer, hc⟩ := h hc
    have hl : e.ctx.Linked e.config.teardown := by
      rw [hc]
      exact Context.linked_established _ _ _
  · exact coherent_turn hl
  · exact ⟨hl, fun htrue => absurd htrue ht⟩

theorem coherent_step (h : e.Coherent) (hs : e.Step events e') : e'.Coherent := by
  obtain ⟨config, ctx, thenLoop, point⟩ := e
  cases point with
  | sendSyn =>
    obtain ⟨outcome, rfl⟩ := Request.Answered.of_transmit hs
    refine coherent_onOpening ?_ outcome
    exact h
  | awaitSynAck =>
    obtain ⟨outcome, -, rfl⟩ := hs
    change ctx = _ at h
    refine coherent_onReply _ _ (by rw [h]; simp) fun s => ?_
    rw [onSynAck]
    split_ifs
    · refine ⟨s.header.seq, ?_⟩
      rw [h]
      rfl
    · intro hc
      rw [h] at hc
      cases hc
  | ackSynAck =>
    obtain ⟨outcome, rfl⟩ := Request.Answered.of_transmit hs
    obtain ⟨peer, hc⟩ := h
    refine coherent_onOpening ?_ outcome
    intro _
    refine ⟨peer, ?_⟩
    simp only at hc
    rw [hc]
    rfl
  | awaitSyn =>
    obtain ⟨outcome, -, rfl⟩ := hs
    change ctx = _ at h
    refine coherent_onReply _ _ (by rw [h]; simp) fun s => ?_
    rw [onSyn]
    split_ifs
    · refine ⟨s.header.seq, ?_⟩
      rw [h]
      rfl
    · intro hc
      rw [h] at hc
      cases hc
  | sendSynAck =>
    obtain ⟨outcome, rfl⟩ := Request.Answered.of_transmit hs
    refine coherent_onOpening ?_ outcome
    exact h
  | awaitFirstAck =>
    obtain ⟨outcome, -, rfl⟩ := hs
    obtain ⟨peer, h⟩ := h
    simp only at h
    refine coherent_onReply _ _ (by rw [h]; simp) fun s => ?_
    rw [onFirstAck]
    split_ifs
    · refine fun _ => ⟨peer, ?_⟩
      rw [h]
      rfl
    · intro hc
      rw [h] at hc
      cases hc
  | unblock outcome =>
    obtain ⟨-, rfl⟩ := hs
    cases outcome with
    | error cause => exact trivial
    | ok u => exact coherent_opened h
  | wait =>
    obtain ⟨deadline, outcome, -, rfl⟩ := hs
    refine coherent_onSuccess (fun ready => coherent_react h.1 _ fun ha => ?_) outcome
    simp only [Signals.inter, interest, Bool.and_eq_true] at ha
    by_contra hc
    simp [hc, Signals.network] at ha
  | read rest =>
    obtain ⟨outcome, -, rfl⟩ := hs
    obtain ⟨hl, hc, hr⟩ := h
    refine coherent_onSuccess (fun data => ?_) outcome
    split_ifs
    · exact coherent_react hl rest fun _ => hc
    · exact ⟨hl, hc, hr⟩
  | sendData payload rest =>
    obtain ⟨outcome, rfl⟩ := Request.Answered.of_transmit hs
    obtain ⟨hl, hc, hr⟩ := h
    refine coherent_onSuccess (fun _ => ?_) outcome
    exact coherent_react (hl.recordSent _) rest fun _ => hc
  | receive rest =>
    obtain ⟨outcome, -, rfl⟩ := hs
    obtain ⟨hl, hr⟩ := h
    dsimp only
    split
    · exact trivial
    · exact coherent_react_onlyClose hl hr
    · exact coherent_onSegment hl _ hr
  | noteAck s rest =>
    obtain ⟨-, rfl⟩ := hs
    obtain ⟨hl, hr⟩ := h
    have hc : (onAck ⟨config, ctx, thenLoop, .noteAck s rest⟩ s.header.ack).config = config := by
      rw [onAck]
      split_ifs <;> rfl
    exact coherent_onContent (by rw [hc]; exact linked_onAck hl s.header.ack) s hr
  | ackFin rest =>
    obtain ⟨outcome, rfl⟩ := Request.Answered.of_transmit hs
    obtain ⟨hl, hr⟩ := h
    exact coherent_onSuccess (fun _ => coherent_onFinAnswered hl hr) outcome
  | tellPeerClosed rest =>
    obtain ⟨-, rfl⟩ := hs
    obtain ⟨hl, -, hr⟩ := h
    exact coherent_react_onlyClose (by simpa using hl) hr
  | deliver payload rest =>
    obtain ⟨outcome, -, rfl⟩ := hs
    obtain ⟨hl, -, hr⟩ := h
    refine coherent_onSuccess (fun _ => ?_) outcome
    exact ⟨hl.recordDelivered _, hr⟩
  | ackData rest =>
    obtain ⟨outcome, rfl⟩ := Request.Answered.of_transmit hs
    obtain ⟨hl, hr⟩ := h
    exact coherent_onSuccess (fun _ => coherent_react_onlyClose hl hr) outcome
  | sendFin =>
    obtain ⟨outcome, rfl⟩ := Request.Answered.of_transmit hs
    obtain ⟨hl, hc⟩ := h
    refine coherent_onSuccess (fun _ => ?_) outcome
    exact ⟨hl.sendFin hc, rfl, rfl⟩
  | collectDue =>
    obtain ⟨datagrams, -, rfl⟩ := hs
    exact coherent_resending h datagrams
  | resend datagram more =>
    obtain ⟨outcome, -, rfl⟩ := hs
    exact coherent_onSuccess (fun _ => coherent_resending h more) outcome
  | ended result => exact hs.elim

theorem coherent_run (config : Config) (isn : SeqNum) (role : Role) :
    (run config (.new isn) role).Coherent := by
  unfold run handshake
  cases config.validate with
  | error cause => exact trivial
  | ok u => cases role <;> rfl

end Engine

end DatagramStream
