import DatagramStream.Proofs.Pair.Opening

/-! Two sides that are to close do not wait for each other. -/

namespace DatagramStream

structure Party.Idle (x : Party) : Prop where
  held : x.engine.held = []
  heard : x.engine.heardFin = x.engine.ctx.peerFinSeen
  owed : x.engine.owed = {}
  waits : (x.engine.ctx.state.canSend = true ∧ x.app.closeRequested = false) ∨
    (x.engine.ctx.state.finSent = true ∧
      (x.engine.ctx.peerFinSeen = true → x.engine.ctx.state.awaitsFinAck = true))

structure Party.Done (x : Party) : Prop where
  result : x.engine.result? = some (.ok ())
  linked : x.engine.ctx.Linked x.engine.config.teardown
  done : x.engine.ctx.done = true
  heard : x.engine.heardFin = x.engine.ctx.peerFinSeen
  owed : x.engine.owed = {}

namespace Party

variable {s : Setup} {x : Party}

lemma Local.done_of_ended (hl : x.Local s) (he : x.engine.result?.isSome) : x.Done := by
  obtain ⟨⟨config, ctx, thenLoop, point⟩, app⟩ := x
  have hc := hl.coherent
  have hp := hl.poised
  have ht : thenLoop = true := hl.thenLoop_eq
  cases point with
  | ended result =>
    cases result with
    | error cause => exact hp.elim
    | ok u => exact ⟨rfl, hc.1, hc.2 ht, Bool.or_false _, rfl⟩
  | _ => cases he

namespace Done

lemma isOver (h : x.Done) : x.engine.ctx.state.isOver x.engine.config.teardown = true := by
  rw [← h.linked.done, h.done]

lemma finSent (h : x.Done) : x.engine.ctx.state.finSent = true := by
  have ho := h.isOver
  revert ho
  cases x.engine.ctx.state <;> simp [State.isOver, State.finSent]

lemma finAcked (h : x.Done) : x.engine.ctx.state.finAcked = true := by
  have ho := h.isOver
  revert ho
  cases x.engine.ctx.state <;> simp [State.isOver, State.finAcked]

end Done

end Party

def Setup.AwaitsFin (s : Setup) : Prop :=
  s.config.teardown = .fourWay ∨ s.closeRequested = false

namespace Party

variable {s : Setup} {x : Party}

lemma Done.seen (h : x.Done) (hl : x.Local s) (hs : s.AwaitsFin) :
    x.engine.ctx.peerFinSeen = true := by
  have ho := h.isOver
  have hf := hl.ledger.first
  rw [h.linked.seen]
  rw [hl.config_eq] at ho
  obtain ht | hn := hs
  · rw [ht] at ho
    revert ho
    cases x.engine.ctx.state <;> simp [State.isOver, State.finSeen]
  · rw [hn] at hf
    revert ho hf
    cases x.engine.ctx.state <;> simp [State.isOver, State.finSeen, State.closesFirst]

lemma idle_of_wait {e : Engine} {a : MemoryApp} (hc : (e.goto .wait).Coherent)
    (hr : (ready ⟨e.goto .wait, a⟩ e.interest false).isEmpty = true) : Idle ⟨e.goto .wait, a⟩ := by
  obtain ⟨hk, hd⟩ := hc
  change e.ctx.Linked e.config.teardown at hk
  refine ⟨rfl, Bool.or_false _, rfl, ?_⟩
  change (e.ctx.state.canSend = true ∧ a.closeRequested = false) ∨ (e.ctx.state.finSent = true ∧
    (e.ctx.peerFinSeen = true → e.ctx.state.awaitsFinAck = true))
  cases hs : e.ctx.state.canSend with
  | true =>
    left
    have hi : e.interest = .all := by simp [Engine.interest, hs]
    rw [hi] at hr
    refine ⟨rfl, ?_⟩
    by_contra hn
    rw [Bool.not_eq_false] at hn
    cases ho : a.outbound with
    | nil => simp [ready, hn, ho, Signals.all, Signals.isEmpty, Signals.empty] at hr
    | cons => simp [ready, hn, ho, Signals.all, Signals.isEmpty, Signals.empty] at hr
  | false =>
    right
    refine ⟨hk.finSent_of_not_canSend hs, fun hseen => ?_⟩
    have ho : e.ctx.state.isOver e.config.teardown = false := hk.done.symm.trans hd
    rw [hk.seen] at hseen
    revert hs hseen ho
    cases e.ctx.state <;> simp [State.canSend, State.finSeen, State.isOver, State.awaitsFinAck]

lemma Local.idle (hl : x.Local s) (hn : x.app.pending = none)
    (h : (∃ capacity next, x.engine.request = .receive capacity next) ∨
      ∃ interest next, x.engine.request = .wait interest next ∧
        (x.ready interest false).isEmpty = true) : x.Idle := by
  obtain ⟨⟨config, ctx, thenLoop, point⟩, app⟩ := x
  have hc := hl.coherent
  have hp := hl.poised
  cases point with
  | sendSyn | awaitSynAck | ackSynAck | awaitSyn | sendSynAck | awaitFirstAck => exact hp.elim
  | receive rest =>
    refine ⟨rfl, Bool.or_false _, rfl, .inr ?_⟩
    have hw : ctx.state.awaitsFinAck = true := by
      obtain ⟨-, hq | hw⟩ := hp
      · simp only at hn
        simp [hn] at hq
      · exact hw
    refine ⟨?_, fun _ => hw⟩
    revert hw
    simp only
    cases ctx.state <;> simp [State.awaitsFinAck, State.finSent]
  | wait =>
    obtain ⟨capacity, next, hr⟩ | ⟨interest, next, hr, hi⟩ := h
    · cases hr
    · cases hr
      exact idle_of_wait (e := ⟨config, ctx, thenLoop, .wait⟩) hc hi
  | _ =>
    obtain ⟨capacity, next, hr⟩ | ⟨interest, next, hr, -⟩ := h <;> cases hr

lemma Local.told (hl : x.Local s) (ho : x.engine.owed = {}) :
    x.app.peerClosedCalls = x.engine.ctx.peerFinSeen.toNat := by
  have ht := hl.ledger.told
  rwa [ho] at ht

end Party

namespace Running

variable {s : Role → Setup} {x : Role → Party} {w : Role → List Segment} {r : Role}

lemma seen_eq_finSent (h : Running s x w) (hh : (x r.other).engine.held = []) (hw : w r.other = [])
    (hq : (x r.other).engine.heardFin = (x r.other).engine.ctx.peerFinSeen) :
    (x r.other).engine.ctx.peerFinSeen = (x r).engine.ctx.state.finSent := by
  obtain ⟨p, hp, hf⟩ := h.stream r
  rw [hh, hw] at hf
  cases hf
  rw [← hq, ← hp.closed]
  rfl

lemma unasked (h : Running s x w)
    (hclose : (s r).closeRequested = true ∨ (s r).closeOnPeerFin = true) (hi : (x r).Idle)
    (hs : (x r).engine.ctx.state.finSent = false) :
    (s r).closeRequested = false ∧ (x r).engine.ctx.peerFinSeen = false := by
  obtain ⟨-, hc⟩ | ⟨hf, -⟩ := hi.waits
  · have hr := (h.own r).ledger.requested
    rw [hc, (h.own r).told hi.owed] at hr
    obtain ⟨hn, hp⟩ := Bool.or_eq_false_iff.mp hr.symm
    refine ⟨hn, ?_⟩
    by_contra hs
    have ho := hclose.resolve_left (by rw [hn]; simp)
    rw [(Bool.not_eq_false _).mp hs, ho] at hp
    cases hp
  · rw [hf] at hs
    cases hs

lemma unseen_of_awaits (h : Running s x w) (hshort : (s r).staged.length + 2 < 2 ^ 32)
    (hi : (x r).Idle) (he : w r = []) (ha : (x r).engine.ctx.state.awaitsFinAck = true) :
    (x r.other).engine.ctx.peerFinSeen = false := by
  by_contra hs
  rw [Bool.not_eq_false] at hs
  obtain ⟨g, hg, -⟩ := (h.acks r hshort).reply hs ha
  rw [hi.held, he] at hg
  cases hg

theorem done_of_stuck (h : Running s x w) (hshort : ∀ r, (s r).staged.length + 2 < 2 ^ 32)
    (hw : ∀ r, (s r).AwaitsFin)
    (hclose : ∀ r, (s r).closeRequested = true ∨ (s r).closeOnPeerFin = true)
    (hsome : ∃ r, (s r).closeRequested = true)
    (hstuck : ∀ r, (x r).Done ∨ ((x r).Idle ∧ w r = [])) (r : Role) : (x r).Done := by
  obtain hdone | ⟨hidle, hempty⟩ := hstuck r
  · exact hdone
  exfalso
  have hseen := h.seen_eq_finSent (r := r.other)
  rw [Role.other_other] at hseen
  have hseen := hseen hidle.held hempty hidle.heard
  -- The other side cannot have ended either, unless it has sent its FIN.
  have hother : (x r.other).engine.ctx.state.finSent = false →
      (x r.other).Idle ∧ w r.other = [] := by
    intro hf
    obtain hd | hi := hstuck r.other
    · rw [hd.finSent] at hf
      cases hf
    · exact hi
  cases hf : (x r).engine.ctx.state.finSent with
  | false =>
    obtain ⟨hr, hn⟩ := h.unasked (hclose r) hidle hf
    rw [hn] at hseen
    obtain ⟨hi, -⟩ := hother hseen.symm
    obtain ⟨ho, -⟩ := h.unasked (hclose r.other) hi hseen.symm
    obtain ⟨q, hq⟩ := hsome
    obtain rfl | rfl := Role.eq_or_eq_other r q
    · simp [hr] at hq
    · simp [ho] at hq
  | true =>
    -- The other side has taken in our FIN if it is idle.
    have hback : ∀ hi : (x r.other).Idle, w r.other = [] →
        (x r.other).engine.ctx.peerFinSeen = true := fun hi he =>
      (h.seen_eq_finSent hi.held he hi.heard).trans hf
    cases ha : (x r).engine.ctx.state.awaitsFinAck with
    | true =>
      have hunseen := h.unseen_of_awaits (hshort r) hidle hempty ha
      obtain hd | ⟨hi, he⟩ := hstuck r.other
      · rw [hd.seen (h.own _) (hw _)] at hunseen
        cases hunseen
      · rw [hback hi he] at hunseen
        cases hunseen
    | false =>
      have hn : (x r).engine.ctx.peerFinSeen = false := by
        obtain ⟨hs, -⟩ | ⟨-, hs⟩ := hidle.waits
        · rw [State.finSent_of_canSend hs] at hf
          cases hf
        · by_contra hc
          rw [hs (by simpa using hc)] at ha
          cases ha
      rw [hn] at hseen
      obtain ⟨hi, he⟩ := hother hseen.symm
      obtain ⟨-, hp⟩ := h.unasked (hclose r.other) hi hseen.symm
      rw [hback hi he] at hp
      cases hp

end Running

end DatagramStream
