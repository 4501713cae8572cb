import DatagramStream.Proofs.Pair.Hearing

/-! The acknowledgment of a FIN: it is sent once the FIN has been seen, it cannot be taken for
another one, and it is not lost. -/

namespace DatagramStream

namespace State

def closesSecond : State → Bool
  | closeWait | lastAck | closed => true
  | _ => false

end State

def Setup.finAck (s : Setup) : SeqNum :=
  s.isn + UInt32.ofNat (s.staged.length + 2)

structure Acks (s : Setup) (e f : Engine) (w : List Segment) : Prop where
  genuine : ∀ g ∈ e.held ++ w, g.header.ack = s.finAck → f.ctx.peerFinSeen = true
  reply : f.ctx.peerFinSeen = true → e.ctx.state.awaitsFinAck = true →
    ∃ g ∈ e.held ++ w, g.header.flags.ack = true ∧ g.header.ack = s.finAck ∧ g.payload = []
  sure : s.config.acks = .strict → e.ctx.state.finAcked = true → f.ctx.peerFinSeen = true

namespace Party

variable {s t : Setup} {x x' : Party} {p : Place} {w w' v out : List Segment}

lemma Acts.state_cases (h : x.Acts w x' w' out) (hc : x.engine.Coherent) :
    x'.engine.ctx.state = x.engine.ctx.state ∨
    (∃ g ∈ x.engine.held, x.engine.ctx.state.awaitsFinAck = true ∧
      x.engine.config.acks.accepts g.header.ack x.engine.ctx.next = true ∧
      x'.engine.ctx.state = (x.engine.ctx.transition .recvAck).state) ∨
    (x.engine.heardFin = true ∧ x'.engine.ctx.state = (x.engine.ctx.transition .recvFin).state) ∨
    (x.engine.ctx.state.canSend = true ∧
      x'.engine.ctx.state = (x.engine.ctx.transition .sendFin).state) := by
  cases h with
  | unblock | read | deliver | collectDue => exact .inl rfl
  | wait | sendData | oversized | ackData =>
    left
    rw [Engine.react_ctx]
    rfl
  | receive e w rest =>
    refine .inl ?_
    rw [Engine.onSegment]
    split_ifs
    · rfl
    · exact Engine.state_onContent _ _ _
  | noteAck e a w g rest =>
    rw [Engine.state_onContent]
    rw [Engine.onAck]
    split_ifs with ha
    · simp only [Bool.and_eq_true] at ha
      exact .inr (.inl ⟨g, List.mem_singleton.mpr rfl, ha.1, ha.2, rfl⟩)
    · exact .inl rfl
  | ackFin e a w rest =>
    rw [Engine.onFinAnswered]
    split_ifs
    · refine .inl ?_
      rw [Engine.react_ctx]
      exact Engine.closeIfTimeWait_state e
    · exact .inr (.inr (.inl ⟨Bool.or_true _, rfl⟩))
  | tellPeerClosed e a w rest =>
    refine .inl ?_
    rw [Engine.react_ctx]
    exact Engine.closeIfTimeWait_state e
  | sendFin => exact .inr (.inr (.inr ⟨hc.2, rfl⟩))

lemma Acts.seen_cases (h : x.Acts w x' w' out) :
    x'.engine.ctx.peerFinSeen = x.engine.ctx.peerFinSeen ∨
      (x.engine.heardFin = true ∧ x'.engine.ctx.peerFinSeen = true ∧
        out = [x.engine.stamp .ackOnly []]) := by
  cases h with
  | unblock | read | deliver | collectDue | sendFin => exact .inl rfl
  | wait | sendData | oversized | ackData =>
    left
    rw [Engine.react_ctx]
    rfl
  | receive e w rest =>
    refine .inl ?_
    rw [Engine.onSegment, Engine.onContent]
    split_ifs <;> simp [Engine.goto]
  | noteAck e a w g rest =>
    refine .inl ?_
    rw [Engine.onContent]
    split_ifs <;> simp [Engine.goto]
  | ackFin e a w rest =>
    refine .inr ⟨Bool.or_true _, ?_, rfl⟩
    rw [Engine.onFinAnswered]
    split_ifs with hs
    · simpa using hs
    · rfl
  | tellPeerClosed e a w rest =>
    refine .inl ?_
    rw [Engine.react_ctx]
    exact Engine.closeIfTimeWait_seen e

lemma Acts.seen (h : x.Acts w x' w' out) (hs : x.engine.ctx.peerFinSeen = true) :
    x'.engine.ctx.peerFinSeen = true := by
  obtain hk | ⟨-, hk, -⟩ := h.seen_cases
  · rw [hk, hs]
  · exact hk

lemma Acts.stamped (h : x.Acts w x' w' out) {g : Segment} (hg : g ∈ out) :
    g.header.ack = x.engine.ctx.expected ∧
      (x.engine.heardFin = true → x'.engine.ctx.peerFinSeen = true) := by
  cases h with
  | unblock | wait | read | oversized | receive | noteAck | tellPeerClosed | deliver | collectDue =>
    simp at hg
  | sendData =>
    obtain rfl := List.mem_singleton.mp hg
    exact ⟨rfl, fun hh => by simpa [Engine.heardFin, Engine.goto, Context.recordSent] using hh⟩
  | ackFin e a w rest =>
    obtain rfl := List.mem_singleton.mp hg
    refine ⟨rfl, fun _ => ?_⟩
    rw [Engine.onFinAnswered]
    split_ifs with hs
    · simpa using hs
    · rfl
  | ackData =>
    obtain rfl := List.mem_singleton.mp hg
    exact ⟨rfl, fun hh => by simpa [Engine.heardFin, Engine.goto] using hh⟩
  | sendFin =>
    obtain rfl := List.mem_singleton.mp hg
    exact ⟨rfl, fun hh => by
      simpa [Engine.heardFin, Engine.goto, Context.recordSent, Context.transition] using hh⟩

lemma Acts.in_flight (h : x.Acts w x' w' out) :
    ∀ g ∈ x'.engine.held ++ w', g ∈ x.engine.held ++ w := by
  cases h with
  | unblock | read | deliver | sendFin => exact fun g hg => hg
  | wait | sendData | ackData | ackFin | tellPeerClosed | noteAck | collectDue =>
    exact fun g hg => List.mem_append_right _ (by simpa using hg)
  | oversized =>
    exact fun g hg => List.mem_append_right _ (List.mem_cons_of_mem _ (by simpa using hg))
  | receive e w rest =>
    intro g hg
    rw [Engine.onSegment] at hg
    split_ifs at hg
    · exact hg
    · exact List.mem_append_right _ (List.mem_cons_of_mem _ (by simpa using hg))

lemma Acts.kept (h : x.Acts w x' w' out) {g : Segment} (hm : g ∈ x.engine.held ++ w) :
    g ∈ x'.engine.held ++ w' ∨ g ∈ x.engine.held ∨
      x.engine.config.receiveCapacity ≤ g.encode.length ∨ g.header.flags.ack = false := by
  obtain hk | hg := List.mem_append.mp hm
  · exact .inr (.inl hk)
  cases h with
  | unblock | wait | read | sendData | noteAck | ackFin | tellPeerClosed | deliver | ackData
  | sendFin
  | collectDue => exact .inl (List.mem_append_right _ hg)
  | oversized a w rest large =>
    obtain rfl | hg := List.mem_cons.mp hg
    · exact .inr (.inr (.inl large))
    · exact .inl (List.mem_append_right _ hg)
  | receive a w rest fits =>
    obtain rfl | hg := List.mem_cons.mp hg
    · rw [Engine.onSegment]
      split_ifs with hf
      · exact .inl (List.mem_append_left _ (List.mem_singleton.mpr rfl))
      · exact .inr (.inr (.inr (by simpa using hf)))
    · exact .inl (List.mem_append_right _ hg)

lemma Acts.answered (h : x.Acts w x' w' out) {g : Segment} (hg : g ∈ x.engine.held)
    (hw : x.engine.ctx.state.awaitsFinAck = true)
    (hk : x.engine.config.acks.accepts g.header.ack x.engine.ctx.next = true) :
    x'.engine.ctx.state.awaitsFinAck = false := by
  cases h with
  | noteAck e a w k rest =>
    obtain rfl := List.mem_singleton.mp hg
    have hw : e.ctx.state.awaitsFinAck = true := hw
    have hk : e.config.acks.accepts g.header.ack e.ctx.next = true := hk
    rw [Engine.state_onContent, Engine.onAck, hw, hk, Bool.and_self, if_pos rfl]
    simp only [Engine.onFinAcked, Context.transition]
    revert hw
    cases e.ctx.state <;> simp [State.awaitsFinAck, State.next?]
  | _ => cases hg

lemma Local.next_of_held (hl : x.Local s) {g : Segment} (hg : g ∈ x.engine.held)
    (hw : x.engine.ctx.state.awaitsFinAck = true) : x.engine.ctx.next = s.finAck := by
  have hk : x.engine.ctx.Linked x.engine.config.teardown := by
    have hc := hl.coherent
    revert hg hc
    rw [Engine.held, Engine.Coherent]
    cases x.engine.point <;> simp
    exact fun _ hk _ => hk
  have hf : x.engine.ctx.state.finSent = true := by
    revert hw
    cases x.engine.ctx.state <;> simp [State.awaitsFinAck, State.finSent]
  rw [hk.next, hl.isn_eq, Context.position, hf, hl.ledger.complete hf,
    Setup.finAck, Bool.toNat_true]
  congr 2
  omega

end Party

namespace Acks

variable {s t : Setup} {x x' : Party} {e f : Engine} {p : Place} {w w' v out : List Segment}

lemma waiter (h : Acks s x.engine f w) (ha : x.Acts w x' w' out) (hl : x.Local s)
    (hs : f.ctx.peerFinSeen = true → x.engine.ctx.state.finSent = true) :
    Acks s x'.engine f w' := by
  have hcases := ha.state_cases hl.coherent
  refine ⟨fun g hg hk => h.genuine g (ha.in_flight g hg) hk, fun hseen hw => ?_,
    fun hstrict hf => ?_⟩
  · have hold : x.engine.ctx.state.awaitsFinAck = true := by
      obtain hc | ⟨-, -, hb, -⟩ | ⟨-, hc⟩ | ⟨hc, -⟩ := hcases
      · rwa [← hc]
      · exact hb
      · rw [hc] at hw
        revert hw
        simp only [Context.transition]
        cases x.engine.ctx.state <;> simp [State.awaitsFinAck, State.next?]
      · have hn := hs hseen
        simp [State.finSent_of_canSend hc] at hn
    obtain ⟨g, hg, h1, h2, h3⟩ := h.reply hseen hold
    obtain hg | hg | hg | hg := ha.kept hg
    · exact ⟨g, hg, h1, h2, h3⟩
    · have hn := hl.next_of_held hg hold
      rw [ha.answered hg hold (by rw [h2, hn]; exact AckCheck.accepts_self _ _)] at hw
      cases hw
    · have hr := Config.headerLength_lt_receiveCapacity x.engine.config
      rw [Segment.length_encode, h3, List.length_nil] at hg
      omega
    · simp [h1] at hg
  · obtain hc | ⟨g, hg, hb, hacc, hc⟩ | ⟨-, hc⟩ | ⟨hb, hc⟩ := hcases
    · exact h.sure hstrict (hc ▸ hf)
    · rw [hl.config_eq, hstrict, AckCheck.accepts, beq_iff_eq, hl.next_of_held hg hb] at hacc
      exact h.genuine g (List.mem_append_left _ hg) hacc
    · apply h.sure hstrict
      rw [hc] at hf
      revert hf
      simp only [Context.transition]
      cases x.engine.ctx.state <;> simp [State.finAcked, State.next?]
    · rw [hc] at hf
      revert hb hf
      simp only [Context.transition]
      cases x.engine.ctx.state <;> simp [State.canSend, State.finAcked, State.next?]

lemma acker (h : Acks s e x.engine w) (ha : x.Acts v x' w' out) (hh : x.Hears s p)
    (hs : s.staged.length + 2 < 2 ^ 32) : Acks s e x'.engine (w ++ out) := by
  have hx := (hh.exact hs).expected
  have hr : x.engine.ctx.received ≤ s.staged.length := by
    have hc := (hh.exact hs).count
    have hw := hh.within
    split_ifs at hc <;> omega
  refine ⟨fun g hg hk => ?_, fun hseen hw => ?_, fun hstrict hf => ha.seen (h.sure hstrict hf)⟩
  · rw [← List.append_assoc] at hg
    obtain hg | hg := List.mem_append.mp hg
    · exact ha.seen (h.genuine g hg hk)
    · obtain ⟨hn, hm⟩ := ha.stamped hg
      apply hm
      rw [← hh.closed]
      by_contra hc
      rw [if_neg hc] at hx
      rw [hn, hx, Setup.finAck, SeqNum.add_ofNat_inj _ (by omega) (by omega)] at hk
      omega
  · obtain hc | ⟨hheard, -, rfl⟩ := ha.seen_cases
    · obtain ⟨g, hg, hk⟩ := h.reply (hc ▸ hseen) hw
      exact ⟨g, by rw [← List.append_assoc]; exact List.mem_append_left _ hg, hk⟩
    · rw [hh.closed, hheard, if_pos rfl] at hx
      exact ⟨x.engine.stamp .ackOnly [], by simp, rfl, hx, rfl⟩

end Acks

end DatagramStream
