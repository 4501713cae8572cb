import DatagramStream.Proofs.Pair.Acks

/-! Two sides past their handshake, and the invariant that each step of either one keeps. -/

namespace DatagramStream

variable {s : Role → Setup} {x x' : Role → Party} {w w' : Role → List Segment} {r : Role}

structure Running (s : Role → Setup) (x : Role → Party) (w : Role → List Segment) : Prop where
  own : ∀ r, (x r).Local (s r)
  stream : ∀ r, ∃ p, (x r.other).Hears (s r) p ∧
    (s r).Flow p ((x r.other).engine.held ++ w r.other) (x r).engine.ctx.place
  acks : ∀ r, (s r).staged.length + 2 < 2 ^ 32 →
    Acks (s r) (x r).engine (x r.other).engine (w r)
  order : ∀ r, (x r).engine.ctx.state.closesSecond = true →
    (x r.other).engine.ctx.state.closesFirst = true

structure Turned (r : Role) (x : Role → Party) (w : Role → List Segment) (x' : Role → Party)
    (w' : Role → List Segment) (out : List Segment) : Prop where
  acts : (x r).Acts (w r) (x' r) (w' r) out
  other : x' r.other = x r.other
  queue : w' r.other = w r.other ++ out

namespace State

lemma closesFirst_of_finSent {state : State} (hf : state.finSent = true)
    (hs : state.closesSecond = false) : state.closesFirst = true := by
  revert hf hs
  cases state <;> simp [finSent, closesSecond, closesFirst]

end State

lemma Party.Acts.closesFirst {x x' : Party} {w w' out : List Segment} (h : x.Acts w x' w' out)
    (hc : x.engine.Coherent) (hf : x.engine.ctx.state.closesFirst = true) :
    x'.engine.ctx.state.closesFirst = true := by
  obtain hk | ⟨-, -, -, -, hk⟩ | ⟨-, hk⟩ | ⟨hs, -⟩ := h.state_cases hc
  · rw [hk, hf]
  · rw [hk, Context.closesFirst_transition _ (.inl rfl), hf]
  · rw [hk, Context.closesFirst_transition _ (.inr rfl), hf]
  · revert hs hf
    cases x.engine.ctx.state <;> simp [State.canSend, State.closesFirst]

lemma Party.Acts.closesSecond {x x' : Party} {w w' out : List Segment} (h : x.Acts w x' w' out)
    (hc : x.engine.Coherent) (hs : x'.engine.ctx.state.closesSecond = true) :
    x.engine.ctx.state.closesSecond = true ∨
      (x.engine.heardFin = true ∧ x.engine.ctx.state.closesFirst = false) := by
  obtain hk | ⟨-, -, ha, -, hk⟩ | ⟨hh, hk⟩ | ⟨ha, hk⟩ := h.state_cases hc
  · exact .inl (hk ▸ hs)
  · left
    rw [hk] at hs
    revert hs ha
    simp only [Context.transition]
    cases x.engine.ctx.state <;> simp [State.awaitsFinAck, State.next?, State.closesSecond]
  · cases hf : x.engine.ctx.state.closesFirst with
    | false => exact .inr ⟨hh, rfl⟩
    | true =>
      left
      rw [hk] at hs
      revert hs hf
      simp only [Context.transition]
      cases x.engine.ctx.state <;> simp [State.closesFirst, State.next?, State.closesSecond]
  · left
    rw [hk] at hs
    revert hs ha
    simp only [Context.transition]
    cases x.engine.ctx.state <;> simp [State.canSend, State.next?, State.closesSecond]

namespace Running

variable {out : List Segment}

lemma finSent_of_heardFin (h : Running s x w) (hs : (x r.other).engine.heardFin = true) :
    (x r).engine.ctx.state.finSent = true := by
  obtain ⟨p, hp, hf⟩ := h.stream r
  exact hf.closed (hp.closed.trans hs)

lemma finSent_of_seen (h : Running s x w) (hs : (x r.other).engine.ctx.peerFinSeen = true) :
    (x r).engine.ctx.state.finSent = true :=
  h.finSent_of_heardFin (by simp [Engine.heardFin, hs])

lemma plain (h : Running s x w) (r : Role) : ∀ g ∈ w r, g.Plain := by
  obtain ⟨p, -, hf⟩ := h.stream r.other
  rw [Role.other_other] at hf
  exact fun g hg => hf.plain g (List.mem_append_right _ hg)

theorem step (h : Running s x w) (hv : ∀ r, (s r).config.validate = .ok ())
    (ht : Turned r x w x' w' out) (hc : (x' r).engine.Coherent) : Running s x' w' := by
  obtain ⟨ha, ho, hq⟩ := ht
  have hlocal := h.own r
  refine ⟨fun q => ?_, fun q => ?_, fun q hn => ?_, fun q hs => ?_⟩
  · obtain rfl | rfl := Role.eq_or_eq_other r q
    · exact hlocal.acts ha hc
    · rw [ho]
      exact h.own _
  · obtain rfl | rfl := Role.eq_or_eq_other r q
    · obtain ⟨p, hp, hf⟩ := h.stream q
      refine ⟨p, ho ▸ hp, ?_⟩
      rw [ho, hq, ← List.append_assoc]
      exact hf.append (ha.flow hlocal)
    · obtain ⟨p, hp, hf⟩ := h.stream r.other
      rw [Role.other_other] at hp hf
      rw [Role.other_other, ho]
      exact ha.hears hlocal (hv r) hp hf
  · obtain rfl | rfl := Role.eq_or_eq_other r q
    · rw [ho]
      exact (h.acks q hn).waiter ha hlocal h.finSent_of_seen
    · obtain ⟨p, hp, -⟩ := h.stream r.other
      have hk := h.acks r.other hn
      rw [Role.other_other] at hp hk
      rw [Role.other_other, ho, hq]
      exact hk.acker ha hp hn
  · obtain rfl | rfl := Role.eq_or_eq_other r q
    · rw [ho]
      obtain hb | ⟨hh, hf⟩ := ha.closesSecond hlocal.coherent hs
      · exact h.order q hb
      · have hfin := h.finSent_of_heardFin (r := q.other) (by rwa [Role.other_other])
        apply State.closesFirst_of_finSent hfin
        by_contra hc
        have hb := h.order q.other (by simpa using hc)
        rw [Role.other_other, hf] at hb
        cases hb
    · rw [ho] at hs
      have hb := h.order r.other hs
      rw [Role.other_other] at hb ⊢
      exact ha.closesFirst hlocal.coherent hb

end Running

end DatagramStream
