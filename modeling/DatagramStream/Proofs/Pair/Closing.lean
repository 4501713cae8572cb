import DatagramStream.Proofs.Pair.Outcome

/-! Two connections over one link, in every order in which they can take their steps: they close,
and what one of them has sent has then been delivered by the other. -/

namespace DatagramStream

namespace Pair

variable {s : Role → Setup} {p q q' : Pair} {t u : List (Role × List Event)} {r : Role}

lemma step_ended (h : (p.party r).engine.result?.isSome) : p.step r = none := by
  have he : (p.machine r).engine = (p.party r).engine := by cases r <;> rfl
  rw [step_eq, Machine.step_ended (by rwa [he])]
  rfl

lemma Run.keeps_result (hvalid : ∀ r, (s r).config.validate = .ok ()) (h : (Pair.start s).Run t q)
    (hu : q.Run u q') {result : Except ConnectionError Unit}
    (hr : (q.party r).engine.result? = some result) :
    (q'.party r).engine.result? = some result := by
  induction hu with
  | start => exact hr
  | @step u q₁ q₂ r₁ hu hs ih =>
    obtain ⟨-, hother, -⟩ := step_moves (reached hvalid (h.trans hu)).isOpen hs
    obtain rfl | rfl := Role.eq_or_eq_other r₁ r
    · rw [step_ended (by rw [ih]; rfl)] at hs
      cases hs
    · rw [hother, ih]

lemma fins_of_run (hvalid : ∀ r, (s r).config.validate = .ok ()) (h : (start s).Run t q)
    (r : Role) :
    (q.party r).engine.Coherent ∧
      Trace.finsSent (trace t r) = (q.party r).engine.ctx.state.finSent.toNat ∧
      ((q.party r).engine.heardFin = true → 0 < Trace.finsReceived (trace t r)) := by
  induction h generalizing r with
  | start =>
    have hr : ((start s).party r).engine = Engine.run (s r).config (.new (s r).isn) r := by
      cases r <;> rfl
    rw [hr]
    refine ⟨Engine.coherent_run _ _ r, ?_, fun hh => ?_⟩
    · unfold Engine.run Engine.handshake
      rw [hvalid r]
      cases r <;> rfl
    · unfold Engine.run Engine.handshake at hh
      rw [hvalid r] at hh
      cases r <;> cases hh
  | @step t q q' r₁ h hs ih =>
    obtain ⟨-, hother, out, hm, -⟩ := step_moves (reached hvalid h).isOpen hs
    rw [trace_append]
    obtain rfl | rfl := Role.eq_or_eq_other r₁ r
    · obtain ⟨hc, hn, hh⟩ := ih r
      have he := hm.engine_step
      refine ⟨Engine.coherent_step hc he, ?_, fun hk => ?_⟩
      · rw [trace_self, Trace.finsSent_append, hn, Nat.add_comm]
        exact Engine.finsSent_step hc he
      · rw [trace_self, Trace.finsReceived_append]
        obtain hk | hk := Engine.heardFin_step he hk
        · exact Nat.add_pos_left (hh hk) _
        · exact Nat.add_pos_right _ hk
    · rw [trace_other, List.append_nil, hother]
      exact ih _

theorem Run.completes (hvalid : ∀ r, (s r).config.validate = .ok ()) (h : (Pair.start s).Run t q) :
    ∃ u q', q.Run u q' ∧ ∀ r, q'.step r = none := by
  have hbound {t : List (Role × List Event)} {q : Pair} (h : (Pair.start s).Run t q) :
      t.length ≤ 16 * ((s .active).staged.length + (s .passive).staged.length) + 46 := by
    obtain ⟨w, -, -, hc⟩ := (reached hvalid h).phase
    exact Nat.le_trans (Nat.le_add_right _ _) hc
  -- The induction is on the steps that are left under the bound.
  generalize hn : 16 * ((s .active).staged.length + (s .passive).staged.length) + 46 - t.length = n
  induction n generalizing t q with
  | zero =>
    refine ⟨[], q, .start, fun r => ?_⟩
    by_contra hs
    obtain ⟨q', hs⟩ := Option.ne_none_iff_exists'.mp hs
    have hb := hbound (h.step hs)
    rw [List.length_append, List.length_singleton] at hb
    omega
  | succ n ih =>
    by_cases hs : ∀ r, q.step r = none
    · exact ⟨[], q, .start, hs⟩
    · simp only [not_forall] at hs
      obtain ⟨r, hs⟩ := hs
      obtain ⟨q₁, hs⟩ := Option.ne_none_iff_exists'.mp hs
      obtain ⟨u, q', hu, hq⟩ := ih (h.step hs) (by
        rw [List.length_append, List.length_singleton]
        omega)
      exact ⟨_, q', (Run.step .start hs).trans hu, hq⟩

lemma Reached.finished_of_stuck {n : Nat} (h : Reached s n q)
    (hshort : ∀ r, (s r).staged.length + 2 < 2 ^ 32) (hw : ∀ r, (s r).AwaitsFin)
    (hclose : ∀ r, (s r).closeRequested = true ∨ (s r).closeOnPeerFin = true)
    (hsome : ∃ r, (s r).closeRequested = true) (hstuck : ∀ r, q.step r = none) :
    ∃ w, Running s q.party w ∧ ∀ r, (q.party r).Done ∧ (q.party r).Finished (s r) (s r.other) := by
  obtain ⟨w, hr, hidle⟩ := h.running_of_stuck hstuck
  have hd := hr.done_of_stuck hshort hw hclose hsome hidle
  exact ⟨w, hr, fun r => ⟨hd r, hr.finished hshort hw (hd r)⟩⟩

/-- Every order of steps is finite, none of them comes to a halt before both sides have ended, and
all of them have the same outcome. -/
theorem transfer_completes (hvalid : ∀ r, (s r).config.validate = .ok ())
    (hshort : ∀ r, (s r).staged.length < 2 ^ 32 - 2)
    (hteardown : (s .active).config.teardown = .fourWay)
    (hclose : (s .active).closeRequested = true) (hkeep : (s .passive).closeRequested = false)
    (hfollow : (s .passive).closeOnPeerFin = true) (h : (start s).Run t q) :
    t.length ≤ 16 * ((s .active).staged.length + (s .passive).staged.length) + 46 ∧
      (∃ u q', q.Run u q' ∧ ∀ r, q'.step r = none) ∧
      ((∀ r, q.step r = none) →
        (∀ r, (q.party r).Finished (s r) (s r.other) ∧
          (q.party r).engine.ctx.expected = (q.party r.other).engine.ctx.next ∧
          Trace.finsSent (trace t r) = 1) ∧
        (q.party .active).engine.ctx.state = .timeWait ∧
        (q.party .passive).engine.ctx.state = .closed) := by
  have hr := reached hvalid h
  refine ⟨?_, h.completes hvalid, fun hstuck => ?_⟩
  · obtain ⟨w, -, -, hc⟩ := hr.phase
    exact Nat.le_trans (Nat.le_add_right _ _) hc
  have hw : ∀ r, (s r).AwaitsFin := by
    intro r
    cases r
    · exact .inl hteardown
    · exact .inr hkeep
  obtain ⟨w, running, hfin⟩ := hr.finished_of_stuck (fun r => by have hs := hshort r; omega) hw
    (fun r => by
      cases r
      · exact .inl hclose
      · exact .inr hfollow) ⟨.active, hclose⟩ hstuck
  have hstates := running.states hw fun r => (hfin r).1
  have hp : (q.party .passive).engine.ctx.state = .closed := by
    obtain hk | ⟨hk, -⟩ := hstates .passive
    · have hf := (running.own .passive).ledger.first (by rw [hk]; rfl)
      rw [hkeep] at hf
      cases hf
    · exact hk
  refine ⟨fun r => ⟨(hfin r).2, ?_, ?_⟩, ?_, hp⟩
  · rw [(hfin r).2.ctx, (hfin r.other).2.ctx]
  · rw [(fins_of_run hvalid h r).2.1, (hfin r).1.finSent]
    rfl
  · obtain hk | ⟨-, hk⟩ := hstates .active
    · exact hk
    · rw [show Role.active.other = .passive from rfl, hp] at hk
      cases hk

def unequal : Role → Setup
  | .active =>
    { config := { mss := 2, acks := .strict, teardown := .fourWay }
      isn := 0xFFFFFFFE, staged := [1, 2, 3], closeRequested := true }
  | .passive =>
    { config := { mss := 7 }, isn := 5, staged := [4, 5], closeOnPeerFin := true }

theorem transfer_completes_unequal : ∃ t q, (start unequal).Run t q ∧ (∀ r, q.step r = none) ∧
    (q.party .passive).app.delivered = [1, 2, 3] ∧ (q.party .active).app.delivered = [4, 5] := by
  have hvalid : ∀ r, (unequal r).config.validate = .ok () := by
    intro r
    cases r <;> rfl
  obtain ⟨t, q, h, hstuck⟩ := Run.completes hvalid .start
  obtain ⟨-, -, hout⟩ :=
    transfer_completes hvalid (fun r => by cases r <;> decide) rfl rfl rfl rfl h
  exact ⟨t, q, h, hstuck, ((hout hstuck).1 .passive).1.delivered,
    ((hout hstuck).1 .active).1.delivered⟩

/-- Both sides close, each at once or after the other, and no order of steps keeps them from it. -/
theorem close_completes (hvalid : ∀ r, (s r).config.validate = .ok ())
    (hshort : ∀ r, (s r).staged.length < 2 ^ 32 - 2)
    (hteardown : ∀ r, (s r).config.teardown = .fourWay)
    (hclose : ∀ r, (s r).closeRequested = true ∨ (s r).closeOnPeerFin = true)
    (hsome : ∃ r, (s r).closeRequested = true) (h : (start s).Run t q) :
    t.length ≤ 16 * ((s .active).staged.length + (s .passive).staged.length) + 46 ∧
      ((∃ r, (q.party r).engine.result? = none) → ∃ r q', q.step r = some q') ∧
      (∀ r, (q.party r).engine.result?.isSome → 0 < Trace.finsReceived (trace t r)) ∧
      ((∀ r, (q.party r).engine.result?.isSome) →
        (∀ r, (q.party r).Finished (s r) (s r.other) ∧
          (q.party r).engine.ctx.expected = (q.party r.other).engine.ctx.next ∧
          Trace.finsSent (trace t r) = 1 ∧ (q.party r).app.peerClosedCalls = 1 ∧
          ((s r).Fits (s r.other).config → (q.party r.other).app.delivered = (s r).staged)) ∧
        ((q.party .active).engine.ctx.state, (q.party .passive).engine.ctx.state) ∈
          [(State.timeWait, State.closed), (.closed, .timeWait), (.timeWait, .timeWait)]) := by
  have hr := reached hvalid h
  have hshort : ∀ r, (s r).staged.length + 2 < 2 ^ 32 := fun r => by
    have hs := hshort r
    omega
  have hw : ∀ r, (s r).AwaitsFin := fun r => .inl (hteardown r)
  refine ⟨?_, fun ⟨r, hn⟩ => ?_, fun r he => ?_, fun he => ?_⟩
  · obtain ⟨w, -, -, hc⟩ := hr.phase
    exact Nat.le_trans (Nat.le_add_right _ _) hc
  · by_contra hs
    have hstuck : ∀ r, q.step r = none := fun r => by
      by_contra hk
      obtain ⟨q', hk⟩ := Option.ne_none_iff_exists'.mp hk
      exact hs ⟨r, q', hk⟩
    obtain ⟨w, -, hfin⟩ := hr.finished_of_stuck hshort hw hclose hsome hstuck
    rw [(hfin r).2.result] at hn
    cases hn
  · obtain ⟨hl, hd⟩ := hr.done_of_ended he
    exact (fins_of_run hvalid h r).2.2 (hd.heard.trans (hd.seen hl (hw r)))
  · obtain ⟨w, running, hfin⟩ :=
      hr.finished_of_stuck hshort hw hclose hsome fun r => step_ended (he r)
    have hstates := running.states hw fun r => (hfin r).1
    refine ⟨fun r => ⟨(hfin r).2, ?_, ?_, (hfin r).2.told, fun hf => ?_⟩, ?_⟩
    · rw [(hfin r).2.ctx, (hfin r.other).2.ctx]
    · rw [(fins_of_run hvalid h r).2.1, (hfin r).1.finSent]
      rfl
    · have hd := (hfin r.other).2.delivered
      rw [Role.other_other, Setup.arriving, if_pos hf] at hd
      exact hd
    · obtain ha | ⟨ha, hp⟩ := hstates .active
      · obtain hp | ⟨hp, -⟩ := hstates .passive
        · simp [ha, hp]
        · simp [ha, hp]
      · rw [show Role.active.other = .passive from rfl] at hp
        simp [ha, hp]

def simultaneous : Role → Setup
  | .active =>
    { config := { teardown := .fourWay }, isn := 0, staged := [1], closeRequested := true }
  | .passive =>
    { config := { acks := .strict, teardown := .fourWay }
      isn := 9, staged := [2, 3], closeRequested := true }

theorem close_completes_simultaneous : ∃ t q, (start simultaneous).Run t q ∧
    ∀ r, (q.party r).engine.result? = some (.ok ()) ∧ Trace.finsSent (trace t r) = 1 ∧
      (q.party r).app.peerClosedCalls = 1 := by
  have hvalid : ∀ r, (simultaneous r).config.validate = .ok () := by
    intro r
    cases r <;> rfl
  have hall {t : List (Role × List Event)} {q : Pair} := close_completes (t := t) (q := q) hvalid
    (fun r => by cases r <;> decide) (fun r => by cases r <;> rfl)
    (fun r => by cases r <;> exact .inl rfl) ⟨.active, rfl⟩
  obtain ⟨t, q, h, hstuck⟩ := Run.completes hvalid .start
  have hended : ∀ r, (q.party r).engine.result?.isSome := fun r => by
    by_contra hn
    obtain ⟨r', q', hs⟩ := (hall h).2.1 ⟨r, by simpa using hn⟩
    rw [hstuck r'] at hs
    cases hs
  refine ⟨t, q, h, fun r => ?_⟩
  obtain ⟨hfin, -, hn, ht, -⟩ := ((hall h).2.2.2 hended).1 r
  exact ⟨hfin.result, hn, ht⟩

/-- With strict checks, a call that has ended well means that all of its bytes have been delivered,
even if the peer has not ended, and that stays so. -/
theorem delivered_of_ok (hvalid : ∀ r, (s r).config.validate = .ok ())
    (hstrict : (s r).config.acks = .strict) (hshort : (s r).staged.length < 2 ^ 32 - 2)
    (hfits : (s r).Fits (s r.other).config) (h : (start s).Run t q)
    (hok : (q.party r).engine.result? = some (.ok ())) :
    (q.party r.other).app.delivered = (s r).staged ∧
      ∀ u q', q.Run u q' → (q'.party r.other).app.delivered = (s r).staged := by
  have hall {t : List (Role × List Event)} {q : Pair} (h : (start s).Run t q)
      (hok : (q.party r).engine.result? = some (.ok ())) :
      (q.party r.other).app.delivered = (s r).staged := by
    have hshort : (s r).staged.length + 2 < 2 ^ 32 := by omega
    obtain ⟨w, running, hs⟩ := (reached hvalid h).seen_of_strict (by rw [hok]; rfl) hstrict hshort
    obtain ⟨-, -, hd⟩ := running.given_of_seen hs hshort
    rw [hd, Setup.arriving, if_pos hfits]
  exact ⟨hall h hok, fun u q' hu => hall (h.trans hu) (Run.keeps_result hvalid h hu hok)⟩

theorem delivered_of_ok_unequal : ∃ t q, (start unequal).Run t q ∧
    (q.party .active).engine.result? = some (.ok ()) ∧
    (q.party .passive).app.delivered = [1, 2, 3] := by
  have hvalid : ∀ r, (unequal r).config.validate = .ok () := by
    intro r
    cases r <;> rfl
  obtain ⟨t, q, h, hstuck⟩ := Run.completes hvalid .start
  have hw : ∀ r, (unequal r).AwaitsFin := by
    intro r
    cases r
    · exact .inl rfl
    · exact .inr rfl
  obtain ⟨w, -, hfin⟩ := (reached hvalid h).finished_of_stuck (fun r => by cases r <;> decide) hw
    (fun r => by
      cases r
      · exact .inl rfl
      · exact .inr rfl) ⟨.active, rfl⟩ hstuck
  have hok := (hfin .active).2.result
  exact ⟨t, q, h, hok, (delivered_of_ok (r := .active) hvalid rfl (by decide) (by decide) h hok).1⟩

end Pair

end DatagramStream
