import DatagramStream.Proofs.Steps

/-! A machine that is left to itself. -/

namespace DatagramStream

namespace Machine

variable {π σ : Type} {P : Policy π} {H : Host σ} {m m' m'' : Machine π σ} {t u : Trace}
  {events : List Event}

lemma iterate_past (m : Machine π σ) (fuel : Nat) (past : List Event) :
    m.iterate P H fuel past = ((m.iterate P H fuel []).1, (m.iterate P H fuel []).2 ++ past) := by
  induction fuel generalizing m past with
  | zero => rfl
  | succ fuel ih =>
    rw [iterate, iterate]
    cases m.step P H with
    | none => rfl
    | some next =>
      dsimp only
      rw [ih next.1 (next.2.reverse ++ past), ih next.1 (next.2.reverse ++ []), List.append_nil,
        List.append_assoc]

lemma run_succ (h : m.step P H = some (m', events)) (fuel : Nat) :
    m.run P H (fuel + 1) = ((m'.run P H fuel).1, events ++ (m'.run P H fuel).2) := by
  simp only [run, iterate, h, List.append_nil]
  rw [iterate_past, List.reverse_append, List.reverse_reverse]

lemma run_of_stuck (h : m.step P H = none) (fuel : Nat) : m.run P H fuel = (m, []) := by
  cases fuel with
  | zero => rfl
  | succ fuel => simp only [run, iterate, h, List.reverse_nil]

lemma run_keeps {I : Trace → Machine π σ → Prop}
    (hstep : ∀ {t m m' events}, I t m → m.step P H = some (m', events) → I (t ++ events) m')
    (hm : I t m) (fuel : Nat) : I (t ++ (m.run P H fuel).2) (m.run P H fuel).1 := by
  have hkept := iterate_keeps hstep hm (List.reverse_reverse t) fuel
  rw [iterate_past, List.reverse_append, List.reverse_reverse] at hkept
  exact hkept

lemma step_transmit {g : Segment} {next : Except IoError Unit → Engine}
    (h : m.engine.request = .transmit g next) :
    (∃ policy host, m.step P H = some (⟨next (.ok ()), policy, host⟩,
        [.send g.header.encode g.payload (.ok ()), .onSend g])) ∨
      ∃ cause host, m.step P H = some (⟨next (.error cause), m.policy, host⟩,
        [.send g.header.encode g.payload (.error cause)]) := by
  rw [step, h]
  cases hs : H.send g.header.encode g.payload m.host with
  | mk outcome host =>
    cases outcome with
    | ok u => exact .inl ⟨P.onSend g m.policy, host, by simp only [hs]⟩
    | error cause => exact .inr ⟨cause, host, by simp only [hs]⟩

lemma step_receive {capacity : Nat} {next : Except IoError Bytes → Engine}
    (h : m.engine.request = .receive capacity next) :
    m.step P H = none ∨ ∃ outcome host,
      m.step P H = some (⟨next outcome, m.policy, host⟩, [.receive capacity outcome]) := by
  rw [step, h]
  cases hr : H.receive capacity m.host with
  | none => exact .inl (by simp only [hr, Option.map_none])
  | some answer => exact .inr ⟨answer.1, answer.2, by simp only [hr, Option.map_some]⟩

inductive Runs (P : Policy π) (H : Host σ) : Machine π σ → Trace → Machine π σ → Prop
  | refl (m : Machine π σ) : Runs P H m [] m
  | step {m m' m'' : Machine π σ} {events : List Event} {t : Trace} :
      m.step P H = some (m', events) → Runs P H m' t m'' → Runs P H m (events ++ t) m''

namespace Runs

lemma single (h : m.step P H = some (m', events)) : Runs P H m events m' := by
  have hone := step h (.refl m')
  rwa [List.append_nil] at hone

lemma trans (h : Runs P H m t m') (hu : Runs P H m' u m'') : Runs P H m (t ++ u) m'' := by
  induction h with
  | refl => exact hu
  | step hs _ ih =>
    rw [List.append_assoc]
    exact step hs (ih hu)

lemma of_ended (h : Runs P H m t m') (hend : m.engine.result?.isSome) : t = [] ∧ m' = m := by
  cases h with
  | refl => exact ⟨rfl, rfl⟩
  | step hs _ =>
    rw [step_ended hend] at hs
    cases hs

lemma exists_fuel (h : Runs P H m t m') : ∃ fuel, m.run P H fuel = (m', t) := by
  induction h with
  | refl m => exact ⟨0, rfl⟩
  | step hs _ ih =>
    obtain ⟨fuel, hrun⟩ := ih
    exact ⟨fuel + 1, by rw [run_succ hs, hrun]⟩

lemma exists_run (h : Runs P H m t m') (hend : m'.engine.result?.isSome) :
    ∃ enough, ∀ fuel ≥ enough, m.run P H fuel = (m', t) := by
  induction h with
  | refl m => exact ⟨0, fun fuel _ => run_of_stuck (step_ended hend) fuel⟩
  | step hs _ ih =>
    obtain ⟨enough, hrun⟩ := ih hend
    refine ⟨enough + 1, fun fuel hfuel => ?_⟩
    obtain ⟨spare, rfl⟩ := Nat.exists_eq_add_of_le' hfuel
    have hrest := hrun (spare + enough) (Nat.le_add_left enough spare)
    rw [← Nat.add_assoc, run_succ hs, hrest]

end Runs

end Machine

end DatagramStream
