import DatagramStream.Proofs.Frame
import DatagramStream.Proofs.Pair.Moves

/-! Runs of two connections against each other: every order in which the sides can take their steps.
-/

namespace DatagramStream

namespace Pair

def start (s : Role → Setup) : Pair where
  active := (s .active).party .active
  passive := (s .passive).party .passive

def party (p : Pair) : Role → Party
  | .active => p.active
  | .passive => p.passive

def queue (p : Pair) : Role → List Bytes
  | .active => p.link.toA.queue
  | .passive => p.link.toB.queue

def inbox (p : Pair) (r : Role) : List Bytes :=
  (p.party r).inbox (p.queue r)

def machine (p : Pair) : Role → Machine Unit MemoryHost
  | .active => ⟨p.active.engine, (), { link := p.link, app := p.active.app }⟩
  | .passive => ⟨p.passive.engine, (), { link := p.link.swap, app := p.passive.app }⟩

def after (p : Pair) (m : Machine Unit MemoryHost) : Role → Pair
  | .active => { p with link := m.host.link, active := ⟨m.engine, m.host.app⟩ }
  | .passive => { p with link := m.host.link.swap, passive := ⟨m.engine, m.host.app⟩ }

def events (p : Pair) (r : Role) : List Event :=
  ((p.machine r).step Policy.inert MemoryHost.host).elim [] Prod.snd

/-- Steps of either side in any order, with the calls that each one makes. -/
inductive Run (p : Pair) : List (Role × List Event) → Pair → Prop
  | start : Run p [] p
  | step {t : List (Role × List Event)} {q q' : Pair} {r : Role} :
      Run p t q → q.step r = some q' → Run p (t ++ [(r, q.events r)]) q'

def trace (t : List (Role × List Event)) (r : Role) : Trace :=
  t.flatMap fun (q, events) => if q = r then events else []

def IsOpen (p : Pair) : Prop :=
  p.link = ⟨{ queue := p.queue .active }, { queue := p.queue .passive }⟩

variable {p q q' : Pair} {r : Role} {t u : List (Role × List Event)}

lemma isOpen_start (s : Role → Setup) : (start s).IsOpen :=
  rfl

lemma Run.trans (h : p.Run t q) (hu : q.Run u q') : p.Run (t ++ u) q' := by
  induction hu with
  | start => rwa [List.append_nil]
  | step _ hs ih => rw [← List.append_assoc]; exact ih.step hs

lemma trace_append (r : Role) : trace (t ++ u) r = trace t r ++ trace u r :=
  List.flatMap_append

@[simp] lemma trace_self (r : Role) (events : List Event) : trace [(r, events)] r = events := by
  simp [trace]

@[simp] lemma trace_other (r : Role) (events : List Event) : trace [(r, events)] r.other = [] := by
  simp [trace, (Role.other_ne r).symm]

lemma step_eq (p : Pair) (r : Role) :
    p.step r = ((p.machine r).step Policy.inert MemoryHost.host).map fun (m, _) => p.after m r := by
  cases r <;> rfl

lemma machine_of_isOpen (h : p.IsOpen) (r : Role) :
    p.machine r = (p.party r).machine (p.queue r) (p.queue r.other) := by
  obtain ⟨link, active, passive⟩ := p
  change link = _ at h
  cases r <;> simp only [machine] <;> rw [h] <;> rfl

lemma step_none (ho : p.IsOpen) (h : p.step r = none) :
    (p.party r).engine.result?.isSome ∨ p.inbox r = [] ∧
      ((∃ capacity next, (p.party r).engine.request = .receive capacity next) ∨
        ∃ interest next, (p.party r).engine.request = .wait interest next ∧
          ((p.party r).ready interest false).isEmpty = true) := by
  rw [step_eq, Option.map_eq_none_iff, machine_of_isOpen ho] at h
  exact Party.step_none h

theorem step_moves (ho : p.IsOpen) (h : p.step r = some q) :
    q.IsOpen ∧ q.party r.other = p.party r.other ∧
      ∃ out, (p.party r).Moves (p.inbox r) (p.events r) (q.party r) (q.inbox r) out ∧
        q.inbox r.other = p.inbox r.other ++ out := by
  rw [step_eq, Option.map_eq_some_iff] at h
  obtain ⟨⟨m, events⟩, hs, rfl⟩ := h
  have he : p.events r = events := by rw [Pair.events, hs]; rfl
  rw [machine_of_isOpen ho] at hs
  obtain ⟨x', incoming', out, rfl, hx⟩ := Party.step_moves hs
  rw [he]
  cases r with
  | active => exact ⟨rfl, rfl, out, hx, (List.append_assoc _ _ _).symm⟩
  | passive => exact ⟨rfl, rfl, out, hx, (List.append_assoc _ _ _).symm⟩

end Pair

end DatagramStream
