import DatagramStream.Proofs.Session.Loop
import DatagramStream.Script

/-! A connection over several calls: a handshake that has succeeded, and control loops after it. -/

namespace DatagramStream

namespace Event

def sentBytes : Event → Bytes
  | send _ payload (.ok ()) => payload
  | _ => []

def arrived? : Event → Option Segment
  | receive capacity (.ok d) => (Segment.ofBuffer capacity d).toOption
  | _ => none

def tellsPeerClosed : Event → Bool
  | peerClosed => true
  | _ => false

end Event

namespace Trace

variable {t u : Trace}

def sent (t : Trace) : Bytes :=
  t.flatMap Event.sentBytes

def arrived (t : Trace) : List Segment :=
  t.filterMap Event.arrived?

def closings (t : Trace) : Nat :=
  t.countP Event.tellsPeerClosed

@[simp] lemma sent_append (t u : Trace) : sent (t ++ u) = sent t ++ sent u :=
  List.flatMap_append

@[simp] lemma arrived_append (t u : Trace) : arrived (t ++ u) = arrived t ++ arrived u :=
  List.filterMap_append

lemma written_silent (hu : u.written = []) : written (t ++ u) = t.written := by
  rw [written_append, hu, List.append_nil]

@[simp] lemma closings_append (t u : Trace) : closings (t ++ u) = closings t + closings u :=
  List.countP_append

lemma arrived_of_bad {capacity : Nat} {d : Bytes} {cause : SegmentError}
    (h : Segment.ofBuffer capacity d = .error cause) :
    arrived [.receive capacity (.ok d)] = [] := by
  simp [arrived, Event.arrived?, h, Except.toOption]

lemma arrived_of_good {capacity : Nat} {d : Bytes} {g : Segment}
    (h : Segment.ofBuffer capacity d = .ok g) : arrived [.receive capacity (.ok d)] = [g] := by
  simp [arrived, Event.arrived?, h, Except.toOption]

def Each (Q : Trace → Event → Prop) (t : Trace) : Prop :=
  ∀ before c after, t = before ++ c :: after → Q before c

variable {Q : Trace → Event → Prop}

lemma each_nil : Each Q [] := by
  intro before c after h
  simp at h

lemma Each.concat {c : Event} (h : Each Q t) (hc : Q t c) : Each Q (t ++ [c]) := by
  intro before d after heq
  rcases List.eq_nil_or_concat after with rfl | ⟨after, x, rfl⟩
  · obtain ⟨rfl, hd⟩ := List.append_inj' heq rfl
    cases hd
    exact hc
  · rw [List.concat_eq_append, ← List.cons_append, ← List.append_assoc] at heq
    exact h before d after (List.append_inj_left' heq rfl)

lemma Each.append (h : Each Q t) (hq : ∀ before, ∀ c ∈ u, Q before c) : Each Q (t ++ u) := by
  induction u generalizing t with
  | nil =>
    rw [List.append_nil]
    exact h
  | cons c u ih =>
    rw [List.append_cons]
    apply ih (h.concat (hq t c List.mem_cons_self))
    intro before d hd
    exact hq before d (List.mem_cons_of_mem c hd)

lemma Each.transmitted {g : Segment} (h : Each Q t)
    (hs : Q t (.send g.header.encode g.payload (.ok ())))
    (hn : Q (t ++ [.send g.header.encode g.payload (.ok ())]) (.onSend g)) :
    Each Q (t ++ g.transmitted) := by
  have h2 := (h.concat hs).concat hn
  rwa [List.append_assoc] at h2

end Trace

namespace Machine

variable {π σ : Type}

/-- What a call has asked for up to some moment. Its surroundings may become others at any time. -/
inductive Steps (P : Policy π) (H : Host σ) (m : Machine π σ) : Trace → Machine π σ → Prop
  | refl : Steps P H m [] m
  | step {t : Trace} {m' m'' : Machine π σ} {events : List Event} :
      Steps P H m t m' → m'.step P H = some (m'', events) → Steps P H m (t ++ events) m''
  | surround {t : Trace} {m' : Machine π σ} (policy : π) (host : σ) :
      Steps P H m t m' → Steps P H m t ⟨m'.engine, policy, host⟩

def Opened (P : Policy π) (H : Host σ) (config : Config) (isn : SeqNum) (role : Role)
    (opening : Trace) (m : Machine π σ) : Prop :=
  (∃ policy host, Steps P H ⟨.handshake config (.new isn) role, policy, host⟩ opening m) ∧
    m.engine.result? = some (.ok ())

def again (m : Machine π σ) : Machine π σ :=
  { m with engine := .loop m.engine.config m.engine.ctx }

variable {P : Policy π} {H : Host σ} {m m' : Machine π σ} {t : Trace}

lemma Steps.keeps {I : Trace → Engine → Prop} (h : m.Steps P H t m') (start : I [] m.engine)
    (step : ∀ {t e events e'}, I t e → e.Step events e' → I (t ++ events) e') : I t m'.engine := by
  induction h with
  | refl => exact start
  | step _ hs ih => exact step ih (step_engine hs)
  | surround policy host _ ih => exact ih

theorem Steps.keeps_loop {I : Trace → Engine → Prop} (h : m.Steps P H t m') (hs : m.engine.Sound)
    (start : I [] m.engine)
    (step : ∀ {t e events e'}, e.Sound → I t e → e.Step events e' → I (t ++ events) e') :
    m'.engine.Sound ∧ I t m'.engine := by
  apply h.keeps (I := fun t e => e.Sound ∧ I t e) ⟨hs, start⟩
  rintro t e events e' ⟨hs, hi⟩ he
  exact ⟨hs.step he, step hs hi he⟩

lemma steps_iterate (h : m.Steps P H t m') {past : List Event} (hp : past.reverse = t)
    (fuel : Nat) :
    m.Steps P H (m'.iterate P H fuel past).2.reverse (m'.iterate P H fuel past).1 :=
  iterate_keeps .step h hp fuel

lemma steps_run (P : Policy π) (H : Host σ) (fuel : Nat) (m : Machine π σ) :
    m.Steps P H (m.run P H fuel).2 (m.run P H fuel).1 :=
  steps_iterate .refl rfl fuel

end Machine

/-- A connection whose handshake has asked for `opening` and succeeded, and the control loops after
it, each begun when the one before has ended, in whatever way. -/
inductive Session {π σ : Type} (P : Policy π) (H : Host σ) (config : Config) (isn : SeqNum)
    (role : Role) (opening : Trace) : Trace → Machine π σ → Prop
  | opened {m : Machine π σ} : m.Opened P H config isn role opening →
      Session P H config isn role opening [] m
  | loop {t u : Trace} {m m' : Machine π σ} :
      Session P H config isn role opening t m → m.engine.stage = .finished →
      m.again.Steps P H u m' →
        Session P H config isn role opening (t ++ u) m'

def Script.incoming (flags : Flags) (seq ack : SeqNum) (payload : Bytes) : Except IoError Bytes :=
  .ok (Segment.encode ⟨{ seq := seq, ack := ack, flags := flags }, payload⟩)

end DatagramStream
