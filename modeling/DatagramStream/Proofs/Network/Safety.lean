import DatagramStream.Script
import DatagramStream.Proofs.Network.Listening
import Mathlib.Logic.Relation

/-! Two calls against each other, over a network that may lose, repeat, hold back and reorder
datagrams. -/

namespace DatagramStream

/-- Sends succeed, and what is received, if anything, is among the datagrams that have been sent,
cut to the buffer. -/
def Event.isLawful (sent : List Bytes) : Event → Bool
  | .send _ _ outcome => outcome.isOk
  | .receive capacity (.ok d) => d.isEmpty || sent.any fun x => d == x.take capacity
  | _ => true

/-- Two sides that never send anything again, and the calls that each of them has made. All that a
side has sent stays on the network. -/
structure Network (σ : Role → Type) where
  machine : ∀ r, Machine Unit (σ r)
  trace : Role → Trace

namespace Network

variable {σ : Role → Type}

def start (config : Role → Config) (isn : Role → SeqNum) (host : ∀ r, σ r) : Network σ where
  machine r := ⟨Engine.run (config r) (.new (isn r)) r, (), host r⟩
  trace _ := []

def advance (H : ∀ r, Host (σ r)) (n : Network σ) (r : Role) : Option (Network σ) :=
  ((n.machine r).step Policy.inert (H r)).bind fun (m, events) =>
    if events.all (Event.isLawful (Trace.datagrams (n.trace r.other))) then
      some ⟨Function.update n.machine r m, Function.update n.trace r (n.trace r ++ events)⟩
    else
      none

def surround (n : Network σ) (r : Role) (host : σ r) : Network σ :=
  { n with machine := Function.update n.machine r { n.machine r with host := host } }

inductive Step (H : ∀ r, Host (σ r)) (n : Network σ) : Network σ → Prop
  | side {r : Role} {n' : Network σ} : n.advance H r = some n' → Step H n n'
  | surroundings (r : Role) (host : σ r) : Step H n (n.surround r host)

structure Kept (isn : Role → SeqNum) (n : Network σ) : Prop where
  coherent : ∀ r, (n.machine r).engine.Coherent
  speaking : ∀ r, Speaking (isn r) (n.machine r).engine (n.trace r)
  listening : ∀ r, (Trace.read (n.trace r.other)).length < 2 ^ 32 →
    Listening (isn r.other) (n.machine r).engine (Trace.read (n.trace r.other))
      (Trace.written (n.trace r))

variable {H : ∀ r, Host (σ r)} {isn : Role → SeqNum} {n n' : Network σ}

lemma kept_start (config : Role → Config) (isn : Role → SeqNum) (host : ∀ r, σ r) :
    Kept isn (start config isn host) where
  coherent r := Engine.coherent_run (config r) (isn r) r
  speaking r := Speaking.start (config r) (isn r) r
  listening r _ := Listening.start (config r) (isn r.other) (isn r) r []

lemma kept_surround (h : n.Kept isn) (r : Role) (host : σ r) : (n.surround r host).Kept isn := by
  have he (q : Role) : ((n.surround r host).machine q).engine = (n.machine q).engine := by
    by_cases hq : q = r
    · subst hq
      simp [surround]
    · simp [surround, Function.update_of_ne hq]
  refine ⟨fun q => ?_, fun q => ?_, fun q hl => ?_⟩
  · rw [he]
    exact h.coherent q
  · rw [he]
    exact h.speaking q
  · rw [he]
    exact h.listening q hl

lemma due_of_inert {τ : Type} {H : Host τ} {m m' : Machine Unit τ} {events : List Event}
    {datagrams : List Bytes} (h : m.step Policy.inert H = some (m', events))
    (hd : Event.due datagrams ∈ events) : datagrams = [] := by
  have hs : m.engine.Step events m'.engine := Machine.step_engine h
  rw [Machine.step] at h
  rw [Engine.Step] at hs
  cases hr : m.engine.request with
  | collectDue next =>
    simp only [hr, Option.some.injEq, Prod.mk.injEq] at h
    obtain ⟨-, rfl⟩ := h
    cases List.mem_singleton.mp hd
    rfl
  | transmit g next =>
    rw [hr] at hs
    rcases hs with ⟨rfl, -⟩ | ⟨cause, rfl, -⟩
    · simp at hd
    · simp at hd
  | resend header payload next | receive capacity next | read limit next | write data next =>
    rw [hr] at hs
    obtain ⟨outcome, rfl, -⟩ := hs
    cases List.mem_singleton.mp hd
  | unblock next | peerClosed next | noteAck ack next =>
    rw [hr] at hs
    obtain ⟨rfl, -⟩ := hs
    cases List.mem_singleton.mp hd
  | wait interest next =>
    rw [hr] at hs
    obtain ⟨deadline, outcome, rfl, -⟩ := hs
    cases List.mem_singleton.mp hd
  | finished result => simp [hr] at h

lemma smooth_of_step {τ : Type} {H : Host τ} {m m' : Machine Unit τ} {events : List Event}
    {sent : List Bytes} (h : m.step Policy.inert H = some (m', events))
    (hl : events.all (Event.isLawful sent) = true) : ∀ c ∈ events, c.Smooth := by
  intro c hc
  have hlc := List.all_eq_true.mp hl c hc
  cases c with
  | send header payload outcome =>
    cases outcome with
    | ok u => rfl
    | error cause => cases hlc
  | due datagrams => exact due_of_inert h hc
  | _ => exact trivial

lemma from_of_lawful {data : Bytes} {peer : SeqNum} {sent : List Bytes} {c : Event}
    (hs : ∀ d ∈ sent, ∃ g : Segment, d = g.encode ∧ g.Of peer data)
    (hl : c.isLawful sent = true) : c.From peer data := by
  cases c with
  | receive capacity outcome =>
    cases outcome with
    | error cause => exact trivial
    | ok d =>
      simp only [Event.isLawful, Bool.or_eq_true, List.isEmpty_iff, List.any_eq_true,
        beq_iff_eq] at hl
      rcases hl with rfl | ⟨x, hx, rfl⟩
      · exact .inl rfl
      · obtain ⟨g, rfl, hg⟩ := hs x hx
        exact .inr ⟨g, hg, rfl⟩
  | _ => exact trivial

lemma kept_advance {r : Role} (h : n.Kept isn) (hs : n.advance H r = some n') : n'.Kept isn := by
  simp only [advance, Option.bind_eq_some_iff] at hs
  obtain ⟨⟨m, events⟩, hm, hs⟩ := hs
  split_ifs at hs with hl
  cases hs
  have he : (n.machine r).engine.Step events m.engine := Machine.step_engine hm
  have hspeak : Speaking (isn r) m.engine (n.trace r ++ events) :=
    (h.speaking r).step (h.coherent r) he (smooth_of_step hm hl)
  have hfrom : ∀ c ∈ events, c.From (isn r.other) (Trace.read (n.trace r.other)) := fun c hc =>
    from_of_lawful (h.speaking r.other).uttered (List.all_eq_true.mp hl c hc)
  refine ⟨fun q => ?_, fun q => ?_, fun q hq => ?_⟩
  · by_cases hqr : q = r
    · subst hqr
      simpa using Engine.coherent_step (h.coherent q) he
    · simpa [Function.update_of_ne hqr] using h.coherent q
  · by_cases hqr : q = r
    · subst hqr
      simpa using hspeak
    · simpa [Function.update_of_ne hqr] using h.speaking q
  · rcases Role.eq_or_eq_other r q with rfl | rfl
    · simp only [Function.update_of_ne (Role.other_ne q)] at hq
      have hnew := (h.listening q hq).step (h.coherent q) he hfrom hq
      simpa [Function.update_of_ne (Role.other_ne q)] using hnew
    · -- What the moving side has read can only have grown.
      simp only [Role.other_other, Function.update_self, Trace.read_append,
        List.length_append] at hq
      have hold := h.listening r.other (by rw [Role.other_other]; omega)
      simp only [Role.other_other] at hold
      simpa [Function.update_of_ne (Role.other_ne r)] using hold.mono (Trace.read events)

theorem kept_of_reaches {m : Network σ} (h : n.Kept isn) (hr : Relation.ReflTransGen (Step H) n m) :
    m.Kept isn := by
  induction hr with
  | refl => exact h
  | tail _ hs ih =>
    cases hs with
    | side hs => exact kept_advance ih hs
    | surroundings r host => exact kept_surround ih r host

/-- Whatever becomes of the datagrams on their way, what a side has handed to its application is at
the front of what the other side has taken from its own. -/
theorem written_isPrefix_read (config : Role → Config) (isn : Role → SeqNum) (host : ∀ r, σ r)
    (h : Relation.ReflTransGen (Step H) (start config isn host) n) (r : Role)
    (hl : (Trace.read (n.trace r.other)).length < 2 ^ 32) :
    Trace.written (n.trace r) <+: Trace.read (n.trace r.other) := by
  have hk := kept_of_reaches (kept_start config isn host) h
  exact (List.prefix_append _ _).trans (hk.listening r hl).front

lemma reaches_of_schedule (turns : List Role) (h : turns.foldlM (advance H) n = some n') :
    Relation.ReflTransGen (Step H) n n' := by
  induction turns generalizing n with
  | nil =>
    cases h
    exact .refl
  | cons r turns ih =>
    simp only [List.foldlM_cons, Option.bind_eq_bind, Option.bind_eq_some_iff] at h
    obtain ⟨m, hm, hn⟩ := h
    exact .head (.side hm) (ih hn)

def arriving (seq ack : SeqNum) (flags : Flags) (payload : Bytes) : Except IoError Bytes :=
  .ok (Segment.encode ⟨{ seq := seq, ack := ack, flags := flags, window := 3072 }, payload⟩)

def overtaken : Role → Script :=
  Role.pick
    { net := [arriving 5 0xFFFFFFFF .synAck []]
      app := [.ok [1, 2], .ok [3]]
      events := [.ok { appData := true }, .ok { appData := true }] }
    { net :=
        [arriving 0xFFFFFFFE 0 .synOnly [], arriving 0xFFFFFFFF 6 .ackOnly [],
          arriving 1 6 .ackOnly [3], arriving 0xFFFFFFFF 6 .ackOnly [1, 2],
          arriving 0xFFFFFFFF 6 .ackOnly [1, 2]]
      events := [.ok .network, .ok .network, .ok .network] }

theorem written_isPrefix_read_overtaken : ∃ n : Network fun _ => Script,
    Relation.ReflTransGen (Step fun _ => Script.host)
      (start (fun _ => {}) (Role.pick 0xFFFFFFFE 5) overtaken) n ∧
    Trace.written (n.trace .passive) = [1, 2] ∧ Trace.read (n.trace .active) = [1, 2, 3] ∧
    Trace.written (n.trace .passive) <+: Trace.read (n.trace .active) := by
  let turns : List Role := [.active, .passive, .passive] ++ List.replicate 10 .active ++
    List.replicate 16 .passive
  have hend : (turns.foldlM (advance fun _ => Script.host)
      (start (fun _ => {}) (Role.pick 0xFFFFFFFE 5) overtaken)).map
        (fun n => (Trace.written (n.trace .passive), Trace.read (n.trace .active))) =
      some ([1, 2], [1, 2, 3]) := by
    decide +kernel
  obtain ⟨n, hn, ht⟩ := Option.map_eq_some_iff.mp hend
  obtain ⟨hw, hr⟩ := Prod.mk.inj ht
  have h := reaches_of_schedule turns hn
  refine ⟨n, h, hw, hr, written_isPrefix_read _ _ _ h .passive ?_⟩
  rw [show Role.passive.other = .active from rfl, hr]
  decide

end Network

end DatagramStream
