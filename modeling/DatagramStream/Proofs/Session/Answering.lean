import DatagramStream.Proofs.Session.Acknowledging

/-! Without failures, a control loop answers the segments that it delivers and those with a FIN,
each once, and nothing else. -/

namespace DatagramStream

namespace Event

def ack? : Event → Option SeqNum
  | send header payload (.ok ()) =>
    match Segment.parse (header ++ payload) with
    | .ok g => if g.header.flags = .ackOnly ∧ g.payload = [] then some g.header.ack else none
    | .error _ => none
  | _ => none

def delivers : Event → Bool
  | write _ (.ok ()) => true
  | _ => false

def isFault : Event → Bool
  | send _ _ (.error _) | resend _ _ (.error _) | receive _ (.error _) => true
  | read _ (.error _) | write _ (.error _) | wait _ _ (.error _) => true
  | _ => false

def fault? : Event → Option IoError
  | send _ _ (.error io) | resend _ _ (.error io) | receive _ (.error io) => some io
  | read _ (.error io) | write _ (.error io) | wait _ _ (.error io) => some io
  | _ => none

def isAside : Event → Bool
  | send _ _ (.ok ()) | write _ (.ok ()) => false
  | receive _ (.ok d) => d.isEmpty
  | _ => true

lemma ack?_send {g : Segment} (hp : g.Plain) : (send g.header.encode g.payload (.ok ())).ack? =
    if g.header.flags = .ackOnly ∧ g.payload = [] then some g.header.ack else none := by
  have hg : Segment.parse (g.header.encode ++ g.payload) = .ok g := Segment.parse_encode hp
  simp only [ack?, hg]

end Event

namespace Segment

def noted (g : Segment) : List Event :=
  if g.header.flags.ack then [.onAck g.header.ack] else []

def IsOwn (g : Segment) : Prop :=
  g.header.flags = .ackOnly ∧ g.payload ≠ [] ∨ g.header.flags = .finOnly ∧ g.payload = []

structure Acks (reply : Segment) (number : SeqNum) : Prop where
  plain : reply.Plain
  flags : reply.header.flags = .ackOnly
  payload : reply.payload = []
  ack : reply.header.ack = number

end Segment

namespace Trace

variable {t u v : Trace} {first : SeqNum} {g reply : Segment}

def acks (t : Trace) : List SeqNum :=
  t.filterMap Event.ack?

def acked (first : SeqNum) (t : Trace) : SeqNum :=
  t.acks.getLast?.getD first

def deliveries (t : Trace) : Nat :=
  t.countP Event.delivers

def finsHeard (t : Trace) : Nat :=
  t.arrived.countP fun g => g.header.flags.fin

def Unbroken (t : Trace) : Prop :=
  ∀ c ∈ t, c.isFault = false

def Hears (t : Trace) (g : Segment) (u : Trace) : Prop :=
  ∃ capacity d, Segment.ofBuffer capacity d = .ok g ∧
    u = t ++ [.receive capacity (.ok d)] ++ g.noted

/-- Each segment that comes in is answered at once if it has a FIN or is delivered, and is passed
over otherwise. What else goes out repeats the last answer. -/
inductive Answered (first : SeqNum) : Trace → Prop
  | start : Answered first []
  | aside {t : Trace} {c : Event} : Answered first t → c.isAside = true → Answered first (t ++ [c])
  | own {t : Trace} {g : Segment} : Answered first t → g.Plain → g.IsOwn →
      g.header.ack = t.acked first → Answered first (t ++ g.transmitted)
  | drop {t : Trace} {capacity : Nat} {d : Bytes} {cause : SegmentError} : Answered first t →
      Segment.ofBuffer capacity d = .error cause → Answered first (t ++ [.receive capacity (.ok d)])
  | pass {t u : Trace} {g : Segment} : Answered first t → t.Hears g u → g.header.flags.fin = false →
      Answered first u
  | deliver {t u : Trace} {g reply : Segment} : Answered first t → t.Hears g u →
      g.header.flags.fin = false → g.payload ≠ [] → g.header.seq = t.acked first →
      reply.Acks (g.header.seq + UInt32.ofNat g.payload.length) →
      Answered first (u ++ [.write g.payload (.ok ())] ++ reply.transmitted)
  | fin {t u : Trace} {g reply : Segment} : Answered first t → t.Hears g u →
      g.header.flags.fin = true → reply.Acks (g.header.seq + 1) →
      Answered first (u ++ reply.transmitted)

@[simp] lemma acks_append (t u : Trace) : acks (t ++ u) = acks t ++ acks u :=
  List.filterMap_append

@[simp] lemma deliveries_append (t u : Trace) : deliveries (t ++ u) = deliveries t + deliveries u :=
  List.countP_append

lemma acked_silent (h : u.acks = []) : acked first (t ++ u) = acked first t := by
  rw [acked, acks_append, h, List.append_nil, acked]

lemma acked_of_acks {number : SeqNum} (h : u.acks = [number]) : acked first (t ++ u) = number := by
  rw [acked, acks_append, h, List.getLast?_concat, Option.getD_some]

lemma arrived_aside {c : Event} (h : c.isAside = true) : arrived [c] = [] := by
  cases c with
  | receive capacity outcome =>
    cases outcome with
    | error cause => rfl
    | ok d =>
      obtain rfl : d = [] := List.isEmpty_iff.mp h
      exact (Engine.arrived_of_failure rfl).1
  | _ => rfl

lemma aside_quiet {c : Event} (h : c.isAside = true) :
    acks [c] = [] ∧ deliveries [c] = 0 ∧ finsHeard [c] = 0 := by
  have hf : finsHeard [c] = 0 := by
    rw [finsHeard, arrived_aside h]
    rfl
  cases c with
  | send header payload outcome | write data outcome =>
    cases outcome with
    | ok u => cases h
    | error cause => exact ⟨rfl, rfl, hf⟩
  | _ => exact ⟨rfl, rfl, hf⟩

lemma acks_transmitted (hp : g.Plain) : acks g.transmitted =
    if g.header.flags = .ackOnly ∧ g.payload = [] then [g.header.ack] else [] := by
  have hs := Event.ack?_send hp
  rw [acks, Segment.transmitted]
  split_ifs at hs ⊢
  · rw [List.filterMap_cons_some hs]
    rfl
  · rw [List.filterMap_cons_none hs]
    rfl

lemma acks_own (hp : g.Plain) (h : g.IsOwn) : acks g.transmitted = [] := by
  rw [acks_transmitted hp, if_neg]
  rintro ⟨hf, hn⟩
  rcases h with ⟨-, hs⟩ | ⟨hfin, -⟩
  · exact hs hn
  · rw [hfin] at hf
    cases hf

lemma acks_reply {number : SeqNum} (h : reply.Acks number) : acks reply.transmitted = [number] := by
  rw [acks_transmitted h.plain, if_pos ⟨h.flags, h.payload⟩, h.ack]

lemma quiet_noted (g : Segment) : acks g.noted = [] ∧ arrived g.noted = [] ∧
    deliveries g.noted = 0 := by
  rw [Segment.noted]
  split_ifs <;> exact ⟨rfl, rfl, rfl⟩

namespace Hears

lemma acks (h : t.Hears g u) : u.acks = t.acks := by
  obtain ⟨capacity, d, -, rfl⟩ := h
  rw [acks_append, acks_append, (quiet_noted g).1, List.append_nil]
  exact List.append_nil _

lemma deliveries (h : t.Hears g u) : u.deliveries = t.deliveries := by
  obtain ⟨capacity, d, -, rfl⟩ := h
  rw [deliveries_append, deliveries_append, (quiet_noted g).2.2]
  rfl

lemma arrived (h : t.Hears g u) : u.arrived = t.arrived ++ [g] := by
  obtain ⟨capacity, d, good, rfl⟩ := h
  rw [arrived_append, arrived_append, arrived_of_good good, (quiet_noted g).2.1, List.append_nil]

lemma split (h : t.Hears g u) : ∃ v, u = t ++ v ∧ Trace.arrived v = [g] := by
  have ha := h.arrived
  obtain ⟨capacity, d, -, rfl⟩ := h
  rw [List.append_assoc, arrived_append] at ha
  exact ⟨_, List.append_assoc _ _ _, List.append_cancel_left ha⟩

lemma finsHeard (h : t.Hears g u) : u.finsHeard = t.finsHeard + g.header.flags.fin.toNat := by
  rw [Trace.finsHeard, h.arrived, List.countP_append, Trace.finsHeard, List.countP_singleton]
  cases g.header.flags.fin <;> rfl

lemma of_receive {capacity : Nat} {d : Bytes} (good : Segment.ofBuffer capacity d = .ok g)
    (h : g.header.flags.ack = false) : t.Hears g (t ++ [.receive capacity (.ok d)]) := by
  refine ⟨capacity, d, good, ?_⟩
  simp [Segment.noted, h]

lemma of_noteAck {capacity : Nat} {d : Bytes} (good : Segment.ofBuffer capacity d = .ok g)
    (h : g.header.flags.ack = true) :
    t.Hears g (t ++ [.receive capacity (.ok d)] ++ [.onAck g.header.ack]) := by
  refine ⟨capacity, d, good, ?_⟩
  simp [Segment.noted, h]

end Hears

def Acknowledged (number : SeqNum) (g : Segment) (t : Trace) : Prop :=
  ∃ u c v, t = u ++ c :: v ∧ g ∈ arrived u ∧ c.ack? = some number

lemma Acknowledged.append {number : SeqNum} (h : t.Acknowledged number g) (v : Trace) :
    Acknowledged number g (t ++ v) := by
  obtain ⟨u, c, w, rfl, hg, hc⟩ := h
  exact ⟨u, c, w ++ v, by rw [List.append_assoc, List.cons_append], hg, hc⟩

lemma acknowledged_reply {number : SeqNum} (hg : g ∈ u.arrived) (h : reply.Acks number) :
    Acknowledged number g (u ++ reply.transmitted) := by
  refine ⟨u, _, [.onSend reply], rfl, hg, ?_⟩
  rw [Event.ack?_send h.plain, if_pos ⟨h.flags, h.payload⟩, h.ack]

theorem Answered.acknowledged (h : t.Answered first) :
    ∀ x ∈ t.arrived, x.header.flags.fin = true → t.Acknowledged (x.header.seq + 1) x := by
  -- What a new exchange brings in is a FIN only if the exchange ends with its acknowledgment.
  have extend {t v : Trace}
      (ih : ∀ x ∈ t.arrived, x.header.flags.fin = true → t.Acknowledged (x.header.seq + 1) x)
      (hv : ∀ x ∈ v.arrived, x.header.flags.fin = false) :
      ∀ x ∈ arrived (t ++ v), x.header.flags.fin = true →
        Acknowledged (x.header.seq + 1) x (t ++ v) := by
    intro x hx hf
    rw [arrived_append] at hx
    rcases List.mem_append.mp hx with hx | hx
    · exact (ih x hx hf).append v
    · rw [hv x hx] at hf
      cases hf
  induction h with
  | start => simp [arrived]
  | aside _ hc ih => exact extend ih (by simp [arrived_aside hc])
  | @own t g _ _ _ _ ih => exact extend ih (by simp [show arrived g.transmitted = [] from rfl])
  | drop _ bad ih => exact extend ih (by simp [arrived_of_bad bad])
  | pass _ hh hf ih =>
    obtain ⟨v, rfl, hv⟩ := hh.split
    exact extend ih (by simp [hv, hf])
  | @deliver t u g reply _ hh hf _ _ _ ih =>
    obtain ⟨v, rfl, hv⟩ := hh.split
    rw [List.append_assoc, List.append_assoc]
    apply extend ih
    intro x hx
    rw [arrived_append, hv,
      show arrived ([.write g.payload (.ok ())] ++ reply.transmitted) = [] from rfl,
      List.append_nil] at hx
    rwa [List.mem_singleton.mp hx]
  | @fin t u g reply _ hh hf hr ih =>
    intro x hx hfin
    rw [arrived_append, show arrived reply.transmitted = [] from rfl, List.append_nil,
      hh.arrived] at hx
    rcases List.mem_append.mp hx with hx | hx
    · obtain ⟨v, rfl, -⟩ := hh.split
      rw [List.append_assoc]
      exact (ih x hx hfin).append _
    · obtain rfl := List.mem_singleton.mp hx
      exact acknowledged_reply (by simp [hh.arrived]) hr

end Trace

namespace Engine

variable {e e' : Engine} {t u : Trace} {events : List Event} {first : SeqNum} {g : Segment}

def Settled (e : Engine) : Prop :=
  match e.point with
  | .noteAck _ _ | .deliver _ _ | .ackData _ | .ackFin _ => False
  | _ => True

def Answers (first : SeqNum) (t : Trace) (e : Engine) : Prop :=
  match e.point with
  | .noteAck g _ => g.header.flags.ack = true ∧
      ∃ (u : Trace) (capacity : Nat) (d : Bytes), Segment.ofBuffer capacity d = .ok g ∧
        t = u ++ [.receive capacity (.ok d)] ∧ u.Answered first ∧ e.ctx.expected = u.acked first
  | .deliver payload _ =>
      ∃ (u : Trace) (g : Segment), g.payload = payload ∧ g.header.flags.fin = false ∧ payload ≠ [] ∧
        g.header.seq = u.acked first ∧ u.Hears g t ∧ u.Answered first ∧
        e.ctx.expected = u.acked first
  | .ackData _ =>
      ∃ (u v : Trace) (g : Segment), g.header.flags.fin = false ∧ g.payload ≠ [] ∧
        g.header.seq = u.acked first ∧ u.Hears g v ∧ t = v ++ [.write g.payload (.ok ())] ∧
        u.Answered first ∧ e.ctx.expected = g.header.seq + UInt32.ofNat g.payload.length
  | .ackFin _ =>
      ∃ (u : Trace) (g : Segment), g.header.flags.fin = true ∧ u.Hears g t ∧ u.Answered first ∧
        e.ctx.expected = g.header.seq + 1
  | _ => t.Answered first ∧ e.ctx.expected = t.acked first

lemma settled_react (e : Engine) (rest : Signals) : (e.react rest).Settled := by
  rw [react]
  split_ifs <;> exact trivial

lemma settled_resending (e : Engine) (datagrams : List Bytes) :
    (e.resending datagrams).Settled := by
  cases datagrams with
  | nil =>
    rw [resending, turn]
    split_ifs <;> exact trivial
  | cons datagram more => exact trivial

lemma settled_onFinAnswered (e : Engine) (rest : Signals) : (e.onFinAnswered rest).Settled := by
  rw [onFinAnswered]
  split_ifs
  · exact settled_react _ rest
  · exact trivial

lemma answers_of_settled (h : e.Settled) :
    e.Answers first t ↔ t.Answered first ∧ e.ctx.expected = t.acked first := by
  obtain ⟨config, ctx, thenLoop, point⟩ := e
  cases point <;> first | exact Iff.rfl | exact h.elim

lemma acks_stamp (e : Engine) : (e.stamp .ackOnly []).Acks e.ctx.expected :=
  ⟨rfl, rfl, rfl, rfl⟩

lemma failure_cases {p : Point} {c : Event} {cause : ConnectionError} (may : p.mayFail = true)
    (failure : c.isFailure = true) (hs : (e.goto p).Step [c] (e.fail cause)) :
    (c.isFault = true ∧ ∃ io, c.fault? = some io ∧ cause = .io io) ∨
      ∃ rest, p = .receive rest ∧ c = .receive e.config.receiveCapacity (.ok []) := by
  have failed {io : IoError} {p : Point} (he : e.fail cause = (e.goto p).fail (.io io)) :
      cause = .io io := by
    have hr := congrArg Engine.result? he
    cases hr
    rfl
  cases p with
  | sendData | ackFin | ackData | sendFin =>
    obtain ⟨hc, -⟩ | ⟨io, hc, he⟩ := hs
    · cases hc
    · obtain rfl := List.singleton_inj.mp hc
      exact .inl ⟨rfl, io, rfl, failed he⟩
  | wait =>
    obtain ⟨deadline, outcome, hc, he⟩ := hs
    obtain rfl := List.singleton_inj.mp hc
    cases outcome with
    | error io => exact .inl ⟨rfl, io, rfl, failed he⟩
    | ok ready => cases failure
  | read | resend =>
    obtain ⟨outcome, hc, he⟩ := hs
    obtain rfl := List.singleton_inj.mp hc
    cases outcome with
    | error io => exact .inl ⟨rfl, io, rfl, failed he⟩
    | ok data => cases failure
  | receive rest =>
    obtain ⟨outcome, hc, he⟩ := hs
    obtain rfl := List.singleton_inj.mp hc
    cases outcome with
    | error io => exact .inl ⟨rfl, io, rfl, failed he⟩
    | ok d =>
      cases d with
      | nil => exact .inr ⟨rest, rfl, rfl⟩
      | cons x d => cases failure
  | _ => cases may

namespace Answers

lemma settle (ht : t.Answered first ∧ e.ctx.expected = t.acked first) (h : e.Settled) :
    e.Answers first t :=
  (answers_of_settled h).mpr ht

lemma aside {c : Event} (h : t.Answered first ∧ e.ctx.expected = t.acked first)
    (hc : c.isAside = true) (hx : e'.ctx.expected = e.ctx.expected) (hp : e'.Settled) :
    e'.Answers first (t ++ [c]) := by
  refine settle ⟨h.1.aside hc, ?_⟩ hp
  rw [hx, h.2, Trace.acked_silent (Trace.aside_quiet hc).1]

lemma own (h : t.Answered first ∧ e.ctx.expected = t.acked first) (hg : g.Plain) (ho : g.IsOwn)
    (ha : g.header.ack = e.ctx.expected) (hx : e'.ctx.expected = e.ctx.expected) (hp : e'.Settled) :
    e'.Answers first (t ++ g.transmitted) := by
  refine settle ⟨h.1.own hg ho (ha.trans h.2), ?_⟩ hp
  rw [hx, h.2, Trace.acked_silent (Trace.acks_own hg ho)]

lemma onContent {rest : Signals} (hh : u.Hears g t) (hu : u.Answered first)
    (hx : e.ctx.expected = u.acked first) : (e.onContent g rest).Answers first t := by
  rw [Engine.onContent]
  split_ifs with hf hd
  · exact ⟨u, g, hf, hh, hu, rfl⟩
  · simp only [Bool.and_eq_true, Bool.not_eq_true', List.isEmpty_eq_false_iff, Context.inOrder,
      beq_iff_eq] at hd
    obtain ⟨⟨hn, hs⟩, -⟩ := hd
    exact ⟨u, g, rfl, by simpa using hf, hn, hs.trans hx, hh, hu, hx⟩
  · refine settle ⟨hu.pass hh (by simpa using hf), ?_⟩ (settled_react e rest)
    rw [react_ctx, hx, Trace.acked, Trace.acked, hh.acks]

lemma hear {capacity : Nat} {d : Bytes} {rest : Signals}
    (h : t.Answered first ∧ e.ctx.expected = t.acked first)
    (good : Segment.ofBuffer capacity d = .ok g) :
    (e.onSegment g rest).Answers first (t ++ [.receive capacity (.ok d)]) := by
  rw [Engine.onSegment]
  split_ifs with ha
  · exact ⟨ha, t, capacity, d, good, rfl, h.1, h.2⟩
  · exact onContent (.of_receive good (by simpa using ha)) h.1 h.2

lemma drop {capacity : Nat} {d : Bytes} {cause : SegmentError} {rest : Signals}
    (h : t.Answered first ∧ e.ctx.expected = t.acked first)
    (bad : Segment.ofBuffer capacity d = .error cause) :
    (e.react rest).Answers first (t ++ [.receive capacity (.ok d)]) := by
  refine settle ⟨h.1.drop bad, ?_⟩ (settled_react e rest)
  rw [react_ctx, h.2]
  exact (Trace.acked_silent rfl).symm

lemma noteAck {rest : Signals} (h : (e.goto (.noteAck g rest)).Answers first t) :
    ((e.onAck g.header.ack).onContent g rest).Answers first (t ++ [.onAck g.header.ack]) := by
  obtain ⟨ha, u, capacity, d, good, rfl, hu, hx⟩ := h
  apply onContent (.of_noteAck good ha) hu
  rw [expected_onAck]
  exact hx

lemma deliver {payload : Bytes} {rest : Signals}
    (h : (e.goto (.deliver payload rest)).Answers first t) :
    Answers first (t ++ [.write payload (.ok ())])
      { e with ctx := e.ctx.recordDelivered payload.length, point := .ackData rest } := by
  obtain ⟨u, g, rfl, hf, hn, hs, hh, hu, hx⟩ := h
  refine ⟨u, t, g, hf, hn, hs, hh, rfl, hu, ?_⟩
  rw [hs, ← hx]
  rfl

lemma ackData {rest : Signals} (h : (e.goto (.ackData rest)).Answers first t) :
    (e.react rest).Answers first (t ++ (e.stamp .ackOnly []).transmitted) := by
  obtain ⟨u, v, g, hf, hn, hs, hh, rfl, hu, hx⟩ := h
  have hr : (e.stamp .ackOnly []).Acks (g.header.seq + UInt32.ofNat g.payload.length) := by
    rw [← hx]
    exact acks_stamp e
  refine settle ⟨hu.deliver hh hf hn hs hr, ?_⟩ (settled_react e rest)
  rw [react_ctx, Trace.acked_of_acks (Trace.acks_reply hr)]
  exact hx

lemma ackFin {rest : Signals} (h : (e.goto (.ackFin rest)).Answers first t) :
    (e.onFinAnswered rest).Answers first (t ++ (e.stamp .ackOnly []).transmitted) := by
  obtain ⟨u, g, hf, hh, hu, hx⟩ := h
  have hr : (e.stamp .ackOnly []).Acks (g.header.seq + 1) := by
    rw [← hx]
    exact acks_stamp e
  refine settle ⟨hu.fin hh hf hr, ?_⟩ (settled_onFinAnswered e rest)
  obtain ⟨-, -, hkept, -⟩ := onFinAnswered_keeps e rest
  rw [hkept, Trace.acked_of_acks (Trace.acks_reply hr)]
  exact hx

lemma fail {p : Point} {c : Event} {cause : ConnectionError} (h : (e.goto p).Answers first t)
    (may : p.mayFail = true) (failure : c.isFailure = true) (hc : c.isFault = false)
    (hs : (e.goto p).Step [c] (e.fail cause)) : (e.fail cause).Answers first (t ++ [c]) := by
  obtain ⟨hfault, -⟩ | ⟨rest, rfl, rfl⟩ := failure_cases may failure hs
  · rw [hc] at hfault
    cases hfault
  · exact aside h rfl rfl trivial

lemma step (h : e.Answers first t) (hs : e.Sound) (hl : e.Loaded) (hu : Trace.Unbroken events)
    (he : e.Step events e') : e'.Answers first (t ++ events) := by
  cases hs.loopStep he with
  | wait e deadline ready => exact aside h rfl (by rw [react_ctx]; rfl) (settled_react e _)
  | readNone e rest => exact aside h rfl (by rw [react_ctx]; rfl) (settled_react e rest)
  | readSome => exact aside h rfl rfl trivial
  | sendData e payload rest =>
    exact own h (plain_stamp e .ackOnly payload) (.inl ⟨rfl, hl⟩) rfl (by rw [react_ctx]; rfl)
      (settled_react _ rest)
  | drop e rest some bad => exact drop h bad
  | hear e rest good => exact hear h good
  | noteAck e g rest => exact h.noteAck
  | ackFin e rest => exact h.ackFin
  | tellPeerClosed e rest =>
    obtain ⟨hx, -⟩ := closeIfTimeWait_keeps e
    exact aside h rfl (by rw [react_ctx, hx]; rfl) (settled_react _ rest)
  | deliver e payload rest => exact h.deliver
  | refuse e payload rest cause => cases hu _ (List.mem_singleton_self _)
  | ackData e rest => exact h.ackData
  | sendFin e => exact own h (plain_stamp e .finOnly []) (.inr ⟨rfl, rfl⟩) rfl rfl trivial
  | collectDue e datagrams =>
    exact aside h rfl (by rw [resending_ctx]; rfl) (settled_resending e datagrams)
  | resend e datagram more =>
    exact aside h rfl (by rw [resending_ctx]; rfl) (settled_resending e more)
  | fail e cause may failure => exact h.fail may failure (hu _ (List.mem_singleton_self _)) he

end Answers

end Engine

namespace Trace

lemma Unbroken.left {t u : Trace} (h : Unbroken (t ++ u)) : t.Unbroken := by
  intro c hc
  exact h c (List.mem_append_left u hc)

lemma Unbroken.right {t u : Trace} (h : Unbroken (t ++ u)) : u.Unbroken := by
  intro c hc
  exact h c (List.mem_append_right t hc)

lemma Unbroken.append {t u : Trace} (h : t.Unbroken) (hu : u.Unbroken) : Unbroken (t ++ u) := by
  intro c hc
  rcases List.mem_append.mp hc with hc | hc
  · exact h c hc
  · exact hu c hc

end Trace

namespace Machine

variable {π σ : Type} {P : Policy π} {H : Host σ} {config : Config} {isn : SeqNum} {role : Role}
  {opening t : Trace} {m₀ m : Machine π σ}

lemma Opened.answered (h : m₀.Opened P H config isn role opening) (hs : m₀.again.Steps P H t m)
    (hu : t.Unbroken) (hp : m.engine.Settled) : t.Answered m₀.engine.ctx.expected := by
  obtain ⟨peer, hagain, hctx, hwait, -, hsound⟩ := h.again
  have hfirst : m₀.again.engine.ctx.expected = m₀.engine.ctx.expected := by
    rw [hagain, hctx]
  have hstart : m₀.again.engine.Loaded ∧ Trace.Answered m₀.engine.ctx.expected [] ∧
      m₀.again.engine.Settled := by
    refine ⟨?_, .start, ?_⟩
    · rw [Engine.Loaded, hwait]
      exact trivial
    · rw [Engine.Settled, hwait]
      exact trivial
  obtain ⟨-, -, ha⟩ : m.engine.Sound ∧ m.engine.Loaded ∧
      (t.Unbroken → m.engine.Answers m₀.engine.ctx.expected t) := by
    apply hs.keeps_loop
      (I := fun t e => e.Loaded ∧ (t.Unbroken → e.Answers m₀.engine.ctx.expected t)) hsound
    · exact ⟨hstart.1, fun _ => .settle ⟨hstart.2.1, hfirst⟩ hstart.2.2⟩
    · rintro t e events e' hs ⟨hl, ha⟩ he
      exact ⟨(hs.loopStep he).loaded, fun hu => (ha hu.left).step hs hl hu.right he⟩
  exact ((Engine.answers_of_settled hp).mp (ha hu)).1

end Machine

end DatagramStream
