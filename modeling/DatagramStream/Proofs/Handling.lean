import DatagramStream.Proofs.Scripted
import DatagramStream.Proofs.Session.Answering

/-! What becomes of one segment: it is taken whole or not at all, and a second time it changes
nothing. -/

namespace DatagramStream

def Point.isHandling : Point → Bool
  | noteAck _ _ | ackFin _ | tellPeerClosed _ | deliver _ _ | ackData _ => true
  | _ => false

namespace Event

def offered? : Event → Option Bytes
  | write data _ => some data
  | _ => none

end Event

namespace Trace

def offered (t : Trace) : List Bytes :=
  t.filterMap Event.offered?

@[simp] lemma offered_append (t u : Trace) : offered (t ++ u) = offered t ++ offered u :=
  List.filterMap_append

end Trace

namespace Segment

variable {b : Bytes} {g : Segment} {capacity : Nat}

lemma bounds_of_parse (h : parse b = .ok g) :
    headerLength ≤ g.header.length ∧ g.header.length ≤ b.length ∧
      g.payload = b.drop g.header.length := by
  rw [parse, Header.parse] at h
  dsimp only at h
  split_ifs at h with hshort hoffset hlong
  cases h
  refine ⟨?_, Nat.not_lt.mp hlong, rfl⟩
  exact Nat.mul_le_mul_left 4 (UInt8.le_iff_toNat_le.mp (UInt8.not_lt.mp hoffset))

lemma ofBuffer_take (h : b.length < capacity) : ofBuffer capacity (b.take capacity) = parse b := by
  rw [List.take_of_length_le (Nat.le_of_lt h), ofBuffer, if_neg (Nat.not_le.mpr h)]

lemma length_payload_lt (h : ofBuffer capacity b = .ok g) : g.payload.length < capacity := by
  obtain ⟨-, -, hpayload⟩ := bounds_of_parse (parse_of_ofBuffer h)
  rw [ofBuffer] at h
  split_ifs at h with hlong
  rw [hpayload, List.length_drop]
  omega

end Segment

lemma Config.receiveCapacity_lt (c : Config) : c.receiveCapacity < 2 ^ 32 := by
  simp only [receiveCapacity, payloadLimit, maxHeaderLength, maxPayload, headerLength]
  omega

namespace Engine

variable {e e' : Engine} {g : Segment} {rest : Signals} {payload : Bytes} {events : List Event}

def noted (e : Engine) (g : Segment) : Engine :=
  if g.header.flags.ack then e.onAck g.header.ack else e

def counted (e : Engine) (g : Segment) : Engine :=
  { e with ctx := { e.ctx with expected := g.header.seq + 1 } }

def finAnswered (e : Engine) : Engine :=
  (if e.ctx.peerFinSeen then e
    else { e with ctx := { e.ctx with peerFinSeen := true }.transition .recvFin }).closeIfTimeWait

def wants (e : Engine) (g : Segment) : Bool :=
  !g.payload.isEmpty && e.ctx.inOrder g.header.seq && e.ctx.state.canReceive

def taken (e : Engine) (g : Segment) : Engine :=
  if g.header.flags.fin then (e.counted g).finAnswered
  else if e.wants g then { e with ctx := e.ctx.recordDelivered g.payload.length }
  else e

def reaction (e : Engine) (g : Segment) : Trace :=
  if g.header.flags.fin then
    ((e.counted g).stamp .ackOnly []).transmitted ++ if e.ctx.peerFinSeen then [] else [.peerClosed]
  else if e.wants g then
    .write g.payload (.ok ()) :: ((e.taken g).stamp .ackOnly []).transmitted
  else []

def onDatagram (e : Engine) (found : Except SegmentError Segment) (rest : Signals) : Engine :=
  match found with
  | .ok g => e.onSegment g rest
  | .error _ => e.react rest

lemma isHandling_react (e : Engine) (rest : Signals) : (e.react rest).point.isHandling = false := by
  rw [react]
  split_ifs <;> rfl

lemma stage_of_isHandling (hp : e.point.isHandling = true) : e.stage = .serving := by
  obtain ⟨config, ctx, thenLoop, point⟩ := e
  cases point <;> first | rfl | cases hp

lemma stepsLeft_lt_of_isHandling (hp : e.point.isHandling = true) (hs : e.Step events e') :
    e'.point.stepsLeft < e.point.stepsLeft := by
  have hl := loopStep_of_step (stage_of_isHandling hp) hs
  refine hl.stepsLeft_lt (fun hw => by rw [hw] at hp; cases hp) fun datagrams hd => ?_
  cases hl with
  | collectDue => cases hp
  | fail e cause may failure =>
    obtain rfl := List.mem_singleton.mp hd
    cases failure
  | _ => simp [Segment.transmitted] at hd

/-! None of this depends on where the engine stands. -/

lemma closeIfTimeWait_goto (e : Engine) (p : Point) :
    (e.goto p).closeIfTimeWait = e.closeIfTimeWait.goto p := by
  rw [closeIfTimeWait, closeIfTimeWait]
  change (if e.ctx.state = .timeWait then _ else _) = _
  split_ifs <;> rfl

lemma onAck_goto (e : Engine) (p : Point) (ack : SeqNum) :
    (e.goto p).onAck ack = (e.onAck ack).goto p := by
  rw [onAck, onAck]
  change (if (e.ctx.state.awaitsFinAck && e.config.acks.accepts ack e.ctx.next) = true
    then _ else _) = _
  split_ifs <;> rfl

lemma noted_goto (e : Engine) (p : Point) (g : Segment) :
    (e.goto p).noted g = (e.noted g).goto p := by
  rw [noted, noted]
  split_ifs
  · exact onAck_goto e p g.header.ack
  · rfl

lemma finAnswered_goto (e : Engine) (p : Point) :
    (e.goto p).finAnswered = e.finAnswered.goto p := by
  rw [finAnswered, finAnswered, ← closeIfTimeWait_goto]
  change (if e.ctx.peerFinSeen = true then _ else _ : Engine).closeIfTimeWait = _
  split_ifs <;> rfl

lemma taken_goto (e : Engine) (p : Point) (g : Segment) :
    (e.goto p).taken g = (e.taken g).goto p := by
  rw [taken, taken]
  change (if g.header.flags.fin = true then _ else if e.wants g = true then _ else _) = _
  split_ifs
  · exact finAnswered_goto (e.counted g) p
  · rfl
  · rfl

lemma reaction_goto (e : Engine) (p : Point) (g : Segment) :
    (e.goto p).reaction g = e.reaction g := by
  rw [reaction, reaction, taken_goto]
  rfl

lemma config_noted (e : Engine) (g : Segment) : (e.noted g).config = e.config := by
  rw [noted]
  split_ifs
  · exact config_onAck e g.header.ack
  · rfl

/-! What a segment has changed already, it does not change again. -/

def Heard (e : Engine) (g : Segment) : Prop :=
  g.header.flags.ack = true →
    (e.ctx.state.awaitsFinAck && e.config.acks.accepts g.header.ack e.ctx.next) = false

lemma Heard.noted_eq (h : e.Heard g) : e.noted g = e := by
  rw [noted]
  split_ifs with ha
  · rw [onAck, h ha, if_neg Bool.false_ne_true]
  · rfl

lemma awaitsFinAck_onFinAcked (h : e.ctx.state.awaitsFinAck = true) :
    e.onFinAcked.ctx.state.awaitsFinAck = false := by
  obtain ⟨config, ctx, thenLoop, point⟩ := e
  change ((ctx.state.next? .recvAck).getD ctx.state).awaitsFinAck = false
  cases hs : ctx.state <;> simp_all [State.awaitsFinAck, State.next?]

lemma heard_noted (e : Engine) (g : Segment) : (e.noted g).Heard g := by
  intro ha
  rw [noted, if_pos ha, onAck]
  split_ifs with hacked
  · rw [awaitsFinAck_onFinAcked (Bool.and_eq_true_iff.mp hacked).1, Bool.false_and]
  · rwa [Bool.not_eq_true] at hacked

lemma awaitsFinAck_recvFin (s : State) :
    ((s.next? .recvFin).getD s).awaitsFinAck = s.awaitsFinAck := by
  cases s <;> rfl

lemma finAnswered_keeps (e : Engine) :
    e.finAnswered.ctx.state.awaitsFinAck = e.ctx.state.awaitsFinAck ∧
      e.finAnswered.config = e.config ∧
      e.finAnswered.ctx.next = e.ctx.next ∧ e.finAnswered.ctx.expected = e.ctx.expected ∧
      e.finAnswered.ctx.peerFinSeen = true := by
  rw [finAnswered]
  split_ifs with hs
  · rw [closeIfTimeWait]
    split_ifs <;> exact ⟨rfl, rfl, rfl, rfl, hs⟩
  · rw [closeIfTimeWait]
    split_ifs <;> exact ⟨awaitsFinAck_recvFin e.ctx.state, rfl, rfl, rfl, rfl⟩

lemma taken_keeps (e : Engine) (g : Segment) :
    (e.taken g).ctx.state.awaitsFinAck = e.ctx.state.awaitsFinAck ∧ (e.taken g).config = e.config ∧
      (e.taken g).ctx.next = e.ctx.next := by
  rw [taken]
  split_ifs
  · obtain ⟨hstate, hconfig, hnext, -⟩ :=
      finAnswered_keeps { e with ctx := { e.ctx with expected := g.header.seq + 1 } }
    exact ⟨hstate, hconfig, hnext⟩
  · exact ⟨rfl, rfl, rfl⟩
  · exact ⟨rfl, rfl, rfl⟩

lemma Heard.taken (h : e.Heard g) : (e.taken g).Heard g := by
  obtain ⟨hstate, hconfig, hnext⟩ := taken_keeps e g
  intro ha
  rw [hstate, hconfig, hnext]
  exact h ha

lemma closeIfTimeWait_twice (e : Engine) :
    e.closeIfTimeWait.closeIfTimeWait = e.closeIfTimeWait := by
  rw [closeIfTimeWait, closeIfTimeWait_state, closeIfTimeWait]
  split_ifs <;> rfl

lemma finAnswered_twice (e : Engine) : e.finAnswered.finAnswered = e.finAnswered := by
  obtain ⟨-, -, -, -, hseen⟩ := finAnswered_keeps e
  rw [finAnswered, if_pos hseen, finAnswered, closeIfTimeWait_twice]

lemma ofNat_length_ne_zero (hn : payload ≠ []) (hl : payload.length < 2 ^ 32) :
    UInt32.ofNat payload.length ≠ 0 := by
  intro h
  have hz := congrArg UInt32.toNat h
  rw [UInt32.toNat_ofNat_of_lt' hl] at hz
  exact hn (List.eq_nil_of_length_eq_zero hz)

lemma not_wants_of_delivered (hw : e.wants g = true) (hl : g.payload.length < 2 ^ 32) :
    wants { e with ctx := e.ctx.recordDelivered g.payload.length } g = false := by
  simp only [wants, Bool.and_eq_true, Bool.not_eq_true', List.isEmpty_eq_false_iff, Context.inOrder,
    beq_iff_eq] at hw
  obtain ⟨⟨hn, hseq⟩, -⟩ := hw
  have hmoved : g.header.seq ≠ e.ctx.expected + UInt32.ofNat g.payload.length := by
    rw [hseq]
    intro h
    exact ofNat_length_ne_zero hn hl (UInt32.left_eq_add.mp h)
  simp [wants, Context.inOrder, Context.recordDelivered, hmoved]

lemma not_wants_taken (hf : g.header.flags.fin = false) (hl : g.payload.length < 2 ^ 32) :
    (e.taken g).wants g = false := by
  rw [taken, if_neg (by simp [hf])]
  split_ifs with hw
  · exact not_wants_of_delivered hw hl
  · rwa [Bool.not_eq_true] at hw

lemma counted_taken (hf : g.header.flags.fin = true) : (e.taken g).counted g = e.taken g := by
  obtain ⟨-, -, -, hexpected, -⟩ := finAnswered_keeps (e.counted g)
  rw [taken, if_pos hf, counted,
    show g.header.seq + 1 = (e.counted g).finAnswered.ctx.expected from hexpected.symm]

lemma taken_twice (hl : g.payload.length < 2 ^ 32) : (e.taken g).taken g = e.taken g := by
  cases hf : g.header.flags.fin with
  | false => rw [taken, if_neg (by simp [hf]), if_neg (by simp [not_wants_taken hf hl])]
  | true =>
    rw [taken, if_pos hf, counted_taken hf, taken, if_pos hf, finAnswered_twice]

lemma reaction_taken (hl : g.payload.length < 2 ^ 32) : (e.taken g).reaction g =
    if g.header.flags.fin then ((e.taken g).stamp .ackOnly []).transmitted else [] := by
  cases hf : g.header.flags.fin with
  | false =>
    rw [reaction, if_neg (by simp [hf]), if_neg (by simp [not_wants_taken hf hl]), if_neg (by simp)]
  | true =>
    obtain ⟨-, -, -, -, hseen⟩ := finAnswered_keeps (e.counted g)
    have hanswered : (e.taken g).ctx.peerFinSeen = true := by
      rwa [taken, if_pos hf]
    rw [reaction, if_pos hf, counted_taken hf, if_pos hanswered, if_pos rfl, List.append_nil]

lemma exists_react (e : Engine) (rest : Signals) : ∃ p, e.react rest = e.goto p := by
  rw [react]
  split_ifs <;> exact ⟨_, rfl⟩

def MayOffer (e : Engine) (offered : List Bytes) : Prop :=
  match e.point with
  | .noteAck g _ => offered = [] ∨ offered = [g.payload]
  | .deliver payload _ => offered = [payload]
  | _ => offered = []

lemma mayOffer_of_not_isHandling (hp : e.point.isHandling = false) {offered : List Bytes} :
    e.MayOffer offered ↔ offered = [] := by
  obtain ⟨config, ctx, thenLoop, point⟩ := e
  cases point <;> first | exact Iff.rfl | cases hp

lemma mayOffer_onFinAnswered {offered : List Bytes} (h : (e.onFinAnswered rest).MayOffer offered) :
    offered = [] := by
  rw [onFinAnswered] at h
  split_ifs at h
  · exact (mayOffer_of_not_isHandling (isHandling_react _ rest)).mp h
  · exact h

lemma mayOffer_onContent {offered : List Bytes} (h : (e.onContent g rest).MayOffer offered) :
    offered = [] ∨ offered = [g.payload] := by
  rw [onContent] at h
  split_ifs at h
  · exact .inl h
  · exact .inr h
  · exact .inl ((mayOffer_of_not_isHandling (isHandling_react e rest)).mp h)

lemma mayOffer_onSegment {offered : List Bytes} (h : (e.onSegment g rest).MayOffer offered) :
    offered = [] ∨ offered = [g.payload] := by
  rw [onSegment] at h
  split_ifs at h
  · exact h
  · exact mayOffer_onContent h

lemma mayOffer_step {offered : List Bytes} (hp : e.point.isHandling = true) (hs : e.Step events e')
    (h : e'.MayOffer offered) : e.MayOffer (Trace.offered events ++ offered) := by
  cases loopStep_of_step (stage_of_isHandling hp) hs with
  | noteAck e g rest => exact mayOffer_onContent h
  | ackFin e rest => exact mayOffer_onFinAnswered h
  | tellPeerClosed e rest | ackData e rest =>
    exact (mayOffer_of_not_isHandling (isHandling_react _ rest)).mp h
  | deliver | refuse => exact congrArg _ h
  | @fail e p c cause may failure =>
    obtain rfl : offered = [] := h
    cases p <;> cases may <;> cases hp <;> cases c <;> first | rfl | cases failure
  | _ => cases hp

end Engine

namespace Machine

variable {π σ : Type} {P : Policy π} {H : Host σ} {m m' m'' : Machine π σ} {t u : Trace}
  {e : Engine} {g : Segment} {rest : Signals} {payload : Bytes}

inductive Handles (P : Policy π) (H : Host σ) : Machine π σ → Trace → Machine π σ → Prop
  | done {m : Machine π σ} : m.engine.point.isHandling = false → Handles P H m [] m
  | step {m m' m'' : Machine π σ} {events : List Event} {t : Trace} :
      m.engine.point.isHandling = true →
      m.step P H = some (m', events) → Handles P H m' t m'' → Handles P H m (events ++ t) m''

lemma exists_step_of_isHandling (hp : m.engine.point.isHandling = true) :
    ∃ m' events, m.step P H = some (m', events) := by
  obtain ⟨⟨config, ctx, thenLoop, point⟩, policy, host⟩ := m
  cases point with
  | noteAck | tellPeerClosed | deliver => exact ⟨_, _, rfl⟩
  | ackFin | ackData =>
    rw [step]
    dsimp only [Engine.request]
    split
    · exact ⟨_, _, rfl⟩
    · exact ⟨_, _, rfl⟩
  | _ => cases hp

theorem exists_handles (P : Policy π) (H : Host σ) (m : Machine π σ) :
    ∃ t m', Handles P H m t m' := by
  induction hn : m.engine.point.stepsLeft using Nat.strong_induction_on generalizing m with
  | h n ih =>
    subst hn
    cases hp : m.engine.point.isHandling with
    | false => exact ⟨[], m, .done hp⟩
    | true =>
      obtain ⟨m', events, hs⟩ := exists_step_of_isHandling (P := P) (H := H) hp
      obtain ⟨t, m'', ht⟩ := ih _ (Engine.stepsLeft_lt_of_isHandling hp (step_engine hs)) m' rfl
      exact ⟨events ++ t, m'', .step hp hs ht⟩

namespace Handles

lemma offered (h : Handles P H m t m') : m.engine.MayOffer t.offered := by
  induction h with
  | done hp => exact (Engine.mayOffer_of_not_isHandling hp).mpr rfl
  | step hp hs _ ih =>
    rw [Trace.offered_append]
    exact Engine.mayOffer_step hp (step_engine hs) ih

lemma unique (h : Handles P H m t m') (hu : Handles P H m u m'') : t = u ∧ m' = m'' := by
  induction h generalizing u with
  | done hp =>
    cases hu with
    | done => exact ⟨rfl, rfl⟩
    | step hq => exact absurd (hp.symm.trans hq) (by decide)
  | step hp hs _ ih =>
    cases hu with
    | done hq => exact absurd (hq.symm.trans hp) (by decide)
    | step _ hs' hu =>
      cases hs.symm.trans hs'
      obtain ⟨rfl, rfl⟩ := ih hu
      exact ⟨rfl, rfl⟩

lemma of_not_isHandling (hp : m.engine.point.isHandling = false) (h : Handles P H m t m') :
    t = [] ∧ m' = m := by
  obtain ⟨rfl, rfl⟩ := (done hp).unique h
  exact ⟨rfl, rfl⟩

lemma first (hp : m.engine.point.isHandling = true) (h : Handles P H m t m'') :
    ∃ m' events u, m.engine.Step events m'.engine ∧ Handles P H m' u m'' ∧ t = events ++ u := by
  cases h with
  | done hq => exact absurd (hq.symm.trans hp) (by decide)
  | step _ hs hu => exact ⟨_, _, _, step_engine hs, hu, rfl⟩

/-! Without a failure, what is called and what becomes of the connection is settled. -/

lemma react (hm : m.engine = e.react rest) (h : Handles P H m t m') :
    t = [] ∧ m'.engine = e.react rest := by
  obtain ⟨rfl, rfl⟩ := h.of_not_isHandling (by rw [hm]; exact e.isHandling_react rest)
  exact ⟨rfl, hm⟩

lemma ackData (hm : m.engine = e.goto (.ackData rest)) (h : Handles P H m t m') (hu : t.Unbroken) :
    t = (e.stamp .ackOnly []).transmitted ∧ m'.engine = e.react rest := by
  obtain ⟨m₁, events, u, hs, hrest, rfl⟩ := h.first (by rw [hm]; rfl)
  rw [hm] at hs
  obtain ⟨rfl, hnext⟩ | ⟨cause, rfl, -⟩ := hs
  · obtain ⟨rfl, hend⟩ := hrest.react hnext
    exact ⟨rfl, hend⟩
  · cases hu _ List.mem_cons_self

lemma deliver (hm : m.engine = e.goto (.deliver payload rest)) (h : Handles P H m t m')
    (hu : t.Unbroken) :
    t = .write payload (.ok ()) ::
        (Engine.stamp { e with ctx := e.ctx.recordDelivered payload.length }
          .ackOnly []).transmitted ∧
      m'.engine = Engine.react { e with ctx := e.ctx.recordDelivered payload.length } rest := by
  obtain ⟨m₁, events, u, hs, hrest, rfl⟩ := h.first (by rw [hm]; rfl)
  rw [hm] at hs
  obtain ⟨outcome, rfl, hnext⟩ := hs
  cases outcome with
  | error cause => cases hu _ List.mem_cons_self
  | ok a =>
    obtain ⟨rfl, hend⟩ := hrest.ackData
      (e := { e with ctx := e.ctx.recordDelivered payload.length }) hnext hu.right
    exact ⟨rfl, hend⟩

lemma tellPeerClosed (hm : m.engine = e.goto (.tellPeerClosed rest)) (h : Handles P H m t m') :
    t = [.peerClosed] ∧ m'.engine = e.closeIfTimeWait.react rest := by
  obtain ⟨m₁, events, u, hs, hrest, rfl⟩ := h.first (by rw [hm]; rfl)
  rw [hm] at hs
  obtain ⟨rfl, hnext⟩ := hs
  rw [Engine.closeIfTimeWait_goto] at hnext
  obtain ⟨rfl, hend⟩ := hrest.react (e := e.closeIfTimeWait) hnext
  exact ⟨rfl, hend⟩

lemma ackFin (hm : m.engine = e.goto (.ackFin rest)) (h : Handles P H m t m') (hu : t.Unbroken) :
    t = (e.stamp .ackOnly []).transmitted ++ (if e.ctx.peerFinSeen then [] else [.peerClosed]) ∧
      m'.engine = e.finAnswered.react rest := by
  obtain ⟨m₁, events, u, hs, hrest, rfl⟩ := h.first (by rw [hm]; rfl)
  rw [hm] at hs
  obtain ⟨rfl, hnext⟩ | ⟨cause, rfl, -⟩ := hs
  · change m₁.engine = (e.goto (.ackFin rest)).onFinAnswered rest at hnext
    rw [Engine.onFinAnswered] at hnext
    rw [Engine.finAnswered]
    cases hseen : e.ctx.peerFinSeen with
    | true =>
      rw [if_pos (by exact hseen), Engine.closeIfTimeWait_goto] at hnext
      obtain ⟨rfl, hend⟩ := hrest.react (e := e.closeIfTimeWait) hnext
      exact ⟨rfl, hend⟩
    | false =>
      rw [if_neg (by simp [Engine.goto, hseen])] at hnext
      obtain ⟨rfl, hend⟩ := hrest.tellPeerClosed
        (e := { e with ctx := { e.ctx with peerFinSeen := true }.transition .recvFin }) hnext
      exact ⟨rfl, hend⟩
  · cases hu _ List.mem_cons_self

lemma onContent (hm : m.engine = e.onContent g rest) (h : Handles P H m t m') (hu : t.Unbroken) :
    t = e.reaction g ∧ m'.engine = (e.taken g).react rest := by
  change m.engine = if g.header.flags.fin = true then (e.counted g).goto (.ackFin rest)
    else if e.wants g = true then _ else _ at hm
  rw [Engine.reaction, Engine.taken]
  by_cases hf : g.header.flags.fin = true
  · rw [if_pos hf] at hm ⊢
    rw [if_pos hf]
    exact h.ackFin hm hu
  · rw [if_neg hf] at hm ⊢
    rw [if_neg hf]
    split_ifs at hm ⊢
    · exact h.deliver hm hu
    · exact h.react hm

lemma onSegment (hm : m.engine = e.onSegment g rest) (h : Handles P H m t m') (hu : t.Unbroken) :
    t = g.noted ++ (e.noted g).reaction g ∧ m'.engine = ((e.noted g).taken g).react rest := by
  rw [Engine.onSegment] at hm
  rw [Segment.noted, Engine.noted]
  split_ifs at hm ⊢ with ha
  · obtain ⟨m₁, events, u, hs, hrest, rfl⟩ := h.first (by rw [hm]; rfl)
    rw [hm] at hs
    obtain ⟨rfl, hnext⟩ := hs
    change m₁.engine = ((e.goto (.noteAck g rest)).onAck g.header.ack).onContent g rest at hnext
    rw [Engine.onAck_goto] at hnext
    obtain ⟨rfl, hend⟩ := hrest.onContent (e := e.onAck g.header.ack) hnext hu.right
    exact ⟨rfl, hend⟩
  · exact h.onContent hm hu

end Handles

lemma step_receive_cut {d : Bytes} {host : σ} (hp : m.engine.point = .receive rest) (hd : d ≠ [])
    (hr : H.receive m.engine.config.receiveCapacity m.host =
      some (.ok (d.take m.engine.config.receiveCapacity), host)) :
    m.step P H =
      some
        (⟨m.engine.onDatagram (Segment.ofBuffer m.engine.config.receiveCapacity
            (d.take m.engine.config.receiveCapacity)) rest, m.policy, host⟩,
        [.receive m.engine.config.receiveCapacity
          (.ok (d.take m.engine.config.receiveCapacity))]) := by
  rw [step, Engine.request, hp]
  dsimp only
  rw [hr, Option.map_some, Engine.arrival_take m.engine hd]
  cases Segment.ofBuffer m.engine.config.receiveCapacity
    (d.take m.engine.config.receiveCapacity) <;> rfl

/-- A datagram that is too long or does not decode goes unnoticed, and of any other the application
is offered all that follows the header, or nothing. -/
theorem taken_whole {d : Bytes} {host : σ} (hv : m.engine.config.validate = .ok ())
    (hp : m.engine.point = .receive rest) (hd : d ≠ [])
    (hr : H.receive m.engine.config.receiveCapacity m.host =
      some (.ok (d.take m.engine.config.receiveCapacity), host)) :
    ∃ m' t m'', m.step P H = some (m',
        [.receive m.engine.config.receiveCapacity (.ok (d.take m.engine.config.receiveCapacity))]) ∧
      Handles P H m' t m'' ∧
      (60 + m.engine.config.mss < d.length ∨ (∃ cause, Segment.parse d = .error cause) →
        t = [] ∧ m''.engine.ctx = m.engine.ctx ∧ m''.policy = m.policy ∧ m''.host = host) ∧
      (d.length ≤ 60 + m.engine.config.mss → ∀ g, Segment.parse d = .ok g →
        m'.engine = m.engine.onSegment g rest ∧ 20 ≤ g.header.length ∧ g.header.length ≤ d.length ∧
          (t.offered = [] ∨ t.offered = [d.drop g.header.length])) := by
  obtain ⟨hlimit, -⟩ := Config.payloadLimit_of_valid hv
  have hcapacity : m.engine.config.receiveCapacity = 60 + m.engine.config.mss + 1 := by
    rw [Config.receiveCapacity, hlimit, maxHeaderLength]
  have hs := step_receive_cut (P := P) hp hd hr
  obtain ⟨t, m'', ht⟩ := exists_handles P H ⟨m.engine.onDatagram (Segment.ofBuffer
    m.engine.config.receiveCapacity (d.take m.engine.config.receiveCapacity)) rest, m.policy, host⟩
  refine ⟨_, t, m'', hs, ht, fun hbad => ?_, fun hfits g hg => ?_⟩
  · obtain ⟨cause, hcause⟩ : ∃ cause, Segment.ofBuffer m.engine.config.receiveCapacity
        (d.take m.engine.config.receiveCapacity) = .error cause := by
      by_cases hlong : m.engine.config.receiveCapacity ≤ d.length
      · exact ⟨_, Segment.ofBuffer_oversized hlong⟩
      · obtain ⟨cause, hparse⟩ := hbad.resolve_left (by omega)
        exact ⟨cause, by rw [Segment.ofBuffer_take (Nat.not_le.mp hlong), hparse]⟩
    rw [hcause] at ht
    obtain ⟨rfl, rfl⟩ := ht.of_not_isHandling (m.engine.isHandling_react rest)
    exact ⟨rfl, Engine.react_ctx m.engine rest, rfl, rfl⟩
  · have good : Segment.ofBuffer m.engine.config.receiveCapacity
        (d.take m.engine.config.receiveCapacity) = .ok g := by
      rw [Segment.ofBuffer_take (by omega), hg]
    obtain ⟨hmin, hmax, hpayload⟩ := Segment.bounds_of_parse hg
    rw [good] at ht
    rw [good, ← hpayload]
    exact ⟨rfl, hmin, hmax, Engine.mayOffer_onSegment ht.offered⟩

def fullest : Bytes :=
  [0, 0, 0, 0, 0, 0, 0, 101, 0, 0, 0, 2, 0xF0, 0x10, 12, 0, 0, 0, 0, 0] ++ Bytes.zeros 40 ++ [7, 8]

def listening : Engine :=
  ⟨{ mss := 2 }, .established 1 100, false, .receive .empty⟩

theorem taken_whole_fullest :
    listening.config.validate = .ok () ∧ fullest.length = 62 ∧
      (∃ m' t m'' g, step .inert Script.host ⟨listening, (), { net := [.ok fullest] }⟩ =
          some (m', [.receive 63 (.ok fullest)]) ∧ Handles .inert Script.host m' t m'' ∧
        Segment.parse fullest = .ok g ∧ g.header.length = 60 ∧ t.offered = [[7, 8]]) ∧
      ∃ m' t m'', step .inert Script.host ⟨listening, (), { net := [.ok (fullest ++ [9])] }⟩ =
          some (m', [.receive 63 (.ok (fullest ++ [9]))]) ∧ Handles .inert Script.host m' t m'' ∧
        t = [] ∧ m''.engine.ctx = .established 1 100 := by
  have hv : listening.config.validate = .ok () := rfl
  refine ⟨hv, rfl, ?_, ?_⟩
  · obtain ⟨m', t, m'', hs, ht, -, htaken⟩ := taken_whole (P := .inert) (H := Script.host)
      (m := ⟨listening, (), { net := [.ok fullest] }⟩) (d := fullest) hv rfl (by decide) rfl
    obtain ⟨g, hg, hlength⟩ : ∃ g, Segment.parse fullest = .ok g ∧ g.header.length = 60 :=
      ⟨_, rfl, rfl⟩
    obtain ⟨-, -, -, hoffered⟩ := htaken (by decide) g hg
    obtain ⟨u, m₁, hcalls, hsome⟩ :
        ∃ u m₁, Handles .inert Script.host m' u m₁ ∧ u.offered ≠ [] := by
      cases hs
      exact ⟨_, _, .step rfl rfl (.step rfl rfl (.step rfl rfl (.done rfl))), by
        simp [Trace.offered, Event.offered?]⟩
    obtain ⟨rfl, -⟩ := ht.unique hcalls
    rw [hlength] at hoffered
    exact ⟨m', t, m'', g, hs, ht, hg, hlength, hoffered.resolve_left hsome⟩
  · obtain ⟨m', t, m'', hs, ht, hdropped, -⟩ := taken_whole (P := .inert) (H := Script.host)
      (m := ⟨listening, (), { net := [.ok (fullest ++ [9])] }⟩) (d := fullest ++ [9])
      hv rfl (by decide) rfl
    obtain ⟨rfl, hctx, -⟩ := hdropped (.inl (by decide))
    exact ⟨m', [], m'', hs, ht, rfl, hctx⟩

/-- As long as no call fails, a segment that comes a second time changes nothing of the connection,
and all that follows is another ACK if it has a FIN. -/
theorem handled_again (P : Policy π) (H : Host σ) (e : Engine) {d : Bytes}
    (good : Segment.ofBuffer e.config.receiveCapacity d = .ok g) (rest rest' : Signals) (policy : π)
    (host : σ) :
    (∃ t m u m', Handles P H ⟨e.onSegment g rest, policy, host⟩ t m ∧
      Handles P H ⟨m.engine.onSegment g rest', m.policy, m.host⟩ u m') ∧
    ∀ t m u m', Handles P H ⟨e.onSegment g rest, policy, host⟩ t m →
      Handles P H ⟨m.engine.onSegment g rest', m.policy, m.host⟩ u m' → t.Unbroken → u.Unbroken →
        m'.engine.ctx = m.engine.ctx ∧
          u.filter (fun c => !c.isPolicy) =
            if g.header.flags.fin then
              [.send (Header.encode
                { seq := m.engine.ctx.next, ack := m.engine.ctx.expected, flags := .ackOnly,
                  window := e.config.window }) [] (.ok ())]
            else [] := by
  obtain ⟨t, m, ht⟩ := exists_handles P H ⟨e.onSegment g rest, policy, host⟩
  obtain ⟨u, m', hu⟩ := exists_handles P H ⟨m.engine.onSegment g rest', m.policy, m.host⟩
  refine ⟨⟨t, m, u, m', ht, hu⟩, fun t m u m' ht hu htu huu => ?_⟩
  have hl : g.payload.length < 2 ^ 32 :=
    Nat.lt_trans (Segment.length_payload_lt good) e.config.receiveCapacity_lt
  obtain ⟨-, hm⟩ := ht.onSegment rfl htu
  obtain ⟨hut, hm'⟩ := hu.onSegment rfl huu
  obtain ⟨p, hp⟩ := ((e.noted g).taken g).exists_react rest
  have hnoted : m.engine.noted g = ((e.noted g).taken g).goto p := by
    rw [hm, hp, Engine.noted_goto, (e.heard_noted g).taken.noted_eq]
  constructor
  · rw [hm', hnoted, Engine.taken_goto, Engine.taken_twice hl, hm, Engine.react_ctx,
      Engine.react_ctx]
    rfl
  · have hpolicy : g.noted.filter (fun c => !c.isPolicy) = [] := by
      rw [Segment.noted]
      split_ifs <;> rfl
    have hconfig : ((e.noted g).taken g).config = e.config := by
      rw [((e.noted g).taken_keeps g).2.1, e.config_noted g]
    rw [hut, hnoted, Engine.reaction_goto, Engine.reaction_taken hl, List.filter_append, hpolicy,
      hm, Engine.react_ctx, ← hconfig]
    split_ifs <;> rfl

def halfClosed : Engine where
  config := { acks := .strict, teardown := .fourWay }
  ctx := { Context.established 1 100 with state := .finWait1, next := 3 }
  thenLoop := false
  point := .receive .empty

def lastSegment : Segment :=
  ⟨{ seq := 101, ack := 3, flags := { ack := true, fin := true } }, [7]⟩

theorem handled_again_lastSegment :
    Segment.ofBuffer halfClosed.config.receiveCapacity lastSegment.encode = .ok lastSegment ∧
      ∃ t m u m', Handles .inert Script.host ⟨halfClosed.onSegment lastSegment .empty, (), {}⟩ t m ∧
        Handles .inert Script.host ⟨m.engine.onSegment lastSegment .empty, m.policy, m.host⟩ u m' ∧
        t.Unbroken ∧ u.Unbroken ∧ m.engine.ctx.state = .timeWait ∧ m'.engine.ctx = m.engine.ctx ∧
        u.filter (fun c => !c.isPolicy) =
          [.send (Header.encode { seq := 3, ack := 102, flags := .ackOnly, window := 3072 })
            [] (.ok ())] := by
  have good :
      Segment.ofBuffer halfClosed.config.receiveCapacity lastSegment.encode = .ok lastSegment := by
    decide +kernel
  obtain ⟨t, m, u, m', ht, hu, htu, huu, hstate, hnext, hexpected⟩ : ∃ t m u m',
      Handles .inert Script.host ⟨halfClosed.onSegment lastSegment .empty, (), {}⟩ t m ∧
        Handles .inert Script.host ⟨m.engine.onSegment lastSegment .empty, m.policy, m.host⟩ u m' ∧
        t.Unbroken ∧ u.Unbroken ∧ m.engine.ctx.state = .timeWait ∧ m.engine.ctx.next = 3 ∧
        m.engine.ctx.expected = 102 := by
    refine ⟨_, _, _, _, .step rfl rfl (.step rfl rfl (.step rfl rfl (.done rfl))),
      .step rfl rfl (.step rfl rfl (.done rfl)), ?_, ?_, rfl, rfl, rfl⟩
    · simp [Trace.Unbroken, Event.isFault]
    · simp [Trace.Unbroken, Event.isFault]
  obtain ⟨-, hsame⟩ := handled_again .inert Script.host halfClosed good .empty .empty () {}
  obtain ⟨hctx, hcalls⟩ := hsame t m u m' ht hu htu huu
  rw [hnext, hexpected] at hcalls
  exact ⟨good, t, m, u, m', ht, hu, htu, huu, hstate, hctx, hcalls⟩

end Machine

end DatagramStream
