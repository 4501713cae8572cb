import DatagramStream.Proofs.Network.Speaking

/-! What a side has handed to its application stands at the front of what its peer has been supplied
with, whatever becomes of the datagrams on their way. -/

namespace DatagramStream

def Event.From (isn : SeqNum) (data : Bytes) : Event → Prop
  | .receive capacity (.ok d) => d = [] ∨ ∃ g : Segment, g.Of isn data ∧ d = g.encode.take capacity
  | _ => True

namespace Engine

def Synced (e : Engine) : Prop :=
  match e.point with
  | .sendSyn | .awaitSynAck | .awaitSyn | .unblock (.error _) | .ended _ => False
  | .unblock (.ok ()) => e.ctx.state = .established
  | _ => True

end Engine

structure Listening (isn : SeqNum) (e : Engine) (data written : Bytes) : Prop where
  count : written.length = e.ctx.received
  front : written ++ e.inHand <+: data
  held : ∀ g ∈ e.held, g.Of isn data
  expected : e.Synced → e.heardFin = false →
    e.ctx.expected = isn + UInt32.ofNat (1 + e.ctx.received)

lemma Listening.mono {isn : SeqNum} {e : Engine} {data written : Bytes}
    (h : Listening isn e data written) (more : Bytes) : Listening isn e (data ++ more) written :=
  ⟨h.count, h.front.trans (List.prefix_append data more), fun g hg => (h.held g hg).mono more,
    h.expected⟩

structure Engine.Calm (e e' : Engine) : Prop where
  received : e'.ctx.received = e.ctx.received
  held : e'.held = []
  inHand : e'.inHand = []
  expected : e'.Synced → e'.heardFin = false →
    e.Synced ∧ e.heardFin = false ∧ e'.ctx.expected = e.ctx.expected

lemma Listening.calm {isn : SeqNum} {e e' : Engine} {data written : Bytes}
    (h : Listening isn e data written) (hc : e.Calm e') : Listening isn e' data written := by
  refine ⟨h.count.trans hc.received.symm, ?_, by simp [hc.held], fun hs hf => ?_⟩
  · rw [hc.inHand, List.append_nil]
    exact (List.prefix_append written e.inHand).trans h.front
  · obtain ⟨hs, hf, he⟩ := hc.expected hs hf
    rw [he, hc.received]
    exact h.expected hs hf

namespace Engine.Calm

variable {e e' : Engine}

lemma fail (e : Engine) (cause : ConnectionError) : e.Calm (e.fail cause) :=
  ⟨rfl, rfl, rfl, fun hs => hs.elim⟩

lemma broken (e : Engine) (cause : ConnectionError) : e.Calm (e.broken cause) :=
  ⟨rfl, rfl, rfl, fun hs => hs.elim⟩

lemma unresolved (hs : e.ctx.state ≠ .established) : e.Calm e.unresolved :=
  ⟨rfl, rfl, rfl, fun ht => absurd ht hs⟩

lemma react {rest : Signals} (hs : e.Synced) (hf : e'.ctx.peerFinSeen = false → e.heardFin = false)
    (hr : e'.ctx.received = e.ctx.received) (he : e'.ctx.expected = e.ctx.expected) :
    e.Calm (e'.react rest) := by
  refine ⟨by rw [react_ctx, hr], held_react _ _, inHand_react _ _, fun _ hn => ⟨hs, hf ?_, ?_⟩⟩
  · rwa [heardFin_react] at hn
  · rw [react_ctx, he]

lemma turn (hs : e.Synced) (hf : e.ctx.peerFinSeen = false → e.heardFin = false) :
    e.Calm e.turn := by
  refine ⟨rfl, held_turn e, inHand_turn e, fun _ hn => ⟨hs, hf ?_, rfl⟩⟩
  rwa [show e.turn.heardFin = _ from heardFin_resending e []] at hn

lemma resending {datagrams : List Bytes} (hs : e.Synced)
    (hf : e.ctx.peerFinSeen = false → e.heardFin = false) : e.Calm (e.resending datagrams) := by
  cases datagrams with
  | nil => exact turn hs hf
  | cons datagram more =>
    refine ⟨rfl, rfl, rfl, fun _ hn => ⟨hs, hf ?_, rfl⟩⟩
    rwa [heardFin_resending] at hn

lemma onSuccess {α : Type} {next : α → Engine} {outcome : Except IoError α}
    (h : ∀ a, e.Calm (next a)) : e.Calm (e.onSuccess next outcome) := by
  cases outcome with
  | error cause => exact fail e _
  | ok a => exact h a

lemma onOpening {next : Engine} {outcome : Except IoError Unit} (h : e.Calm next) :
    e.Calm (e.onOpening next outcome) := by
  cases outcome with
  | error cause => exact broken e _
  | ok u => exact h

end Engine.Calm

namespace Engine

variable {isn : SeqNum} {e : Engine} {data : Bytes}

lemma arrival_of {answer : Except IoError Bytes} {g : Segment}
    (hf : (Event.receive e.config.receiveCapacity answer).From isn data)
    (ha : e.arrival answer = .ok (some g)) : g.Of isn data := by
  cases answer with
  | error cause => cases ha
  | ok d =>
    obtain rfl | ⟨f, hf, rfl⟩ := hf
    · cases ha
    · obtain hl | hl := Nat.lt_or_ge f.encode.length e.config.receiveCapacity
      · rw [arrival_encode e hf.plain hl] at ha
        cases ha
        exact hf
      · rw [arrival_oversized e hl] at ha
        cases ha

end Engine

namespace Listening

variable {isn : SeqNum} {e e' : Engine} {data written : Bytes} {events : List Event}

lemma onReply {onSegment : Engine → Segment → Engine} {answer : Except IoError Bytes}
    (h : Listening isn e data written) (hs : e.ctx.state ≠ .established)
    (hf : (Event.receive e.config.receiveCapacity answer).From isn data)
    (hn : ∀ g, g.Of isn data → Listening isn (onSegment e g) data written) :
    Listening isn (e.onReply onSegment answer) data written := by
  rw [Engine.onReply]
  cases ha : e.arrival answer with
  | error cause => exact h.calm (.broken e cause)
  | ok found =>
    cases found with
    | none => exact h.calm (.unresolved hs)
    | some g => exact hn g (Engine.arrival_of hf ha)

lemma synced {g : Segment} (h : Listening isn e data written) (hg : g.header.seq = isn)
    (hz : e.ctx.received = 0) (hx : e'.ctx.expected = g.header.seq + 1)
    (hr : e'.ctx.received = e.ctx.received) (hh : e'.held = []) (hi : e'.inHand = []) :
    Listening isn e' data written := by
  refine ⟨h.count.trans hr.symm, ?_, by simp [hh], fun _ _ => ?_⟩
  · rw [hi, List.append_nil]
    exact (List.prefix_append written e.inHand).trans h.front
  · rw [hx, hg, hr, hz]
    rfl

lemma delivered {payload : Bytes} {rest : Signals}
    (h : Listening isn (e.goto (.deliver payload rest)) data written) :
    Listening isn { e with ctx := e.ctx.recordDelivered payload.length, point := .ackData rest }
      data (written ++ payload) := by
  refine ⟨?_, ?_, by simp [Engine.held], fun _ ht => ?_⟩
  · rw [List.length_append, h.count]
    rfl
  · simpa [Engine.inHand, Engine.goto] using h.front
  · have hx : e.ctx.expected = isn + UInt32.ofNat (1 + e.ctx.received) := h.expected trivial ht
    simp only [Context.recordDelivered]
    rw [hx, SeqNum.add_ofNat_add, Nat.add_assoc]

lemma prefix_of_inOrder {g : Segment} (hw : written <+: data) (hg : g.Of isn data)
    (hb : g.payload ≠ []) (hl : data.length < 2 ^ 32)
    (hs : g.header.seq = isn + UInt32.ofNat (1 + written.length)) :
    written ++ g.payload <+: data := by
  obtain ⟨before, after, hd, hseq⟩ := hg.part hb
  have hbefore : before.length < 2 ^ 32 := by
    rw [hd, List.length_append, List.length_append] at hl
    omega
  have hn : written.length = before.length := by
    rw [hs, ← SeqNum.add_ofNat_add, ← SeqNum.add_ofNat_add] at hseq
    exact (SeqNum.add_ofNat_inj _ (Nat.lt_of_le_of_lt hw.length_le hl) hbefore).mp hseq
  have hp : before <+: data := ⟨g.payload ++ after, by rw [hd, List.append_assoc]⟩
  have he : written = before :=
    (List.prefix_of_prefix_length_le hw hp (Nat.le_of_eq hn)).eq_of_length hn
  exact ⟨after, by rw [he, hd]⟩

lemma onContent {g : Segment} (hc : written.length = e.ctx.received) (hw : written <+: data)
    (hlink : e.ctx.Linked e.config.teardown) (hg : g.Of isn data) (hl : data.length < 2 ^ 32)
    (he : (e.ctx.peerFinSeen || g.header.flags.fin) = false →
      e.ctx.expected = isn + UInt32.ofNat (1 + e.ctx.received)) (rest : Signals) :
    Listening isn (e.onContent g rest) data written := by
  rw [Engine.onContent]
  split_ifs with hf ht
  · exact ⟨hc, by simpa [Engine.inHand] using hw, by simp [Engine.held], fun _ hn => by
      simp [Engine.heardFin] at hn⟩
  · simp only [Bool.and_eq_true, Bool.not_eq_true', List.isEmpty_eq_false_iff] at ht
    obtain ⟨⟨hb, ho⟩, hr⟩ := ht
    have hx : e.ctx.expected = isn + UInt32.ofNat (1 + e.ctx.received) :=
      he (by simp [hlink.unseen_of_canReceive hr, hf])
    refine ⟨hc, ?_, by simp [Engine.held, Engine.goto], fun _ _ => hx⟩
    apply prefix_of_inOrder hw hg hb hl
    rw [hc, ← hx]
    exact beq_iff_eq.mp ho
  · refine ⟨by rw [Engine.react_ctx, hc], by simpa using hw, by simp, fun _ hn => ?_⟩
    rw [Engine.react_ctx]
    rw [Engine.heardFin_react] at hn
    exact he (by simp [hn, hf])

lemma onSegment {g : Segment} (hc : written.length = e.ctx.received) (hw : written <+: data)
    (hlink : e.ctx.Linked e.config.teardown) (hg : g.Of isn data) (hl : data.length < 2 ^ 32)
    (he : e.ctx.peerFinSeen = false → e.ctx.expected = isn + UInt32.ofNat (1 + e.ctx.received))
    (rest : Signals) : Listening isn (e.onSegment g rest) data written := by
  rw [Engine.onSegment]
  split_ifs
  · refine ⟨hc, ?_, by simpa [Engine.held, Engine.goto] using hg, fun _ hn => he ?_⟩
    · simpa [Engine.inHand, Engine.goto] using hw
    simp only [Engine.heardFin, Engine.goto, Bool.or_eq_false_iff] at hn
    exact hn.1
  · refine onContent hc hw hlink hg hl (fun hn => he ?_) rest
    simp only [Bool.or_eq_false_iff] at hn
    exact hn.1

lemma still (h : Listening isn e' data written) (hw : Trace.written events = []) :
    Listening isn e' data (written ++ Trace.written events) := by
  rwa [hw, List.append_nil]

end Listening

lemma Request.Answered.written_transmit {τ : Type} {g : Segment} {next : Except IoError Unit → τ}
    {u : τ} {events : List Event} (h : (Request.transmit g next).Answered events u) :
    Trace.written events = [] ∧ ∃ outcome, u = next outcome := by
  obtain ⟨rfl, rfl⟩ | ⟨cause, rfl, rfl⟩ := h
  · exact ⟨rfl, .ok (), rfl⟩
  · exact ⟨rfl, .error cause, rfl⟩

theorem Listening.step {isn : SeqNum} {e e' : Engine} {data written : Bytes} {events : List Event}
    (h : Listening isn e data written) (hc : e.Coherent) (hs : e.Step events e')
    (hf : ∀ c ∈ events, c.From isn data) (hl : data.length < 2 ^ 32) :
    Listening isn e' data (written ++ Trace.written events) := by
  obtain ⟨config, ctx, thenLoop, point⟩ := e
  have hw : written <+: data := (List.prefix_append _ _).trans h.front
  -- Outside of the points that hold a FIN, the mark alone says whether one has been heard.
  have unheard (hp : ctx.peerFinSeen = false) : (ctx.peerFinSeen || false) = false := by
    simp [hp]
  cases point with
  | sendSyn =>
    obtain ⟨hn, outcome, rfl⟩ := Request.Answered.written_transmit hs
    exact .still (h.calm (.onOpening ⟨rfl, rfl, rfl, fun ht => ht.elim⟩)) hn
  | awaitSynAck =>
    obtain ⟨outcome, rfl, rfl⟩ := hs
    change ctx = _ at hc
    have hst : ctx.state ≠ .established := by
      rw [hc]
      simp
    refine .still (h.onReply hst (hf _ (List.mem_singleton.mpr rfl)) fun g hg => ?_) rfl
    rw [Engine.onSynAck]
    split_ifs with hsyn
    · simp only [Bool.and_eq_true] at hsyn
      exact h.synced (hg.syn hsyn.1) (by rw [hc]; rfl) rfl rfl rfl rfl
    · exact h.calm (.unresolved hst)
  | ackSynAck =>
    obtain ⟨hn, outcome, rfl⟩ := Request.Answered.written_transmit hs
    exact .still (h.calm (.onOpening ⟨rfl, rfl, rfl, fun _ ht => ⟨trivial, ht, rfl⟩⟩)) hn
  | awaitSyn =>
    obtain ⟨outcome, rfl, rfl⟩ := hs
    change ctx = _ at hc
    have hst : ctx.state ≠ .established := by
      rw [hc]
      simp
    refine .still (h.onReply hst (hf _ (List.mem_singleton.mpr rfl)) fun g hg => ?_) rfl
    rw [Engine.onSyn]
    split_ifs with hsyn
    · exact h.synced (hg.syn hsyn) (by rw [hc]; rfl) rfl rfl rfl rfl
    · exact h.calm (.unresolved hst)
  | sendSynAck =>
    obtain ⟨hn, outcome, rfl⟩ := Request.Answered.written_transmit hs
    exact .still (h.calm (.onOpening ⟨rfl, rfl, rfl, fun _ ht => ⟨trivial, ht, rfl⟩⟩)) hn
  | awaitFirstAck =>
    obtain ⟨outcome, rfl, rfl⟩ := hs
    obtain ⟨peer, hc⟩ := hc
    have hst : ctx.state ≠ .established := by
      rw [show ctx = _ from hc]
      simp
    refine .still (h.onReply hst (hf _ (List.mem_singleton.mpr rfl)) fun g hg => ?_) rfl
    rw [Engine.onFirstAck]
    split_ifs
    · exact h.calm ⟨rfl, rfl, rfl, fun _ ht => ⟨trivial, ht, rfl⟩⟩
    · exact h.calm (.unresolved hst)
  | unblock opened =>
    obtain ⟨rfl, rfl⟩ := hs
    refine .still (h.calm ?_) rfl
    cases opened with
    | error cause => exact .fail _ _
    | ok u =>
      simp only [Engine.opened]
      split_ifs with hst
      · exact .turn hst unheard
      · exact ⟨rfl, rfl, rfl, fun ht => ht.elim⟩
      · exact .fail _ _
  | wait =>
    obtain ⟨deadline, outcome, rfl, rfl⟩ := hs
    exact .still (h.calm (.onSuccess (fun _ => .react trivial unheard rfl rfl))) rfl
  | read rest =>
    obtain ⟨outcome, rfl, rfl⟩ := hs
    refine .still (h.calm (.onSuccess (fun data => ?_))) rfl
    split_ifs
    · exact .react trivial unheard rfl rfl
    · exact ⟨rfl, rfl, rfl, fun _ ht => ⟨trivial, ht, rfl⟩⟩
  | sendData payload rest =>
    obtain ⟨hn, outcome, rfl⟩ := Request.Answered.written_transmit hs
    exact .still (h.calm (.onSuccess (fun _ => .react trivial unheard rfl rfl))) hn
  | receive rest =>
    obtain ⟨outcome, rfl, rfl⟩ := hs
    refine .still ?_ rfl
    dsimp only
    split
    · exact h.calm (.fail _ _)
    · exact h.calm (.react trivial unheard rfl rfl)
    · rename_i g ha
      have hg : g.Of isn data := Engine.arrival_of (hf _ (List.mem_singleton.mpr rfl)) ha
      exact Listening.onSegment h.count hw hc.1 hg hl
        (fun hp => h.expected trivial (unheard hp)) rest
  | noteAck g rest =>
    obtain ⟨rfl, rfl⟩ := hs
    refine .still (Listening.onContent ?_ hw ?_ (h.held g ?_) hl (fun hn => ?_) rest) rfl
    · rw [Engine.received_onAck]
      exact h.count
    · rw [Engine.config_onAck]
      exact Engine.linked_onAck hc.1 g.header.ack
    · simp [Engine.held]
    · rw [Engine.peerFinSeen_onAck] at hn
      rw [Engine.received_onAck, Engine.expected_onAck]
      exact h.expected trivial hn
  | ackFin rest =>
    obtain ⟨hn, outcome, rfl⟩ := Request.Answered.written_transmit hs
    refine .still (h.calm (.onSuccess (fun _ => ?_))) hn
    obtain ⟨hh, -, -, hr⟩ := Engine.onFinAnswered_keeps ⟨config, ctx, thenLoop, .ackFin rest⟩ rest
    refine ⟨hr, Engine.held_onFinAnswered _ rest, Engine.inHand_onFinAnswered _ rest,
      fun _ ht => ?_⟩
    rw [hh] at ht
    cases ht
  | tellPeerClosed rest =>
    obtain ⟨rfl, rfl⟩ := hs
    obtain ⟨he, hr⟩ := Engine.closeIfTimeWait_keeps ⟨config, ctx, thenLoop, .tellPeerClosed rest⟩
    refine .still (h.calm (.react trivial (fun hp => unheard ?_) hr he)) rfl
    rwa [Engine.closeIfTimeWait_seen] at hp
  | deliver payload rest =>
    obtain ⟨outcome, rfl, rfl⟩ := hs
    cases outcome with
    | error cause => exact .still (h.calm (.fail _ _)) rfl
    | ok u =>
      rw [show Trace.written [.write payload (.ok u)] = payload from List.append_nil payload]
      exact Listening.delivered (e := ⟨config, ctx, thenLoop, .deliver payload rest⟩) h
  | ackData rest =>
    obtain ⟨hn, outcome, rfl⟩ := Request.Answered.written_transmit hs
    exact .still (h.calm (.onSuccess (fun _ => .react trivial unheard rfl rfl))) hn
  | sendFin =>
    obtain ⟨hn, outcome, rfl⟩ := Request.Answered.written_transmit hs
    refine .still (h.calm (.onSuccess (fun _ => ?_))) hn
    exact ⟨rfl, rfl, rfl, fun _ ht => ⟨trivial, ht, rfl⟩⟩
  | collectDue =>
    obtain ⟨datagrams, rfl, rfl⟩ := hs
    exact .still (h.calm (.resending trivial unheard)) rfl
  | resend datagram more =>
    obtain ⟨outcome, rfl, rfl⟩ := hs
    exact .still (h.calm (.onSuccess fun _ => .resending trivial unheard)) rfl
  | ended result => exact hs.elim

lemma Listening.start (config : Config) (peer isn : SeqNum) (role : Role) (data : Bytes) :
    Listening peer (Engine.run config (.new isn) role) data [] := by
  unfold Engine.run Engine.handshake
  cases config.validate with
  | error cause => exact ⟨rfl, List.nil_prefix, by simp [Engine.held], fun ht => ht.elim⟩
  | ok u => cases role <;> exact ⟨rfl, List.nil_prefix, by simp [Engine.held], fun ht => ht.elim⟩

end DatagramStream
