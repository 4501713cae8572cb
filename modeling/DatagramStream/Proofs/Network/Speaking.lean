import DatagramStream.Proofs.Frame

/-! What a side puts on a network says where its bytes stand among those that its application has
supplied. -/

namespace DatagramStream

structure Segment.Of (isn : SeqNum) (data : Bytes) (g : Segment) : Prop where
  plain : g.Plain
  syn : g.header.flags.syn = true → g.header.seq = isn
  part : g.payload ≠ [] → ∃ before after, data = before ++ g.payload ++ after ∧
    g.header.seq = isn + UInt32.ofNat (1 + before.length)

lemma Segment.Of.mono {isn : SeqNum} {data : Bytes} {g : Segment} (h : g.Of isn data)
    (more : Bytes) : g.Of isn (data ++ more) := by
  refine ⟨h.plain, h.syn, fun hb => ?_⟩
  obtain ⟨before, after, rfl, hs⟩ := h.part hb
  exact ⟨before, after ++ more, by simp only [List.append_assoc], hs⟩

def Event.Smooth : Event → Prop
  | .send _ _ outcome => outcome = .ok ()
  | .due datagrams => datagrams = []
  | _ => True

structure Speaking (isn : SeqNum) (e : Engine) (t : Trace) : Prop where
  isn_eq : e.ctx.isn = isn
  front : ∃ front, t.read = front ++ e.owed.bytes ∧ front.length = e.ctx.sent
  uttered : ∀ d ∈ t.datagrams, ∃ g : Segment, d = g.encode ∧ g.Of isn t.read
  noResend : ∀ d more, e.point ≠ .resend d more

namespace Speaking

variable {isn : SeqNum} {e e' : Engine} {t : Trace} {events : List Event}

lemma extend (h : Speaking isn e t) (hi : e'.ctx.isn = e.ctx.isn)
    (hf : ∃ front,
      t.read ++ Trace.read events = front ++ e'.owed.bytes ∧ front.length = e'.ctx.sent)
    (hu : ∀ d ∈ Trace.datagrams events,
      ∃ g : Segment, d = g.encode ∧ g.Of isn (t.read ++ Trace.read events))
    (hn : ∀ d more, e'.point ≠ .resend d more) : Speaking isn e' (t ++ events) := by
  refine ⟨hi.trans h.isn_eq, ?_, fun d hd => ?_, hn⟩
  · rw [Trace.read_append]
    exact hf
  · rw [Trace.datagrams_append] at hd
    rw [Trace.read_append]
    obtain hd | hd := List.mem_append.mp hd
    · obtain ⟨g, rfl, hg⟩ := h.uttered d hd
      exact ⟨g, rfl, hg.mono _⟩
    · exact hu d hd

end Speaking

structure Engine.Quiet (e e' : Engine) : Prop where
  isn : e'.ctx.isn = e.ctx.isn
  sent : e'.ctx.sent = e.ctx.sent
  owed : e'.owed.bytes = []
  noResend : ∀ d more, e'.point ≠ .resend d more

namespace Engine.Quiet

variable {e e' e'' : Engine}

lemma trans (h : e.Quiet e') (h' : e'.Quiet e'') : e.Quiet e'' :=
  ⟨h'.isn.trans h.isn, h'.sent.trans h.sent, h'.owed, h'.noResend⟩

lemma react (e : Engine) (rest : Signals) : e.Quiet (e.react rest) := by
  rw [Engine.react]
  split_ifs <;> exact ⟨rfl, rfl, rfl, by simp [goto]⟩

lemma turn (e : Engine) : e.Quiet e.turn := by
  rw [Engine.turn]
  split_ifs <;> exact ⟨rfl, rfl, rfl, by simp [goto]⟩

lemma fail (e : Engine) (cause : ConnectionError) : e.Quiet (e.fail cause) :=
  ⟨rfl, rfl, rfl, by simp [Engine.fail, goto]⟩

lemma onContent (e : Engine) (g : Segment) (rest : Signals) : e.Quiet (e.onContent g rest) := by
  rw [Engine.onContent]
  split_ifs
  · exact ⟨rfl, rfl, rfl, by simp⟩
  · exact ⟨rfl, rfl, rfl, by simp [goto]⟩
  · exact react e rest

lemma onSegment (e : Engine) (g : Segment) (rest : Signals) : e.Quiet (e.onSegment g rest) := by
  rw [Engine.onSegment]
  split_ifs
  · exact ⟨rfl, rfl, rfl, by simp [goto]⟩
  · exact onContent e g rest

lemma onAck (ack : SeqNum) (ho : e.owed.bytes = []) (hn : ∀ d more, e.point ≠ .resend d more) :
    e.Quiet (e.onAck ack) := by
  rw [Engine.onAck]
  split_ifs
  · exact ⟨rfl, rfl, ho, hn⟩
  · exact ⟨rfl, rfl, ho, hn⟩

lemma onFinAnswered (e : Engine) (rest : Signals) : e.Quiet (e.onFinAnswered rest) := by
  rw [Engine.onFinAnswered, closeIfTimeWait]
  split_ifs
  · have h := react { e with ctx := { e.ctx with done := true } } rest
    exact ⟨h.isn, h.sent, h.owed, h.noResend⟩
  · exact react e rest
  · exact ⟨rfl, rfl, rfl, by simp⟩

lemma onReply {onSegment : Engine → Segment → Engine} (answer : Except IoError Bytes)
    (h : ∀ g, e.Quiet (onSegment e g)) : e.Quiet (e.onReply onSegment answer) := by
  rw [Engine.onReply]
  cases e.arrival answer with
  | error cause => exact ⟨rfl, rfl, rfl, by simp [broken, goto]⟩
  | ok found =>
    cases found with
    | none => exact ⟨rfl, rfl, rfl, by simp [unresolved, goto]⟩
    | some g => exact h g

lemma onSuccess {α : Type} {next : α → Engine} (h : ∀ a, e.Quiet (next a))
    (outcome : Except IoError α) : e.Quiet (e.onSuccess next outcome) := by
  cases outcome with
  | error cause => exact fail e _
  | ok a => exact h a

end Engine.Quiet

namespace Speaking

variable {isn : SeqNum} {e e' : Engine} {t : Trace} {events : List Event}

lemma still (h : Speaking isn e t) (hr : Trace.read events = []) (hd : Trace.datagrams events = [])
    (ho : e.owed.bytes = []) (hq : e.Quiet e') : Speaking isn e' (t ++ events) := by
  refine h.extend hq.isn ?_ (by simp [hd]) hq.noResend
  obtain ⟨front, hf, hl⟩ := h.front
  exact ⟨front, by rw [hr, List.append_nil, hf, ho, hq.owed], hl.trans hq.sent.symm⟩

lemma pure {g : Segment} (h : Speaking isn e t)
    (he : events = [.send g.header.encode g.payload (.ok ()), .onSend g])
    (hg : g.Of isn t.read) (ho : e.owed.bytes = []) (hq : e.Quiet e') :
    Speaking isn e' (t ++ events) := by
  subst he
  refine h.extend hq.isn ?_ (fun d hd => ?_) hq.noResend
  · obtain ⟨front, hf, hl⟩ := h.front
    rw [ho] at hf
    exact ⟨front, by rw [hq.owed, ← hf]; exact List.append_nil _, hl.trans hq.sent.symm⟩
  · obtain rfl := List.mem_singleton.mp hd
    exact ⟨g, rfl, hg.mono _⟩

end Speaking

lemma Engine.stamp_of (e : Engine) (flags : Flags) (hf : flags.syn = false) (isn : SeqNum)
    (data : Bytes) : (e.stamp flags []).Of isn data :=
  ⟨rfl, fun hs => absurd (hf.symm.trans hs) (by simp), fun hb => absurd rfl hb⟩

lemma Engine.stamp_syn_of {e : Engine} (flags : Flags) {isn : SeqNum} (hn : e.ctx.next = isn)
    (data : Bytes) : (e.stamp flags []).Of isn data :=
  ⟨rfl, fun _ => hn, fun hb => absurd rfl hb⟩

lemma Request.Answered.of_smooth {τ : Type} {g : Segment} {next : Except IoError Unit → τ} {u : τ}
    {events : List Event} (h : (Request.transmit g next).Answered events u)
    (hs : ∀ c ∈ events, Event.Smooth c) :
    events = [.send g.header.encode g.payload (.ok ()), .onSend g] ∧ u = next (.ok ()) := by
  obtain h | ⟨cause, rfl, -⟩ := h
  · exact h
  · have hk := hs _ (List.mem_singleton.mpr rfl)
    cases hk

lemma Speaking.data {isn : SeqNum} {e e' : Engine} {t : Trace} {events : List Event}
    {payload : Bytes} {rest : Signals} (h : Speaking isn (e.goto (.sendData payload rest)) t)
    (hl : e.ctx.Linked e.config.teardown) (hc : e.ctx.state.canSend = true)
    (he : events = [.send (e.stamp .ackOnly payload).header.encode payload (.ok ()),
      .onSend (e.stamp .ackOnly payload)])
    (hn : e' = { e with ctx := e.ctx.recordSent .ackOnly payload.length }.react rest) :
    Speaking isn e' (t ++ events) := by
  subst he hn
  obtain ⟨front, hf, hlen⟩ := h.front
  have hf : t.read = front ++ payload := hf
  have hlen : front.length = e.ctx.sent := hlen
  have hi : e.ctx.isn = isn := h.isn_eq
  have hq := Engine.Quiet.react { e with ctx := e.ctx.recordSent .ackOnly payload.length } rest
  refine h.extend hq.isn ⟨front ++ payload, ?_, ?_⟩ (fun d hd => ?_) hq.noResend
  · rw [hq.owed, hf, List.append_nil]
    exact List.append_nil _
  · rw [hq.sent, List.length_append, hlen]
    rfl
  · obtain rfl := List.mem_singleton.mp hd
    have hsyn : (e.stamp .ackOnly payload).header.flags.syn = false := rfl
    refine ⟨e.stamp .ackOnly payload, rfl, ⟨rfl, fun hs => ?_, fun _ => ⟨front, [], ?_, ?_⟩⟩⟩
    · rw [hsyn] at hs
      cases hs
    · rw [hf]
      simp [Engine.stamp, Trace.read, Event.readBytes]
    · change e.ctx.next = _
      rw [hl.next, Context.position, State.finSent_of_canSend hc, hi, hlen]
      rfl

theorem Speaking.step {isn : SeqNum} {e e' : Engine} {t : Trace} {events : List Event}
    (h : Speaking isn e t) (hc : e.Coherent) (hs : e.Step events e') (hk : ∀ c ∈ events, c.Smooth) :
    Speaking isn e' (t ++ events) := by
  obtain ⟨config, ctx, thenLoop, point⟩ := e
  have hi : ctx.isn = isn := h.isn_eq
  cases point with
  | sendSyn =>
    obtain ⟨he, rfl⟩ := Request.Answered.of_smooth hs hk
    change ctx = _ at hc
    refine h.pure he (Engine.stamp_syn_of .synOnly ?_ _) rfl
      ⟨rfl, rfl, rfl, by simp [Engine.goto, Engine.onOpening]⟩
    change ctx.next = isn
    rw [hc, ← hi]
    rfl
  | sendSynAck =>
    obtain ⟨he, rfl⟩ := Request.Answered.of_smooth hs hk
    obtain ⟨peer, hc⟩ := hc
    refine h.pure he (Engine.stamp_syn_of .synAck ?_ _) rfl
      ⟨rfl, rfl, rfl, by simp [Engine.goto, Engine.onOpening]⟩
    change ctx.next = isn
    rw [show ctx = _ from hc, ← hi]
  | ackSynAck =>
    obtain ⟨he, rfl⟩ := Request.Answered.of_smooth hs hk
    exact h.pure he (Engine.stamp_of _ .ackOnly rfl _ _) rfl ⟨rfl, rfl,
      rfl, by simp [Engine.onOpening]⟩
  | awaitSynAck =>
    obtain ⟨outcome, rfl, rfl⟩ := hs
    refine h.still rfl rfl rfl (.onReply outcome fun g => ?_)
    rw [Engine.onSynAck]
    split_ifs
    · exact ⟨rfl, rfl, rfl, by simp⟩
    · exact ⟨rfl, rfl, rfl, by simp [Engine.unresolved, Engine.goto]⟩
  | awaitSyn =>
    obtain ⟨outcome, rfl, rfl⟩ := hs
    refine h.still rfl rfl rfl (.onReply outcome fun g => ?_)
    rw [Engine.onSyn]
    split_ifs
    · exact ⟨rfl, rfl, rfl, by simp⟩
    · exact ⟨rfl, rfl, rfl, by simp [Engine.unresolved, Engine.goto]⟩
  | awaitFirstAck =>
    obtain ⟨outcome, rfl, rfl⟩ := hs
    refine h.still rfl rfl rfl (.onReply outcome fun g => ?_)
    rw [Engine.onFirstAck]
    split_ifs
    · exact ⟨rfl, rfl, rfl, by simp⟩
    · exact ⟨rfl, rfl, rfl, by simp [Engine.unresolved, Engine.goto]⟩
  | unblock opened =>
    obtain ⟨rfl, rfl⟩ := hs
    apply h.still rfl rfl rfl
    unfold Engine.opened
    split
    · exact .fail _ _
    · split_ifs
      · exact .turn _
      · exact ⟨rfl, rfl, rfl, by simp [Engine.goto]⟩
      · exact .fail _ _
  | wait =>
    obtain ⟨deadline, outcome, rfl, rfl⟩ := hs
    exact h.still rfl rfl rfl (.onSuccess (fun _ => .react _ _) outcome)
  | read rest =>
    obtain ⟨outcome, rfl, rfl⟩ := hs
    cases outcome with
    | error cause => exact h.still rfl rfl rfl (.fail _ _)
    | ok data =>
      cases data with
      | nil => exact h.still rfl rfl rfl (.react _ rest)
      | cons x data =>
        obtain ⟨front, hf, hl⟩ := h.front
        refine h.extend rfl ⟨front, ?_, hl⟩ (by simp [Trace.datagrams, Event.datagram?])
          (by simp [Engine.onSuccess, Engine.goto])
        rw [hf]
        simp [Engine.owed, Engine.onSuccess, Engine.goto, Trace.read, Event.readBytes]
  | sendData payload rest =>
    obtain ⟨he, rfl⟩ := Request.Answered.of_smooth hs hk
    obtain ⟨hl, hcan, -⟩ := hc
    exact Speaking.data (e := ⟨config, ctx, thenLoop, .sendData payload rest⟩) h hl hcan he rfl
  | receive rest =>
    obtain ⟨outcome, rfl, rfl⟩ := hs
    apply h.still rfl rfl rfl
    dsimp only
    split
    · exact .fail _ _
    · exact .react _ rest
    · exact .onSegment _ _ rest
  | noteAck g rest =>
    obtain ⟨rfl, rfl⟩ := hs
    apply h.still rfl rfl rfl
    exact (Engine.Quiet.onAck g.header.ack rfl (by simp)).trans (.onContent _ g rest)
  | ackFin rest =>
    obtain ⟨he, rfl⟩ := Request.Answered.of_smooth hs hk
    exact h.pure he (Engine.stamp_of _ .ackOnly rfl _ _) rfl (.onFinAnswered _ rest)
  | tellPeerClosed rest =>
    obtain ⟨rfl, rfl⟩ := hs
    apply h.still rfl rfl rfl
    rw [Engine.closeIfTimeWait]
    split_ifs
    · have hq := Engine.Quiet.react
        ⟨config, { ctx with done := true }, thenLoop, .tellPeerClosed rest⟩ rest
      exact ⟨hq.isn, hq.sent, hq.owed, hq.noResend⟩
    · exact .react _ rest
  | deliver payload rest =>
    obtain ⟨outcome, rfl, rfl⟩ := hs
    refine h.still rfl rfl rfl (.onSuccess (fun _ => ?_) outcome)
    exact ⟨rfl, rfl, rfl, by simp⟩
  | ackData rest =>
    obtain ⟨he, rfl⟩ := Request.Answered.of_smooth hs hk
    exact h.pure he (Engine.stamp_of _ .ackOnly rfl _ _) rfl (.react _ rest)
  | sendFin =>
    obtain ⟨he, rfl⟩ := Request.Answered.of_smooth hs hk
    exact h.pure he (Engine.stamp_of _ .finOnly rfl _ _) rfl ⟨rfl, rfl,
      rfl, by simp [Engine.onSuccess]⟩
  | collectDue =>
    obtain ⟨datagrams, rfl, rfl⟩ := hs
    obtain rfl : datagrams = [] := hk _ (List.mem_singleton.mpr rfl)
    exact h.still rfl rfl rfl (.turn _)
  | resend datagram more => exact absurd rfl (h.noResend datagram more)
  | ended result => exact hs.elim

lemma Speaking.start (config : Config) (isn : SeqNum) (role : Role) :
    Speaking isn (Engine.run config (.new isn) role) [] := by
  unfold Engine.run Engine.handshake
  cases config.validate with
  | error cause => exact ⟨rfl, ⟨[], rfl, rfl⟩, by simp [Trace.datagrams], by simp⟩
  | ok u => cases role <;> exact ⟨rfl, ⟨[], rfl, rfl⟩, by simp [Trace.datagrams], by simp⟩

end DatagramStream
