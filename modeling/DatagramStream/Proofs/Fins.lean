import DatagramStream.Proofs.Lifecycle

/-! How many FINs an engine has sent is told by its state, and a FIN that it has seen was received.
-/

namespace DatagramStream

namespace Context

lemma finSent_transition (c : Context) {t : Trigger} (hl : t ≠ .listen) (hy : t ≠ .sendSyn)
    (hf : t ≠ .sendFin) : (c.transition t).state.finSent = c.state.finSent := by
  obtain ⟨state, isn, next, expected, done, seen, sent, received⟩ := c
  cases t <;> cases state <;> simp_all [transition, State.next?, State.finSent]

end Context

lemma Segment.parse_of_ofBuffer {capacity : Nat} {b : Bytes} {s : Segment}
    (h : ofBuffer capacity b = .ok s) : parse b = .ok s := by
  rw [ofBuffer] at h
  split_ifs at h
  exact h

namespace Engine

variable {e e' : Engine} {events : List Event}

lemma plain_stamp (e : Engine) (flags : Flags) (payload : Bytes) : (e.stamp flags payload).Plain :=
  rfl

@[simp] lemma finSent_onAck (e : Engine) (ack : SeqNum) :
    (e.onAck ack).ctx.state.finSent = e.ctx.state.finSent := by
  rw [onAck]
  split_ifs
  · exact Context.finSent_transition e.ctx (by simp) (by simp) (by simp)
  · rfl

@[simp] lemma peerFinSeen_onAck (e : Engine) (ack : SeqNum) :
    (e.onAck ack).ctx.peerFinSeen = e.ctx.peerFinSeen := by
  rw [onAck]
  split_ifs <;> rfl

@[simp] lemma state_onContent (e : Engine) (s : Segment) (rest : Signals) :
    (e.onContent s rest).ctx.state = e.ctx.state := by
  rw [onContent]
  split_ifs
  · rfl
  · rfl
  · rw [react_ctx]

@[simp] lemma closeIfTimeWait_state (e : Engine) : e.closeIfTimeWait.ctx.state = e.ctx.state := by
  rw [closeIfTimeWait]
  split_ifs <;> rfl

@[simp] lemma closeIfTimeWait_seen (e : Engine) :
    e.closeIfTimeWait.ctx.peerFinSeen = e.ctx.peerFinSeen := by
  rw [closeIfTimeWait]
  split_ifs <;> rfl

@[simp] lemma resending_ctx (e : Engine) (datagrams : List Bytes) :
    (e.resending datagrams).ctx = e.ctx := by
  cases datagrams <;> rfl

lemma finSent_onFinAnswered (e : Engine) (rest : Signals) :
    (e.onFinAnswered rest).ctx.state.finSent = e.ctx.state.finSent := by
  rw [onFinAnswered]
  split_ifs
  · rw [react_ctx, closeIfTimeWait_state]
  · exact Context.finSent_transition { e.ctx with peerFinSeen := true }
      (by simp) (by simp) (by simp)

lemma finSent_onReply {onSegment : Engine → Segment → Engine} (answer : Except IoError Bytes)
    (h : ∀ s, (onSegment e s).ctx.state.finSent = e.ctx.state.finSent) :
    (e.onReply onSegment answer).ctx.state.finSent = e.ctx.state.finSent := by
  rw [onReply]
  cases e.arrival answer with
  | error cause => rfl
  | ok found =>
    cases found with
    | none => rfl
    | some s => exact h s

lemma finSent_onSuccess {α : Type} {next : α → Engine}
    (h : ∀ a, (next a).ctx.state.finSent = e.ctx.state.finSent) (outcome : Except IoError α) :
    (e.onSuccess next outcome).ctx.state.finSent = e.ctx.state.finSent := by
  cases outcome with
  | error cause => rfl
  | ok a => exact h a

lemma finsSent_transmit {τ : Type} {s : Segment} (hp : s.Plain) {next : Except IoError Unit → τ}
    {t : τ} (h : (Request.transmit s next).Answered events t) :
    (Trace.finsSent events = s.header.flags.fin.toNat ∧ t = next (.ok ())) ∨
      ∃ cause, Trace.finsSent events = 0 ∧ t = next (.error cause) := by
  obtain ⟨rfl, rfl⟩ | ⟨cause, rfl, rfl⟩ := h
  · have hf : Event.isFin (s.header.encode ++ s.payload) = s.header.flags.fin :=
      Event.isFin_encode hp
    refine .inl ⟨?_, rfl⟩
    cases hs : s.header.flags.fin <;> simp [Trace.finsSent, Event.sendsFin, hf, hs]
  · exact .inr ⟨cause, rfl, rfl⟩

lemma finsSent_transmit_other {τ : Type} {s : Segment} (hp : s.Plain)
    (hf : s.header.flags.fin = false) {next : Except IoError Unit → τ} {t : τ}
    (h : (Request.transmit s next).Answered events t) :
    Trace.finsSent events = 0 ∧ ∃ outcome, t = next outcome := by
  obtain ⟨hn, ht⟩ | ⟨cause, hn, ht⟩ := finsSent_transmit hp h
  · exact ⟨by rw [hn, hf]; rfl, .ok (), ht⟩
  · exact ⟨hn, .error cause, ht⟩

theorem finsSent_step (h : e.Coherent) (hs : e.Step events e') :
    Trace.finsSent events + e.ctx.state.finSent.toNat = e'.ctx.state.finSent.toNat := by
  obtain ⟨config, ctx, thenLoop, point⟩ := e
  suffices hk : (Trace.finsSent events = 0 ∧ e'.ctx.state.finSent = ctx.state.finSent) ∨
      (Trace.finsSent events = 1 ∧ ctx.state.finSent = false ∧ e'.ctx.state.finSent = true) by
    obtain ⟨hn, hc⟩ | ⟨hn, hb, ha⟩ := hk
    · rw [hn, hc, Nat.zero_add]
    · simp [hn, hb, ha]
  cases point with
  | sendSyn | sendSynAck =>
    obtain ⟨hn, outcome, rfl⟩ := finsSent_transmit_other (plain_stamp _ _ _) rfl hs
    exact .inl ⟨hn, by cases outcome <;> rfl⟩
  | ackSynAck =>
    obtain ⟨hn, outcome, rfl⟩ := finsSent_transmit_other (plain_stamp _ _ _) rfl hs
    refine .inl ⟨hn, ?_⟩
    cases outcome with
    | error cause => rfl
    | ok u => exact Context.finSent_transition ctx (by simp) (by simp) (by simp)
  | awaitSynAck =>
    obtain ⟨outcome, rfl, rfl⟩ := hs
    refine .inl ⟨rfl, finSent_onReply outcome fun s => ?_⟩
    rw [onSynAck]
    split_ifs <;> rfl
  | awaitSyn =>
    obtain ⟨outcome, rfl, rfl⟩ := hs
    refine .inl ⟨rfl, finSent_onReply outcome fun s => ?_⟩
    rw [onSyn]
    split_ifs
    · exact Context.finSent_transition { ctx with expected := _, next := _ }
        (by simp) (by simp) (by simp)
    · rfl
  | awaitFirstAck =>
    obtain ⟨outcome, rfl, rfl⟩ := hs
    refine .inl ⟨rfl, finSent_onReply outcome fun s => ?_⟩
    rw [onFirstAck]
    split_ifs
    · exact Context.finSent_transition { ctx with next := _ } (by simp) (by simp) (by simp)
    · rfl
  | unblock opened =>
    obtain ⟨rfl, rfl⟩ := hs
    refine .inl ⟨rfl, ?_⟩
    unfold Engine.opened
    split
    · rfl
    · split_ifs <;> rfl
  | wait =>
    obtain ⟨deadline, outcome, rfl, rfl⟩ := hs
    exact .inl ⟨rfl, finSent_onSuccess (fun ready => by rw [react_ctx]) outcome⟩
  | read rest =>
    obtain ⟨outcome, rfl, rfl⟩ := hs
    refine .inl ⟨rfl, finSent_onSuccess (fun data => ?_) outcome⟩
    split_ifs
    · rw [react_ctx]
    · rfl
  | sendData payload rest =>
    obtain ⟨hn, outcome, rfl⟩ := finsSent_transmit_other (plain_stamp _ _ _) rfl hs
    exact .inl ⟨hn, finSent_onSuccess (fun _ => by rw [react_ctx]; rfl) outcome⟩
  | receive rest =>
    obtain ⟨outcome, rfl, rfl⟩ := hs
    refine .inl ⟨rfl, ?_⟩
    dsimp only
    split
    · rfl
    · rw [react_ctx]
    · rw [onSegment]
      split_ifs
      · rfl
      · rw [state_onContent]
  | noteAck s rest =>
    obtain ⟨rfl, rfl⟩ := hs
    exact .inl ⟨rfl, by rw [state_onContent, finSent_onAck]⟩
  | ackFin rest =>
    obtain ⟨hn, outcome, rfl⟩ := finsSent_transmit_other (plain_stamp _ _ _) rfl hs
    exact .inl ⟨hn, finSent_onSuccess (fun _ => finSent_onFinAnswered _ rest) outcome⟩
  | tellPeerClosed rest =>
    obtain ⟨rfl, rfl⟩ := hs
    exact .inl ⟨rfl, by rw [react_ctx, closeIfTimeWait_state]⟩
  | deliver payload rest =>
    obtain ⟨outcome, rfl, rfl⟩ := hs
    refine .inl ⟨rfl, finSent_onSuccess (fun _ => ?_) outcome⟩
    rfl
  | ackData rest =>
    obtain ⟨hn, outcome, rfl⟩ := finsSent_transmit_other (plain_stamp _ _ _) rfl hs
    exact .inl ⟨hn, finSent_onSuccess (fun _ => by rw [react_ctx]) outcome⟩
  | sendFin =>
    obtain ⟨hn, rfl⟩ | ⟨cause, hn, rfl⟩ := finsSent_transmit (plain_stamp _ _ _) hs
    · obtain ⟨-, hc⟩ := h
      refine .inr ⟨hn, ?_⟩
      obtain ⟨state, isn, next, expected, done, seen, sent, received⟩ := ctx
      simp only at hc
      cases state <;> simp only [State.canSend, Bool.false_eq_true] at hc
      all_goals exact ⟨rfl, rfl⟩
    · exact .inl ⟨hn, rfl⟩
  | collectDue =>
    obtain ⟨datagrams, rfl, rfl⟩ := hs
    exact .inl ⟨rfl, by rw [resending_ctx]⟩
  | resend datagram more =>
    obtain ⟨outcome, rfl, rfl⟩ := hs
    exact .inl ⟨rfl, finSent_onSuccess (fun _ => by rw [resending_ctx]) outcome⟩
  | ended result => exact hs.elim

lemma finSent_of_finless (h : e.Coherent) (hs : e.Step events e') (hn : Trace.finsSent events = 0) :
    e'.ctx.state.finSent = e.ctx.state.finSent := by
  have hf := finsSent_step h hs
  rw [hn, Nat.zero_add] at hf
  cases hb : e.ctx.state.finSent <;> cases ha : e'.ctx.state.finSent <;> simp_all

def heardFin (e : Engine) : Bool :=
  e.ctx.peerFinSeen ||
    match e.point with
    | .noteAck s _ => s.header.flags.fin
    | .ackFin _ => true
    | _ => false

lemma heardFin_react (e : Engine) (rest : Signals) :
    (e.react rest).heardFin = e.ctx.peerFinSeen := by
  rw [react]
  split_ifs <;> simp [heardFin, goto]

lemma heardFin_resending (e : Engine) (datagrams : List Bytes) :
    (e.resending datagrams).heardFin = e.ctx.peerFinSeen := by
  cases datagrams with
  | nil =>
    rw [resending, turn]
    split_ifs <;> simp [heardFin, goto]
  | cons datagram more => simp [resending, heardFin, goto]

lemma heardFin_onContent (e : Engine) (s : Segment) (rest : Signals) :
    (e.onContent s rest).heardFin = (e.ctx.peerFinSeen || s.header.flags.fin) := by
  rw [onContent]
  split_ifs with hf
  · simp [heardFin, hf]
  · simp [heardFin, goto, hf]
  · simp [heardFin_react, hf]

lemma heardFin_onSegment (e : Engine) (s : Segment) (rest : Signals) :
    (e.onSegment s rest).heardFin = (e.ctx.peerFinSeen || s.header.flags.fin) := by
  rw [onSegment]
  split_ifs
  · rfl
  · exact heardFin_onContent e s rest

lemma heardFin_onSuccess {α : Type} {next : α → Engine} (outcome : Except IoError α)
    (h : ∀ a, (next a).heardFin = true → e.heardFin = true)
    (hs : (e.onSuccess next outcome).heardFin = true) : e.heardFin = true := by
  cases outcome with
  | error cause =>
    simp only [onSuccess, fail, goto, heardFin, Bool.or_false] at hs
    simp [heardFin, hs]
  | ok a => exact h a hs

lemma heardFin_onReply {onSegment : Engine → Segment → Engine} (answer : Except IoError Bytes)
    (h : ∀ s, (onSegment e s).heardFin = e.ctx.peerFinSeen) :
    (e.onReply onSegment answer).heardFin = e.ctx.peerFinSeen := by
  rw [onReply]
  cases e.arrival answer with
  | error cause => simp [broken, heardFin, goto]
  | ok found =>
    cases found with
    | none => simp [unresolved, heardFin, goto]
    | some s => exact h s

lemma isFin_of_arrival {answer : Except IoError Bytes} {s : Segment}
    (h : e.arrival answer = .ok (some s)) :
    ∃ data, answer = .ok data ∧ Event.isFin data = s.header.flags.fin := by
  unfold arrival at h
  split at h
  · cases h
  · cases h
  · rename_i data _
    split at h
    · cases h
    · rename_i hb
      cases h
      exact ⟨data, rfl, by rw [Event.isFin, Segment.parse_of_ofBuffer hb]⟩

theorem heardFin_step (hs : e.Step events e') (hn : e'.heardFin = true) :
    e.heardFin = true ∨ 0 < Trace.finsReceived events := by
  obtain ⟨config, ctx, thenLoop, point⟩ := e
  have seen {p : Point} (h : ctx.peerFinSeen = true) :
      heardFin ⟨config, ctx, thenLoop, p⟩ = true := by
    simp [heardFin, h]
  cases point with
  | sendSyn | sendSynAck | ackSynAck =>
    obtain ⟨outcome, rfl⟩ := Request.Answered.of_transmit hs
    exact .inl (seen (by cases outcome <;> simpa [onOpening, broken, goto, heardFin] using! hn))
  | awaitSynAck | awaitSyn | awaitFirstAck =>
    obtain ⟨outcome, rfl, rfl⟩ := hs
    refine .inl (seen ?_)
    rw [heardFin_onReply] at hn
    · exact hn
    · intro s
      simp only [onSynAck, onSyn, onFirstAck]
      split_ifs <;> simp [unresolved, heardFin, goto, Context.transition]
  | unblock opened =>
    obtain ⟨rfl, rfl⟩ := hs
    refine .inl (seen ?_)
    unfold Engine.opened turn at hn
    split at hn
    · simpa [fail, goto, heardFin] using hn
    · split_ifs at hn <;> simpa [fail, goto, heardFin] using hn
  | wait =>
    obtain ⟨deadline, outcome, rfl, rfl⟩ := hs
    exact .inl
      (heardFin_onSuccess outcome (fun ready hr => seen (by rwa [heardFin_react] at hr)) hn)
  | read rest =>
    obtain ⟨outcome, rfl, rfl⟩ := hs
    refine .inl (heardFin_onSuccess outcome (fun data hr => seen ?_) hn)
    split_ifs at hr
    · rwa [heardFin_react] at hr
    · simpa [goto, heardFin] using hr
  | sendData payload rest =>
    obtain ⟨outcome, rfl⟩ := Request.Answered.of_transmit hs
    exact .inl (heardFin_onSuccess outcome (fun _ hr => seen (by rwa [heardFin_react] at hr)) hn)
  | receive rest =>
    obtain ⟨outcome, rfl, rfl⟩ := hs
    dsimp only at hn
    split at hn
    · exact .inl (seen (by simpa [fail, goto, heardFin] using hn))
    · exact .inl (seen (by rwa [heardFin_react] at hn))
    · rename_i s ha
      rw [heardFin_onSegment, Bool.or_eq_true] at hn
      obtain hn | hn := hn
      · exact .inl (seen hn)
      · obtain ⟨data, rfl, hd⟩ := isFin_of_arrival ha
        right
        simp [Trace.finsReceived, Event.receivesFin, hd, hn]
  | noteAck s rest =>
    obtain ⟨rfl, rfl⟩ := hs
    rw [heardFin_onContent, peerFinSeen_onAck] at hn
    exact .inl hn
  | ackFin rest => exact .inl (by simp [heardFin])
  | tellPeerClosed rest =>
    obtain ⟨rfl, rfl⟩ := hs
    rw [heardFin_react, closeIfTimeWait_seen] at hn
    exact .inl (seen hn)
  | deliver payload rest =>
    obtain ⟨outcome, rfl, rfl⟩ := hs
    exact .inl (heardFin_onSuccess outcome
      (fun _ hr => seen (by simpa [heardFin, Context.recordDelivered] using hr)) hn)
  | ackData rest =>
    obtain ⟨outcome, rfl⟩ := Request.Answered.of_transmit hs
    exact .inl (heardFin_onSuccess outcome (fun _ hr => seen (by rwa [heardFin_react] at hr)) hn)
  | sendFin =>
    obtain ⟨outcome, rfl⟩ := Request.Answered.of_transmit hs
    exact .inl (heardFin_onSuccess outcome
      (fun _ hr => seen (by simpa [heardFin, Context.recordSent, Context.transition] using hr)) hn)
  | collectDue =>
    obtain ⟨datagrams, rfl, rfl⟩ := hs
    rw [heardFin_resending] at hn
    exact .inl (seen hn)
  | resend datagram more =>
    obtain ⟨outcome, rfl, rfl⟩ := hs
    exact .inl
      (heardFin_onSuccess outcome (fun _ hr => seen (by rwa [heardFin_resending] at hr)) hn)
  | ended result => exact hs.elim

end Engine

end DatagramStream
