import DatagramStream.Proofs.Session.Opening

/-! The marks of a connection, its FINs and the end of the peer's direction agree with its state. -/

namespace DatagramStream

namespace Engine

variable {e e' : Engine} {t : Trace} {events : List Event}

@[simp] lemma owed_resending (e : Engine) (datagrams : List Bytes) :
    (e.resending datagrams).owed = {} := by
  cases datagrams with
  | nil => exact owed_turn e
  | cons datagram more => rfl

def Told (t : Trace) (e : Engine) : Prop :=
  t.closings + e.owed.closing = e.ctx.peerFinSeen.toNat

lemma Told.quiet (h : e.Told t) (hn : Trace.closings events = 0)
    (ho : e'.owed.closing = e.owed.closing) (hs : e'.ctx.peerFinSeen = e.ctx.peerFinSeen) :
    e'.Told (t ++ events) := by
  rw [Told, Trace.closings_append, hn, ho, hs]
  exact h

lemma owed_goto {p : Point} (hp : ∀ rest, p ≠ .tellPeerClosed rest) :
    (e.goto p).owed.closing = 0 := by
  cases p with
  | tellPeerClosed rest => exact absurd rfl (hp rest)
  | _ => rfl

lemma owed_of_finished (h : e.stage = .finished) : e.owed = {} := by
  obtain ⟨config, ctx, thenLoop, point⟩ := e
  cases point <;> first | rfl | cases h

lemma owed_loop (config : Config) (ctx : Context) : (loop config ctx).owed = {} := by
  rw [loop]
  split_ifs
  · exact owed_turn _
  · rfl

lemma Met.told (h : e.Met t) (hp : e.stage = .finished) : e.Told [] := by
  obtain ⟨syn, more, -, -, hctx⟩ := h.met
  rw [Told, owed_of_finished hp, hctx]
  rfl

lemma Told.again (h : e.Told t) (hp : e.stage = .finished) : (loop e.config e.ctx).Told t := by
  rw [Told, owed_of_finished hp] at h
  rw [Told, owed_loop, (stage_loop e.config e.ctx).2.2]
  exact h

lemma Told.onFinAnswered {rest : Signals} (h : (e.goto (.ackFin rest)).Told t)
    (hn : Trace.closings events = 0) : (e.onFinAnswered rest).Told (t ++ events) := by
  have h : t.closings = e.ctx.peerFinSeen.toNat := h
  rw [Told, Trace.closings_append, hn, h, Engine.onFinAnswered]
  split_ifs with hs
  · rw [owed_react, react_ctx, closeIfTimeWait_seen]
    rfl
  · have hs : e.ctx.peerFinSeen = false := by simpa using hs
    rw [hs]
    rfl

lemma Told.step (h : e.Told t) (hs : e.LoopStep events e') : e'.Told (t ++ events) := by
  cases hs with
  | wait | readNone | drop | ackData =>
    exact h.quiet rfl (by rw [owed_react]; rfl) (by rw [react_ctx]; rfl)
  | sendData => exact h.quiet rfl (by rw [owed_react]; rfl) (by rw [react_ctx]; rfl)
  | hear e rest good =>
    exact h.quiet rfl (by rw [owed_onSegment]; rfl) (by rw [ctx_onSegment]; rfl)
  | noteAck e g rest =>
    refine h.quiet rfl (by rw [owed_onContent]; rfl) ?_
    rw [ctx_onContent, peerFinSeen_onAck]
    rfl
  | ackFin e rest => exact h.onFinAnswered rfl
  | tellPeerClosed e rest =>
    rw [Told, Trace.closings_append, owed_react, react_ctx, closeIfTimeWait_seen]
    exact h
  | collectDue e datagrams | resend e datagrams _ =>
    exact h.quiet rfl (by rw [owed_resending]; rfl) (by rw [resending_ctx]; rfl)
  | readSome | deliver | refuse | sendFin => exact h.quiet rfl rfl rfl
  | @fail e p c cause may failure =>
    refine h.quiet ?_ (owed_goto (Point.ne_tellPeerClosed may)).symm rfl
    cases c <;> first | rfl | cases failure

end Engine

namespace Context.Linked

variable {c : Context} {t : Teardown}

lemma seen_iff (h : c.Linked t) :
    c.peerFinSeen = true ↔ c.state ∈ [State.closeWait, .lastAck, .closing, .timeWait, .closed] := by
  rw [h.seen]
  cases c.state <;> simp [State.finSeen]

lemma toNat_finSent (h : c.Linked t) :
    c.state.finSent.toNat = if c.state = .established ∨ c.state = .closeWait then 0 else 1 := by
  have hl := h.state
  revert hl
  cases c.state <;> simp [State.isLinked, State.finSent]

lemma done_iff (h : c.Linked t) :
    c.done = true ↔
      c.state = .timeWait ∨ c.state = .closed ∨ c.state = .finWait2 ∧ t = .awaitAck := by
  rw [h.done]
  cases c.state <;> simp [State.isOver]

end Context.Linked

namespace Session

variable {π σ : Type} {P : Policy π} {H : Host σ} {config : Config} {isn : SeqNum} {role : Role}
  {opening t : Trace} {m : Machine π σ}

lemma opened_met (h : Session P H config isn role opening t m) :
    opening.closings = 0 ∧ opening.finsSent = 0 := by
  induction h with
  | opened ho => exact ho.met.2.2.2.2.2
  | loop _ _ _ ih => exact ih

lemma told (h : Session P H config isn role opening t m) :
    m.engine.Told t ∧ t.finsSent = m.engine.ctx.state.finSent.toNat := by
  have hall := h.keeps (I := fun t e => e.Told t ∧ t.finsSent = e.ctx.state.finSent.toNat)
    (fun hm hended => ⟨hm.told hended, by rw [hm.finSent]; rfl⟩)
    (fun {t e} hended ht =>
      ⟨ht.1.again hended, by rw [(Engine.stage_loop e.config e.ctx).2.2, ht.2]⟩)
  apply (hall _).2.2.2
  rintro t e events e' hs - ⟨ht, hn⟩ he
  refine ⟨ht.step (hs.loopStep he), ?_⟩
  rw [Trace.finsSent_append, hn, Nat.add_comm]
  exact Engine.finsSent_step hs.coherent he

lemma sound (h : Session P H config isn role opening t m) :
    m.engine.Sound ∧ m.engine.config = config ∧ m.engine.ctx.isn = isn := by
  have hall := h.keeps (I := fun _ _ => True) (fun _ _ => trivial) (fun _ _ => trivial)
    (fun _ _ _ _ => trivial)
  exact ⟨hall.1, hall.2.1, hall.2.2.1⟩

/-- Wherever a turn begins and whenever a call has ended, well or not, the state tells the marks,
how many FINs have been sent and whether the application knows of the peer's. -/
theorem marks_agree (h : Session P H config isn role opening t m)
    (hp : m.engine.point = .wait ∨ m.engine.result?.isSome) :
    (m.engine.ctx.peerFinSeen = true ↔
        m.engine.ctx.state ∈ [State.closeWait, .lastAck, .closing, .timeWait, .closed]) ∧
      Trace.closings (opening ++ t) =
        (if m.engine.ctx.state ∈ [State.closeWait, .lastAck, .closing, .timeWait, .closed] then 1
          else 0) ∧
      Trace.finsSent (opening ++ t) =
        (if m.engine.ctx.state = .established ∨ m.engine.ctx.state = .closeWait then 0 else 1) ∧
      (m.engine.ctx.done = true ↔
        m.engine.ctx.state = .timeWait ∨ m.engine.ctx.state = .closed ∨
          m.engine.ctx.state = .finWait2 ∧ config.teardown = .awaitAck) := by
  obtain ⟨hclosings, hfins⟩ := h.opened_met
  obtain ⟨hs, hc, -⟩ := h.sound
  obtain ⟨htold, hsent⟩ := h.told
  obtain ⟨hl, ho⟩ : m.engine.ctx.Linked config.teardown ∧ m.engine.owed = {} := by
    rw [← hc]
    rcases hp with hp | hp
    · exact ⟨hs.linked_of_wait hp, by rw [Engine.owed, hp]⟩
    · have hended := Engine.stage_of_result hp
      exact ⟨hs.linked hended, Engine.owed_of_finished hended⟩
  refine ⟨hl.seen_iff, ?_, ?_, hl.done_iff⟩
  · have ht : t.closings = m.engine.ctx.peerFinSeen.toNat := by
      rw [Engine.Told, ho] at htold
      exact htold
    rw [Trace.closings_append, hclosings, ht, Nat.zero_add]
    split_ifs with hstate
    · rw [hl.seen_iff.mpr hstate]
      rfl
    · rw [show m.engine.ctx.peerFinSeen = false by simpa using mt hl.seen_iff.mp hstate]
      rfl
  · rw [Trace.finsSent_append, hfins, hsent, Nat.zero_add]
    exact hl.toNat_finSent

def troubled : Script where
  net := [Script.incoming .synOnly 1 0 [], Script.incoming .ackOnly 2 2 [],
    Script.incoming .finOnly 2 2 [], Script.incoming .finOnly 2 2 [], .error .scriptExhausted,
    Script.incoming .ackOnly 3 3 []]
  events := [.ok .network, .ok .network, .ok { closeRequested := true }, .ok .network]
  sendFaults := [none, some .networkUnreachable]

theorem marks_agree_troubled : ∃ opening t, ∃ m : Machine Unit Script,
    Session .inert Script.host {} 1 .passive opening t m ∧ m.engine.ctx.state = .closed ∧
      m.engine.ctx.peerFinSeen = true ∧ m.engine.ctx.done = true ∧
      Trace.closings (opening ++ t) = 1 ∧ Trace.finsSent (opening ++ t) = 1 := by
  let m₀ : Machine Unit Script := ⟨.handshake {} (.new 1) .passive, (), troubled⟩
  have hresult : (m₀.run .inert Script.host 20).1.engine.result? = some (.ok ()) := by
    simp only [m₀]
    rfl
  have h₁ := Session.opened ⟨⟨(), troubled, Machine.steps_run _ _ 20 m₀⟩, hresult⟩
  have h₂ := h₁.loop (by decide +kernel) (Machine.steps_run _ _ 20 _)
  have h₃ := h₂.loop (by decide +kernel) (Machine.steps_run _ _ 20 _)
  have h₄ := h₃.loop (by decide +kernel) (Machine.steps_run _ _ 20 _)
  obtain ⟨hseen, hclosings, hfins, hdone⟩ := marks_agree h₄ (.inr (by decide +kernel))
  refine ⟨_, _, _, h₄, ?_, hseen.mpr ?_, hdone.mpr (.inr (.inl ?_)), ?_, ?_⟩
  · decide +kernel
  · decide +kernel
  · decide +kernel
  · rw [hclosings, if_pos]
    decide +kernel
  · rw [hfins, if_neg]
    decide +kernel

end Session

end DatagramStream
