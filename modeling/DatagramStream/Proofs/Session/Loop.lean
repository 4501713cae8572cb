import DatagramStream.Proofs.Frame

/-! The steps of the control loop, one for each thing that it can do, under any surroundings. -/

namespace DatagramStream

inductive Stage where
  | opening
  | serving
  | finished
  deriving DecidableEq

def Segment.transmitted (g : Segment) : List Event :=
  [.send g.header.encode g.payload (.ok ()), .onSend g]

def Event.isFailure : Event → Bool
  | .send _ _ (.error _) | .resend _ _ (.error _) | .receive _ (.error _) | .receive _ (.ok []) =>
    true
  | .read _ (.error _) | .wait _ _ (.error _) => true
  | _ => false

def Point.mayFail : Point → Bool
  | wait | read _ | sendData _ _ | receive _ | ackFin _ | ackData _ | sendFin | resend _ _ => true
  | _ => false

lemma Point.ne_tellPeerClosed {p : Point} (h : p.mayFail = true) (rest : Signals) :
    p ≠ .tellPeerClosed rest := by
  rintro rfl
  cases h

namespace Engine

def stage (e : Engine) : Stage :=
  match e.point with
  | .sendSyn | .awaitSynAck | .ackSynAck | .awaitSyn | .sendSynAck | .awaitFirstAck => .opening
  | .unblock _ => .opening
  | .ended _ => .finished
  | _ => .serving

@[simp] lemma stage_react (e : Engine) (rest : Signals) : (e.react rest).stage = .serving := by
  rw [react]
  split_ifs <;> rfl

@[simp] lemma stage_onContent (e : Engine) (g : Segment) (rest : Signals) :
    (e.onContent g rest).stage = .serving := by
  rw [onContent]
  split_ifs
  · rfl
  · rfl
  · exact stage_react e rest

@[simp] lemma stage_onSegment (e : Engine) (g : Segment) (rest : Signals) :
    (e.onSegment g rest).stage = .serving := by
  rw [onSegment]
  split_ifs
  · rfl
  · exact stage_onContent e g rest

@[simp] lemma stage_onFinAnswered (e : Engine) (rest : Signals) :
    (e.onFinAnswered rest).stage = .serving := by
  rw [onFinAnswered]
  split_ifs
  · exact stage_react _ rest
  · rfl

lemma stage_turn (e : Engine) : e.turn.stage = if e.ctx.done then .finished else .serving := by
  rw [turn]
  split_ifs <;> rfl

lemma stage_resending (e : Engine) (datagrams : List Bytes) :
    (e.resending datagrams).stage = .serving ∨ (e.resending datagrams).stage = .finished := by
  cases datagrams with
  | nil =>
    rw [resending, stage_turn]
    split_ifs
    · exact .inr rfl
    · exact .inl rfl
  | cons datagram more => exact .inl rfl

lemma stage_loop (config : Config) (ctx : Context) :
    (loop config ctx).stage ≠ .opening ∧ (loop config ctx).config = config ∧
      (loop config ctx).ctx = ctx := by
  rw [loop]
  split_ifs
  · rw [stage_turn]
    split_ifs <;> exact ⟨by simp, rfl, rfl⟩
  · exact ⟨by simp [fail, goto, stage], rfl, rfl⟩

lemma ctx_onAck (e : Engine) (ack : SeqNum) : (e.onAck ack).ctx =
    { e.ctx with state := (e.onAck ack).ctx.state, done := (e.onAck ack).ctx.done } := by
  rw [onAck]
  split_ifs <;> rfl

lemma ctx_onContent (e : Engine) (g : Segment) (rest : Signals) : (e.onContent g rest).ctx =
    { e.ctx with expected := (e.onContent g rest).ctx.expected } := by
  rw [onContent]
  split_ifs
  · rfl
  · rfl
  · rw [react_ctx]

lemma ctx_onSegment (e : Engine) (g : Segment) (rest : Signals) : (e.onSegment g rest).ctx =
    { e.ctx with expected := (e.onSegment g rest).ctx.expected } := by
  rw [onSegment]
  split_ifs
  · rfl
  · exact ctx_onContent e g rest

lemma ctx_closeIfTimeWait (e : Engine) :
    e.closeIfTimeWait.ctx = { e.ctx with done := e.closeIfTimeWait.ctx.done } := by
  rw [closeIfTimeWait]
  split_ifs <;> rfl

lemma sent_onFinAnswered (e : Engine) (rest : Signals) :
    (e.onFinAnswered rest).ctx.sent = e.ctx.sent := by
  rw [onFinAnswered]
  split_ifs
  · rw [react_ctx, ctx_closeIfTimeWait]
  · rfl

inductive LoopStep : Engine → List Event → Engine → Prop
  | wait (e : Engine) (deadline : Option Millis) (ready : Signals) :
      LoopStep (e.goto .wait) [.wait e.interest deadline (.ok ready)]
        (e.react (ready.inter e.interest))
  | readNone (e : Engine) (rest : Signals) :
      LoopStep (e.goto (.read rest)) [.read e.config.payloadLimit (.ok [])] (e.react rest)
  | readSome (e : Engine) (rest : Signals) {payload : Bytes} (some : payload ≠ []) :
      LoopStep (e.goto (.read rest)) [.read e.config.payloadLimit (.ok payload)]
        (e.goto (.sendData payload rest))
  | sendData (e : Engine) (payload : Bytes) (rest : Signals) :
      LoopStep (e.goto (.sendData payload rest)) (e.stamp .ackOnly payload).transmitted
        ({ e with ctx := e.ctx.recordSent .ackOnly payload.length }.react rest)
  | drop (e : Engine) (rest : Signals) {d : Bytes} {cause : SegmentError} (some : d ≠ [])
      (bad : Segment.ofBuffer e.config.receiveCapacity d = .error cause) :
      LoopStep (e.goto (.receive rest)) [.receive e.config.receiveCapacity (.ok d)] (e.react rest)
  | hear (e : Engine) (rest : Signals) {d : Bytes} {g : Segment}
      (good : Segment.ofBuffer e.config.receiveCapacity d = .ok g) :
      LoopStep (e.goto (.receive rest)) [.receive e.config.receiveCapacity (.ok d)]
        (e.onSegment g rest)
  | noteAck (e : Engine) (g : Segment) (rest : Signals) :
      LoopStep (e.goto (.noteAck g rest)) [.onAck g.header.ack]
        ((e.onAck g.header.ack).onContent g rest)
  | ackFin (e : Engine) (rest : Signals) :
      LoopStep (e.goto (.ackFin rest)) (e.stamp .ackOnly []).transmitted (e.onFinAnswered rest)
  | tellPeerClosed (e : Engine) (rest : Signals) :
      LoopStep (e.goto (.tellPeerClosed rest)) [.peerClosed] (e.closeIfTimeWait.react rest)
  | deliver (e : Engine) (payload : Bytes) (rest : Signals) :
      LoopStep (e.goto (.deliver payload rest)) [.write payload (.ok ())]
        { e with ctx := e.ctx.recordDelivered payload.length, point := .ackData rest }
  | refuse (e : Engine) (payload : Bytes) (rest : Signals) (cause : IoError) :
      LoopStep (e.goto (.deliver payload rest)) [.write payload (.error cause)] (e.fail (.io cause))
  | ackData (e : Engine) (rest : Signals) :
      LoopStep (e.goto (.ackData rest)) (e.stamp .ackOnly []).transmitted (e.react rest)
  | sendFin (e : Engine) :
      LoopStep (e.goto .sendFin) (e.stamp .finOnly []).transmitted
        { e with
          ctx := (e.ctx.recordSent .finOnly 0).transition .sendFin
          point := .receive .empty }
  | collectDue (e : Engine) (datagrams : List Bytes) :
      LoopStep (e.goto .collectDue) [.due datagrams] (e.resending datagrams)
  | resend (e : Engine) (datagram : Bytes) (more : List Bytes) :
      LoopStep (e.goto (.resend datagram more))
        [.resend (datagram.take headerLength) (datagram.drop headerLength) (.ok ())]
        (e.resending more)
  | fail (e : Engine) {p : Point} {c : Event} (cause : ConnectionError) (may : p.mayFail = true)
      (failure : c.isFailure = true) : LoopStep (e.goto p) [c] (e.fail cause)

variable {e e' : Engine} {events : List Event}

lemma arrival_cases (e : Engine) (d : Bytes) :
    (d = [] ∧ e.arrival (.ok d) = .error .channelClosed) ∨
      (∃ cause, d ≠ [] ∧ Segment.ofBuffer e.config.receiveCapacity d = .error cause ∧
        e.arrival (.ok d) = .ok none) ∨
      ∃ g, Segment.ofBuffer e.config.receiveCapacity d = .ok g ∧
        e.arrival (.ok d) = .ok (some g) := by
  cases d with
  | nil => exact .inl ⟨rfl, rfl⟩
  | cons x d =>
    right
    simp only [arrival]
    cases h : Segment.ofBuffer e.config.receiveCapacity (x :: d) with
    | error cause => exact .inl ⟨cause, by simp, rfl, rfl⟩
    | ok g => exact .inr ⟨g, rfl, rfl⟩

theorem loopStep_of_step (hp : e.stage = .serving) (hs : e.Step events e') :
    e.LoopStep events e' := by
  obtain ⟨config, ctx, thenLoop, point⟩ := e
  let e : Engine := ⟨config, ctx, thenLoop, .wait⟩
  have sends {g : Segment} {p : Point} {next : Engine} (hq : p.mayFail = true)
      (hn : LoopStep (e.goto p) g.transmitted next)
      (ha : (Request.transmit g (onSuccess (e.goto p) fun _ => next)).Answered events e') :
      LoopStep (e.goto p) events e' := by
    obtain ⟨rfl, rfl⟩ | ⟨cause, rfl, rfl⟩ := ha
    · exact hn
    · exact .fail e _ hq rfl
  cases point with
  | sendSyn | awaitSynAck | ackSynAck | awaitSyn | sendSynAck | awaitFirstAck => cases hp
  | unblock opened => cases hp
  | ended result => cases hp
  | wait =>
    obtain ⟨deadline, outcome, rfl, rfl⟩ := hs
    cases outcome with
    | error cause => exact .fail e _ rfl rfl
    | ok ready => exact .wait e deadline ready
  | read rest =>
    obtain ⟨outcome, rfl, rfl⟩ := hs
    cases outcome with
    | error cause => exact .fail e _ rfl rfl
    | ok data =>
      cases data with
      | nil => exact .readNone e rest
      | cons x data => exact .readSome e rest (by simp)
  | sendData payload rest => exact sends rfl (.sendData e payload rest) hs
  | receive rest =>
    obtain ⟨outcome, rfl, rfl⟩ := hs
    cases outcome with
    | error cause => exact .fail e _ rfl rfl
    | ok d =>
      obtain ⟨rfl, ha⟩ | ⟨cause, hd, hb, ha⟩ | ⟨g, hb, ha⟩ :=
        arrival_cases ⟨config, ctx, thenLoop, .receive rest⟩ d
      · exact .fail e _ rfl rfl
      · simp only [ha]
        exact .drop e rest hd hb
      · simp only [ha]
        exact .hear e rest hb
  | noteAck g rest =>
    obtain ⟨rfl, rfl⟩ := hs
    have hn : (onAck ⟨config, ctx, thenLoop, .noteAck g rest⟩ g.header.ack).onContent g rest =
        (e.onAck g.header.ack).onContent g rest := by
      simp only [onAck, onFinAcked]
      split_ifs <;> rfl
    rw [hn]
    exact .noteAck e g rest
  | ackFin rest =>
    have hn : onFinAnswered ⟨config, ctx, thenLoop, .ackFin rest⟩ rest = e.onFinAnswered rest := by
      simp only [onFinAnswered, closeIfTimeWait]
      split_ifs <;> rfl
    refine sends rfl (.ackFin e rest) ?_
    rw [← hn]
    exact hs
  | tellPeerClosed rest =>
    obtain ⟨rfl, rfl⟩ := hs
    have hn : (closeIfTimeWait ⟨config, ctx, thenLoop, .tellPeerClosed rest⟩).react rest =
        e.closeIfTimeWait.react rest := by
      simp only [closeIfTimeWait]
      split_ifs <;> rfl
    rw [hn]
    exact .tellPeerClosed e rest
  | deliver payload rest =>
    obtain ⟨outcome, rfl, rfl⟩ := hs
    cases outcome with
    | error cause => exact .refuse e payload rest cause
    | ok u => exact .deliver e payload rest
  | ackData rest => exact sends rfl (.ackData e rest) hs
  | sendFin => exact sends rfl (.sendFin e) hs
  | collectDue =>
    obtain ⟨datagrams, rfl, rfl⟩ := hs
    have hn : resending ⟨config, ctx, thenLoop, .collectDue⟩ datagrams = e.resending datagrams := by
      cases datagrams <;> rfl
    rw [hn]
    exact .collectDue e datagrams
  | resend datagram more =>
    obtain ⟨outcome, rfl, rfl⟩ := hs
    cases outcome with
    | error cause => exact .fail e _ rfl rfl
    | ok u =>
      have hn : resending ⟨config, ctx, thenLoop, .resend datagram more⟩ more =
          e.resending more := by
        cases more <;> rfl
      simp only [onSuccess]
      rw [hn]
      exact .resend e datagram more

def Loaded (e : Engine) : Prop :=
  match e.point with
  | .sendData payload _ => payload ≠ []
  | _ => True

lemma loaded_react (e : Engine) (rest : Signals) : (e.react rest).Loaded := by
  rw [react]
  split_ifs <;> exact trivial

lemma loaded_onContent (e : Engine) (g : Segment) (rest : Signals) :
    (e.onContent g rest).Loaded := by
  rw [onContent]
  split_ifs
  · exact trivial
  · exact trivial
  · exact loaded_react e rest

lemma loaded_onFinAnswered (e : Engine) (rest : Signals) : (e.onFinAnswered rest).Loaded := by
  rw [onFinAnswered]
  split_ifs
  · exact loaded_react _ rest
  · exact trivial

lemma loaded_resending (e : Engine) (datagrams : List Bytes) : (e.resending datagrams).Loaded := by
  cases datagrams with
  | nil =>
    rw [resending, turn]
    split_ifs <;> exact trivial
  | cons datagram more => exact trivial

namespace LoopStep

lemma loaded (h : e.LoopStep events e') : e'.Loaded := by
  cases h with
  | wait | readNone | sendData | drop | tellPeerClosed | ackData => exact loaded_react _ _
  | readSome e rest some => exact some
  | hear e rest good =>
    rw [onSegment]
    split_ifs
    · exact trivial
    · exact loaded_onContent e _ rest
  | noteAck => exact loaded_onContent _ _ _
  | ackFin => exact loaded_onFinAnswered _ _
  | collectDue | resend => exact loaded_resending _ _
  | deliver | refuse | sendFin | fail => exact trivial

lemma fixed (h : e.LoopStep events e') : e'.fixed = e.fixed := by
  cases h with
  | wait | readNone | drop | ackData => exact fixed_react _ _
  | sendData e payload rest =>
    exact fixed_react { e with ctx := e.ctx.recordSent .ackOnly payload.length } rest
  | hear => exact fixed_onSegment _ _ _
  | noteAck e g rest => exact (fixed_onContent _ g rest).trans (fixed_onAck e _)
  | ackFin => exact fixed_onFinAnswered _ _
  | tellPeerClosed e rest => exact (fixed_react _ rest).trans (fixed_closeIfTimeWait e)
  | collectDue e datagrams => cases datagrams <;> rfl
  | resend e datagram more => cases more <;> rfl
  | readSome | deliver | refuse | sendFin | fail => rfl

lemma stage_cases (h : e.LoopStep events e') :
    e'.stage = .serving ∨
      e'.stage = .finished ∧ e'.ctx = e.ctx ∧ ∀ rest, e.point ≠ .tellPeerClosed rest := by
  cases h with
  | wait | readNone | drop | ackData | sendData | tellPeerClosed => exact .inl (stage_react _ _)
  | hear => exact .inl (stage_onSegment _ _ _)
  | noteAck => exact .inl (stage_onContent _ _ _)
  | ackFin => exact .inl (stage_onFinAnswered _ _)
  | readSome | deliver | sendFin => exact .inl rfl
  | collectDue e datagrams =>
    rcases stage_resending e datagrams with hp | hp
    · exact .inl hp
    · exact .inr ⟨hp, resending_ctx e datagrams, by simp [goto]⟩
  | resend e datagram more =>
    rcases stage_resending e more with hp | hp
    · exact .inl hp
    · exact .inr ⟨hp, resending_ctx e more, by simp [goto]⟩
  | refuse => exact .inr ⟨rfl, rfl, by simp [goto]⟩
  | fail e cause may => exact .inr ⟨rfl, rfl, Point.ne_tellPeerClosed may⟩

end LoopStep

lemma linked_of_serving (hp : e.stage = .serving) (hc : e.Coherent)
    (ht : ∀ rest, e.point ≠ .tellPeerClosed rest) : e.ctx.Linked e.config.teardown := by
  obtain ⟨config, ctx, thenLoop, point⟩ := e
  cases point with
  | sendSyn | awaitSynAck | ackSynAck | awaitSyn | sendSynAck | awaitFirstAck => cases hp
  | unblock opened => cases hp
  | ended result => cases hp
  | tellPeerClosed rest => exact absurd rfl (ht rest)
  | collectDue | resend => exact hc
  | wait | read | sendData | receive | noteAck | ackFin | deliver | ackData | sendFin => exact hc.1

lemma stage_of_result (h : e.result?.isSome) : e.stage = .finished := by
  obtain ⟨config, ctx, thenLoop, point⟩ := e
  cases point <;> first | rfl | cases h

lemma stage_ne_finished (hs : e.Step events e') : e.stage ≠ .finished := by
  intro hp
  obtain ⟨config, ctx, thenLoop, point⟩ := e
  cases point with
  | ended result => exact hs
  | _ => cases hp

lemma config_eq (h : e'.fixed = e.fixed) : e'.config = e.config :=
  congrArg Prod.fst h

lemma isn_eq (h : e'.fixed = e.fixed) : e'.ctx.isn = e.ctx.isn :=
  congrArg (fun f => f.2.2) h

structure Sound (e : Engine) : Prop where
  opened : e.stage ≠ .opening
  coherent : e.Coherent
  linked : e.stage = .finished → e.ctx.Linked e.config.teardown

namespace Sound

lemma serving (h : e.Sound) (hs : e.Step events e') : e.stage = .serving := by
  cases hp : e.stage with
  | opening => exact absurd hp h.opened
  | serving => rfl
  | finished => exact absurd hp (stage_ne_finished hs)

lemma loopStep (h : e.Sound) (hs : e.Step events e') : e.LoopStep events e' :=
  loopStep_of_step (h.serving hs) hs

lemma step (h : e.Sound) (hs : e.Step events e') : e'.Sound := by
  have hl := h.loopStep hs
  have hc := coherent_step h.coherent hs
  rcases hl.stage_cases with hp | ⟨hp, hctx, ht⟩
  · exact ⟨by simp [hp], hc, by simp [hp]⟩
  · refine ⟨by simp [hp], hc, fun _ => ?_⟩
    rw [hctx, config_eq hl.fixed]
    exact linked_of_serving (h.serving hs) h.coherent ht

lemma of_linked (hc : e.ctx.Linked e.config.teardown) : (loop e.config e.ctx).Sound := by
  obtain ⟨hp, hconfig, hctx⟩ := stage_loop e.config e.ctx
  refine ⟨hp, ?_, fun _ => by rw [hconfig, hctx]; exact hc⟩
  rw [loop]
  split_ifs
  · exact coherent_turn hc
  · exact trivial

lemma again (h : e.Sound) (hp : e.stage = .finished) : (loop e.config e.ctx).Sound :=
  of_linked (h.linked hp)

lemma linked_of_wait (h : e.Sound) (hp : e.point = .wait) : e.ctx.Linked e.config.teardown := by
  apply linked_of_serving ?_ h.coherent ?_
  · rw [stage, hp]
  · simp [hp]

lemma next_eq (h : e.Sound) : e.ctx.next = e.ctx.isn + UInt32.ofNat e.ctx.position := by
  obtain ⟨config, ctx, thenLoop, point⟩ := e
  cases point with
  | sendSyn | awaitSynAck | ackSynAck | awaitSyn | sendSynAck | awaitFirstAck =>
    exact absurd rfl h.opened
  | unblock opened => exact absurd rfl h.opened
  | ended result => exact (h.linked rfl).next
  | tellPeerClosed rest =>
    have hl := h.coherent.1.next
    rw [Context.position, closeIfTimeWait_state] at hl
    rw [closeIfTimeWait] at hl
    split_ifs at hl <;> exact hl
  | collectDue | resend => exact h.coherent.next
  | wait | read | sendData | receive | noteAck | ackFin | deliver | ackData | sendFin =>
    exact h.coherent.1.next

end Sound

end Engine

end DatagramStream
