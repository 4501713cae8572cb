import DatagramStream.Proofs.Pair.Run

/-! The steps of a side whose handshake is over, one for each thing that its engine can do, in terms
of segments in place of datagrams. -/

namespace DatagramStream

structure Signals.Honest (rest : Signals) (a : MemoryApp) : Prop where
  appData : rest.appData = true → a.outbound ≠ []
  networkData : rest.networkData = true → a.pending.isSome = true
  closeRequested : rest.closeRequested = true → a.closeRequested = true ∧ a.outbound = []

namespace Engine

def Poised (e : Engine) (a : MemoryApp) : Prop :=
  match e.point with
  | .sendSyn | .awaitSynAck | .ackSynAck | .awaitSyn | .sendSynAck | .awaitFirstAck => False
  | .unblock (.error _) | .ended (.error _) | .resend _ _ => False
  | .unblock (.ok ()) => e.ctx.state = .established
  | .wait | .collectDue | .ended (.ok ()) => True
  | .read rest => rest.Honest a ∧ a.outbound ≠ []
  | .sendData payload rest =>
    rest.Honest a ∧ payload ≠ [] ∧ payload = (payload ++ a.outbound).take e.config.mss
  | .receive rest => rest.Honest a ∧ (a.pending.isSome = true ∨ e.ctx.state.awaitsFinAck = true)
  | .noteAck _ rest | .ackFin rest | .tellPeerClosed rest | .deliver _ rest | .ackData rest =>
    rest.Honest a
  | .sendFin => a.closeRequested = true ∧ a.outbound = []

lemma poised_react {e : Engine} {a : MemoryApp} {rest : Signals} (h : rest.Honest a) :
    (e.react rest).Poised a := by
  obtain ⟨appData, networkData, closeRequested⟩ := rest
  rw [react]
  split_ifs with ha hn hc
  · exact ⟨⟨by simp, h.networkData, h.closeRequested⟩, h.appData ha⟩
  · exact ⟨⟨h.appData, by simp, h.closeRequested⟩, .inl (h.networkData hn)⟩
  · exact h.closeRequested hc.1
  · exact trivial

lemma poised_turn (e : Engine) (a : MemoryApp) : e.turn.Poised a := by
  rw [turn]
  split_ifs <;> exact trivial

end Engine

namespace Party

inductive Acts : Party → (w : List Segment) → Party → (w' out : List Segment) → Prop
  | unblock (e : Engine) (a : MemoryApp) (w : List Segment) :
      Acts ⟨e.goto (.unblock (.ok ())), a⟩ w
        ⟨e.goto .wait, { a with unblockCalls := a.unblockCalls + 1 }⟩ w []
  | wait {e : Engine} {a : MemoryApp} (w : List Segment) {rest : Signals} {pending : Option Bytes}
      (honest : rest.Honest { a with pending := pending }) (some : rest.isEmpty = false)
      (sendable : rest.appData = true ∨ rest.closeRequested = true → e.ctx.state.canSend = true) :
      Acts ⟨e.goto .wait, a⟩ w ⟨e.react rest, { a with pending := pending }⟩ w []
  | read {e : Engine} {a : MemoryApp} (w : List Segment) (rest : Signals)
      (some : a.outbound.take e.config.mss ≠ []) :
      Acts ⟨e.goto (.read rest), a⟩ w
        ⟨e.goto (.sendData (a.outbound.take e.config.mss) rest),
          { a with outbound := a.outbound.drop e.config.mss }⟩ w []
  | sendData (e : Engine) (a : MemoryApp) (w : List Segment) (payload : Bytes) (rest : Signals) :
      Acts ⟨e.goto (.sendData payload rest), a⟩ w
        ⟨{ e with ctx := e.ctx.recordSent .ackOnly payload.length }.react rest, a⟩ w
        [e.stamp .ackOnly payload]
  | oversized {e : Engine} (a : MemoryApp) {g : Segment} (w : List Segment) (rest : Signals)
      (large : e.config.receiveCapacity ≤ g.encode.length) :
      Acts ⟨e.goto (.receive rest), a⟩ (g :: w) ⟨e.react rest, { a with pending := none }⟩ w []
  | receive {e : Engine} (a : MemoryApp) {g : Segment} (w : List Segment) (rest : Signals)
      (fits : g.encode.length < e.config.receiveCapacity) :
      Acts ⟨e.goto (.receive rest), a⟩ (g :: w)
        ⟨e.onSegment g rest, { a with pending := none }⟩ w []
  | noteAck (e : Engine) (a : MemoryApp) (w : List Segment) (g : Segment) (rest : Signals) :
      Acts ⟨e.goto (.noteAck g rest), a⟩ w ⟨(e.onAck g.header.ack).onContent g rest, a⟩ w []
  | ackFin (e : Engine) (a : MemoryApp) (w : List Segment) (rest : Signals) :
      Acts ⟨e.goto (.ackFin rest), a⟩ w ⟨e.onFinAnswered rest, a⟩ w [e.stamp .ackOnly []]
  | tellPeerClosed (e : Engine) (a : MemoryApp) (w : List Segment) (rest : Signals) :
      Acts ⟨e.goto (.tellPeerClosed rest), a⟩ w
        ⟨e.closeIfTimeWait.react rest,
          { a with
            peerClosedCalls := a.peerClosedCalls + 1
            closeRequested := a.closeRequested || a.closeOnPeerFin }⟩ w []
  | deliver (e : Engine) (a : MemoryApp) (w : List Segment) (payload : Bytes) (rest : Signals) :
      Acts ⟨e.goto (.deliver payload rest), a⟩ w
        ⟨{ e with ctx := e.ctx.recordDelivered payload.length, point := .ackData rest },
          { a with writes := payload :: a.writes }⟩ w []
  | ackData (e : Engine) (a : MemoryApp) (w : List Segment) (rest : Signals) :
      Acts ⟨e.goto (.ackData rest), a⟩ w ⟨e.react rest, a⟩ w [e.stamp .ackOnly []]
  | sendFin (e : Engine) (a : MemoryApp) (w : List Segment) :
      Acts ⟨e.goto .sendFin, a⟩ w
        ⟨{ e with
            ctx := (e.ctx.recordSent .finOnly 0).transition .sendFin
            point := .receive .empty }, a⟩ w [e.stamp .finOnly []]
  | collectDue (e : Engine) (a : MemoryApp) (w : List Segment) :
      Acts ⟨e.goto .collectDue, a⟩ w ⟨e.turn, a⟩ w []

lemma ready_inter (x : Party) (e : Engine) (network : Bool) :
    (x.ready e.interest network).inter e.interest = x.ready e.interest network := by
  have hn : e.interest.networkData = true := by
    rw [Engine.interest]
    split_ifs <;> rfl
  cases ha : e.interest.appData <;> cases hc : e.interest.closeRequested <;>
    simp [ready, Signals.inter, hn, ha, hc]

lemma honest_ready (e : Engine) (a : MemoryApp) (interest : Signals) {network : Bool}
    {pending : Option Bytes} (hp : network = true → pending.isSome) :
    (ready ⟨e, a⟩ interest network).Honest { a with pending := pending } := by
  refine ⟨fun h => ?_, hp, fun h => ?_⟩
  · simp only [ready, Bool.and_eq_true, Bool.not_eq_true', List.isEmpty_eq_false_iff] at h
    exact h.2
  · simp only [ready, Bool.and_eq_true, List.isEmpty_iff] at h
    exact ⟨h.1.2, h.2⟩

lemma canSend_of_ready {x : Party} {e : Engine} {network : Bool}
    (h : (x.ready e.interest network).appData = true ∨
      (x.ready e.interest network).closeRequested = true) : e.ctx.state.canSend = true := by
  by_contra hc
  simp [ready, Engine.interest, hc, Signals.network] at h

variable {x x' : Party} {w : List Segment} {inbox' out : List Bytes} {events : List Event}

theorem acts_of_moves (hv : x.engine.config.validate = .ok ()) (hc : x.engine.Coherent)
    (hl : x.engine.thenLoop = true) (hp : x.engine.Poised x.app) (hw : ∀ g ∈ w, g.Plain)
    (h : x.Moves (w.map Segment.encode) events x' inbox' out) :
    ∃ w' out', inbox' = w'.map Segment.encode ∧ out = out'.map Segment.encode ∧
      x.Acts w x' w' out' := by
  obtain ⟨⟨config, ctx, thenLoop, point⟩, a⟩ := x
  simp only at hv hl
  subst hl
  obtain ⟨hm, h0⟩ := Config.payloadLimit_of_valid hv
  have quiet {x'' : Party} (hx : x' = x'') (hi : inbox' = w.map Segment.encode) (ho : out = [])
      (ha : Acts ⟨⟨config, ctx, true, point⟩, a⟩ w x'' w []) :
      ∃ w' out', inbox' = w'.map Segment.encode ∧ out = out'.map Segment.encode ∧
        Acts ⟨⟨config, ctx, true, point⟩, a⟩ w x' w' out' :=
    ⟨w, [], hi, ho, hx ▸ ha⟩
  have sends {x'' : Party} {g : Segment} (hx : x' = x'') (hi : inbox' = w.map Segment.encode)
      (ho : out = [g.encode]) (ha : Acts ⟨⟨config, ctx, true, point⟩, a⟩ w x'' w [g]) :
      ∃ w' out', inbox' = w'.map Segment.encode ∧ out = out'.map Segment.encode ∧
        Acts ⟨⟨config, ctx, true, point⟩, a⟩ w x' w' out' :=
    ⟨w, [g], hi, ho, hx ▸ ha⟩
  let e : Engine := ⟨config, ctx, true, .wait⟩
  cases point with
  | sendSyn | awaitSynAck | ackSynAck | awaitSyn | sendSynAck | awaitFirstAck => exact hp.elim
  | resend datagram more => exact hp.elim
  | ended result => exact h.elim
  | unblock opened =>
    cases opened with
    | error cause => exact hp.elim
    | ok u =>
      obtain ⟨-, hx, hi, ho⟩ := h
      change ctx.state = .established at hp
      obtain ⟨peer, hc⟩ := hc hp
      have hd : ctx.done = false := by
        change ctx = _ at hc
        rw [hc]
        rfl
      refine quiet ?_ hi ho (.unblock e a w)
      rw [hx]
      simp [Engine.opened, hp, Engine.turn, hd, e, Engine.goto]
  | wait =>
    obtain ⟨network, pending, hn, hr, -, hx, hi, ho⟩ := h
    refine quiet ?_ hi ho (.wait (e := e) w (honest_ready _ a e.interest hn) hr canSend_of_ready)
    rw [hx]
    simp only [Engine.onSuccess, ready_inter]
    rfl
  | read rest =>
    obtain ⟨-, hx, hi, ho⟩ := h
    obtain ⟨-, hp⟩ := hp
    have hs : a.outbound.take config.mss ≠ [] := by
      simp only [ne_eq, List.take_eq_nil_iff, not_or]
      exact ⟨Nat.ne_zero_of_lt h0, hp⟩
    refine quiet ?_ hi ho (.read (e := e) w rest hs)
    rw [hx]
    simp only [hm, Engine.onSuccess, List.isEmpty_eq_false_iff.mpr hs]
    rfl
  | sendData payload rest =>
    obtain ⟨-, hx, hi, ho⟩ := h
    exact sends hx hi ho (.sendData e a w payload rest)
  | receive rest =>
    obtain ⟨d, hd, -, hx, rfl⟩ := h
    cases w with
    | nil => cases hd
    | cons g w =>
      obtain ⟨rfl, rfl⟩ := List.cons.inj hd
      refine ⟨w, [], rfl, rfl, ?_⟩
      rw [hx]
      dsimp only
      by_cases hg : g.encode.length < config.receiveCapacity
      · rw [Engine.arrival_encode _ (hw g (by simp)) hg]
        exact .receive (e := e) a w rest hg
      · rw [Engine.arrival_oversized _ (Nat.le_of_not_lt hg)]
        exact .oversized (e := e) a w rest (Nat.le_of_not_lt hg)
  | noteAck g rest =>
    obtain ⟨-, hx, hi, ho⟩ := h
    refine quiet ?_ hi ho (.noteAck e a w g rest)
    rw [hx]
    simp only [Engine.onAck, Engine.onFinAcked]
    split_ifs <;> rfl
  | ackFin rest =>
    obtain ⟨-, hx, hi, ho⟩ := h
    refine sends ?_ hi ho (.ackFin e a w rest)
    rw [hx]
    simp only [Engine.onSuccess, Engine.onFinAnswered, Engine.closeIfTimeWait]
    split_ifs <;> rfl
  | tellPeerClosed rest =>
    obtain ⟨-, hx, hi, ho⟩ := h
    refine quiet ?_ hi ho (.tellPeerClosed e a w rest)
    rw [hx]
    simp only [Engine.closeIfTimeWait]
    split_ifs <;> rfl
  | deliver payload rest =>
    obtain ⟨-, hx, hi, ho⟩ := h
    exact quiet hx hi ho (.deliver e a w payload rest)
  | ackData rest =>
    obtain ⟨-, hx, hi, ho⟩ := h
    exact sends hx hi ho (.ackData e a w rest)
  | sendFin =>
    obtain ⟨-, hx, hi, ho⟩ := h
    exact sends hx hi ho (.sendFin e a w)
  | collectDue =>
    obtain ⟨-, hx, hi, ho⟩ := h
    exact quiet hx hi ho (.collectDue e a w)

end Party

end DatagramStream
