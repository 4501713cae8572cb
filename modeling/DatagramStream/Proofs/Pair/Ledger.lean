import DatagramStream.Proofs.Pair.Acts

/-! What a side past its handshake has sent, asked and told agrees with what it was set up with. -/

namespace DatagramStream

namespace State

def closesFirst : State → Bool
  | finWait1 | finWait2 | closing | timeWait => true
  | _ => false

end State

namespace Context

lemma closesFirst_transition (c : Context) {t : Trigger} (ht : t = .recvAck ∨ t = .recvFin) :
    (c.transition t).state.closesFirst = c.state.closesFirst := by
  obtain ⟨state, isn, next, expected, done, seen, sent, received⟩ := c
  obtain rfl | rfl := ht <;> cases state <;> rfl

end Context

namespace Engine

variable {e : Engine}

lemma poised_onContent {g : Segment} {a : MemoryApp} {rest : Signals} (h : rest.Honest a) :
    (e.onContent g rest).Poised a := by
  rw [onContent]
  split_ifs
  · exact h
  · exact h
  · exact poised_react h

lemma poised_onSegment {g : Segment} {a : MemoryApp} {rest : Signals} (h : rest.Honest a) :
    (e.onSegment g rest).Poised a := by
  rw [onSegment]
  split_ifs
  · exact h
  · exact poised_onContent h

lemma poised_onFinAnswered {a : MemoryApp} {rest : Signals} (h : rest.Honest a) :
    (e.onFinAnswered rest).Poised a := by
  rw [onFinAnswered]
  split_ifs
  · exact poised_react h
  · exact h

end Engine

lemma Signals.honest_empty (a : MemoryApp) : Signals.empty.Honest a := by
  refine ⟨fun h => ?_, fun h => ?_, fun h => ?_⟩ <;> cases h

namespace Signals.Honest

variable {rest : Signals} {a : MemoryApp}

lemma received (h : rest.Honest a) (hr : rest.OnlyClose) : rest.Honest { a with pending := none } :=
  ⟨h.appData, fun hn => by simp [hr.2] at hn, h.closeRequested⟩

lemma drained (h : rest.Honest a) (ha : rest.appData = false) (ho : a.outbound ≠ []) (n : Nat) :
    rest.Honest { a with outbound := a.outbound.drop n } :=
  ⟨fun hr => by simp [ha] at hr, h.networkData, fun hr => absurd (h.closeRequested hr).2 ho⟩

end Signals.Honest

structure Ledger (s : Setup) (c : Context) (o : Owed) (a : MemoryApp) : Prop where
  unsent : o.bytes ++ a.outbound = s.staged.drop c.sent
  within : c.sent ≤ s.staged.length
  complete : c.state.finSent = true → c.sent = s.staged.length
  requested : a.closeRequested = (s.closeRequested || (0 < a.peerClosedCalls && s.closeOnPeerFin))
  onPeerFin : a.closeOnPeerFin = s.closeOnPeerFin
  first : c.state.closesFirst = true → s.closeRequested = true
  told : a.peerClosedCalls + o.closing = c.peerFinSeen.toNat
  unblocked : a.unblockCalls + o.opening = 1

namespace Ledger

variable {s : Setup} {c c' : Context} {o : Owed} {a : MemoryApp}

lemma congr (h : Ledger s c o a) (hs : c'.sent = c.sent) (hp : c'.peerFinSeen = c.peerFinSeen)
    (hf : c'.state.finSent = c.state.finSent) (hc : c'.state.closesFirst = c.state.closesFirst) :
    Ledger s c' o a :=
  ⟨by rw [hs]; exact h.unsent, by rw [hs]; exact h.within, by rw [hs, hf]; exact h.complete,
    h.requested, h.onPeerFin, by rw [hc]; exact h.first, by rw [hp]; exact h.told, h.unblocked⟩

lemma opened (h : Ledger s c { opening := 1 } a) :
    Ledger s c {} { a with unblockCalls := a.unblockCalls + 1 } :=
  ⟨h.unsent, h.within, h.complete, h.requested, h.onPeerFin, h.first, h.told, h.unblocked⟩

lemma parked (h : Ledger s c o a) (pending : Option Bytes) :
    Ledger s c o { a with pending := pending } :=
  ⟨h.unsent, h.within, h.complete, h.requested, h.onPeerFin, h.first, h.told, h.unblocked⟩

lemma written (h : Ledger s c o a) (writes : List Bytes) :
    Ledger s c o { a with writes := writes } :=
  ⟨h.unsent, h.within, h.complete, h.requested, h.onPeerFin, h.first, h.told, h.unblocked⟩

lemma read (h : Ledger s c {} a) (n : Nat) :
    Ledger s c { bytes := a.outbound.take n } { a with outbound := a.outbound.drop n } := by
  refine ⟨?_, h.within, h.complete, h.requested, h.onPeerFin, h.first, h.told, h.unblocked⟩
  rw [← h.unsent, List.take_append_drop]
  rfl

lemma sent {payload : Bytes} (h : Ledger s c { bytes := payload } a)
    (hs : c.state.canSend = true) : Ledger s (c.recordSent .ackOnly payload.length) {} a := by
  have hl := congrArg List.length h.unsent
  simp only [List.length_append, List.length_drop] at hl
  refine ⟨?_, ?_, fun hf => ?_, h.requested, h.onPeerFin, h.first, h.told, h.unblocked⟩
  · have hd : (payload ++ a.outbound).drop payload.length =
        (s.staged.drop c.sent).drop payload.length := congrArg (List.drop payload.length) h.unsent
    rw [List.drop_left, List.drop_drop] at hd
    exact hd
  · have hw := h.within
    simp only [Context.recordSent]
    by_cases hp : payload.length = 0 <;> omega
  · change c.state.finSent = true at hf
    simp [State.finSent_of_canSend hs] at hf

lemma finSent (h : Ledger s c {} a) {t : Teardown} (hl : c.Linked t) (hs : c.state.canSend = true)
    (hr : a.closeRequested = true) (ho : a.outbound = []) :
    Ledger s ((c.recordSent .finOnly 0).transition .sendFin) {} a := by
  refine ⟨h.unsent, h.within, fun _ => ?_, h.requested, h.onPeerFin, fun hf => ?_, h.told,
    h.unblocked⟩
  · have hd := h.unsent
    rw [ho, List.append_nil] at hd
    exact Nat.le_antisymm h.within (List.drop_eq_nil_iff.mp hd.symm)
  · have hn : c.peerFinSeen = false := by
      have hp := hl.seen
      simp only [Context.transition, Context.recordSent] at hf
      revert hs hf hp
      cases c.state <;> simp [State.canSend, State.next?, State.closesFirst, State.finSeen]
    have ht := h.told
    have hq := h.requested
    rw [hn] at ht
    rw [hr, show a.peerClosedCalls = 0 by simpa using ht] at hq
    simpa using hq.symm

lemma firstFin (h : Ledger s c {} a) (hs : c.peerFinSeen = false) :
    Ledger s ({ c with peerFinSeen := true }.transition .recvFin) { closing := 1 } a := by
  have ht : a.peerClosedCalls = 0 := by simpa [hs] using h.told
  have hf := Context.finSent_transition { c with peerFinSeen := true }
    (by simp : Trigger.recvFin ≠ _) (by simp) (by simp)
  have hc := Context.closesFirst_transition { c with peerFinSeen := true } (.inr rfl)
  exact ⟨h.unsent, h.within, fun hd => h.complete (hf.symm.trans hd), h.requested, h.onPeerFin,
    fun hd => h.first (hc.symm.trans hd), by rw [ht]; rfl, h.unblocked⟩

lemma closed (h : Ledger s c { closing := 1 } a) :
    Ledger s c {} { a with
      peerClosedCalls := a.peerClosedCalls + 1
      closeRequested := a.closeRequested || a.closeOnPeerFin } := by
  have ht : a.peerClosedCalls = 0 := by
    have ht := h.told
    have hb := c.peerFinSeen.toNat_le
    simp only at ht
    omega
  refine ⟨h.unsent, h.within, h.complete, ?_, h.onPeerFin, h.first, h.told, h.unblocked⟩
  have hr := h.requested
  rw [ht] at hr
  simp only [hr, h.onPeerFin, ht]
  simp

lemma onAck {e : Engine} (h : Ledger s e.ctx o a) (ack : SeqNum) :
    Ledger s (e.onAck ack).ctx o a := by
  rw [Engine.onAck]
  split_ifs
  · exact h.congr rfl rfl (Context.finSent_transition e.ctx (by simp) (by simp) (by simp))
      (Context.closesFirst_transition e.ctx (.inl rfl))
  · exact h

lemma onContent {e : Engine} (h : Ledger s e.ctx o a) (g : Segment) (rest : Signals) :
    Ledger s (e.onContent g rest).ctx o a := by
  rw [Engine.onContent]
  split_ifs
  · exact h.congr rfl rfl rfl rfl
  · exact h
  · rwa [Engine.react_ctx]

lemma onSegment {e : Engine} (h : Ledger s e.ctx o a) (g : Segment) (rest : Signals) :
    Ledger s (e.onSegment g rest).ctx o a := by
  rw [Engine.onSegment]
  split_ifs
  · exact h
  · exact h.onContent g rest

lemma closeIfTimeWait {e : Engine} (h : Ledger s e.ctx o a) :
    Ledger s e.closeIfTimeWait.ctx o a := by
  rw [Engine.closeIfTimeWait]
  split_ifs
  · exact h.congr rfl rfl rfl rfl
  · exact h

end Ledger

namespace Party

variable {s : Setup} {x x' : Party} {w w' out : List Segment}

lemma Acts.fixed (h : x.Acts w x' w' out) : x'.engine.fixed = x.engine.fixed := by
  cases h with
  | unblock | read | deliver | sendFin => rfl
  | wait | oversized | ackData => exact Engine.fixed_react _ _
  | sendData e a w payload rest =>
    exact Engine.fixed_react { e with ctx := e.ctx.recordSent .ackOnly payload.length } rest
  | receive => exact Engine.fixed_onSegment _ _ _
  | noteAck e a w g rest => exact (Engine.fixed_onContent _ g rest).trans (Engine.fixed_onAck e _)
  | ackFin => exact Engine.fixed_onFinAnswered _ _
  | tellPeerClosed e a w rest =>
    exact (Engine.fixed_react _ rest).trans (Engine.fixed_closeIfTimeWait e)
  | collectDue => exact Engine.fixed_turn _

lemma Acts.poised (h : x.Acts w x' w' out) (hc : x.engine.Coherent) (hp : x.engine.Poised x.app) :
    x'.engine.Poised x'.app := by
  cases h with
  | unblock => exact trivial
  | wait w honest => exact Engine.poised_react honest
  | read w rest some =>
    obtain ⟨hh, ho⟩ := hp
    obtain ⟨-, -, hr⟩ := hc
    exact ⟨hh.drained hr ho _, some, by rw [List.take_append_drop]; rfl⟩
  | sendData => exact Engine.poised_react hp.1
  | oversized => exact Engine.poised_react (hp.1.received hc.2)
  | receive => exact Engine.poised_onSegment (hp.1.received hc.2)
  | noteAck => exact Engine.poised_onContent hp
  | ackFin => exact Engine.poised_onFinAnswered hp
  | tellPeerClosed e a w rest =>
    refine Engine.poised_react ⟨hp.appData, hp.networkData, fun hr => ?_⟩
    obtain ⟨ha, ho⟩ := hp.closeRequested hr
    exact ⟨by simp [show a.closeRequested = true from ha], ho⟩
  | deliver => exact ⟨hp.appData, hp.networkData, hp.closeRequested⟩
  | ackData => exact Engine.poised_react hp
  | sendFin e a w =>
    refine ⟨Signals.honest_empty a, .inr ?_⟩
    obtain ⟨-, hs⟩ := hc
    change e.ctx.state.canSend = true at hs
    simp only [Context.transition, Context.recordSent]
    revert hs
    cases e.ctx.state <;> simp [State.canSend, State.next?, State.awaitsFinAck]
  | collectDue => exact Engine.poised_turn _ _

structure Local (s : Setup) (x : Party) : Prop where
  fixed : x.engine.fixed = (s.config, true, s.isn)
  coherent : x.engine.Coherent
  poised : x.engine.Poised x.app
  ledger : Ledger s x.engine.ctx x.engine.owed x.app

namespace Local

lemma config_eq (h : x.Local s) : x.engine.config = s.config :=
  congrArg Prod.fst h.fixed

lemma thenLoop_eq (h : x.Local s) : x.engine.thenLoop = true :=
  congrArg (fun f => f.2.1) h.fixed

lemma isn_eq (h : x.Local s) : x.engine.ctx.isn = s.isn :=
  congrArg (fun f => f.2.2) h.fixed

end Local

lemma Acts.ledger (h : x.Acts w x' w' out) (hc : x.engine.Coherent) (hp : x.engine.Poised x.app)
    (hl : Ledger s x.engine.ctx x.engine.owed x.app) :
    Ledger s x'.engine.ctx x'.engine.owed x'.app := by
  cases h with
  | unblock => exact hl.opened
  | wait | oversized =>
    rw [Engine.react_ctx, Engine.owed_react]
    exact hl.parked _
  | read w rest some => exact hl.read _
  | sendData =>
    rw [Engine.react_ctx, Engine.owed_react]
    exact hl.sent hc.2.1
  | receive e w rest fits =>
    rw [Engine.owed_onSegment]
    exact (hl.parked none).onSegment _ rest
  | noteAck e a w g rest =>
    rw [Engine.owed_onContent]
    exact (Ledger.onAck (e := e) hl _).onContent g rest
  | ackFin e a w rest =>
    simp only [Engine.onFinAnswered]
    split_ifs with hs
    · rw [Engine.react_ctx, Engine.owed_react]
      exact Ledger.closeIfTimeWait (e := e) hl
    · exact hl.firstFin (Bool.eq_false_iff.mpr hs)
  | tellPeerClosed e a w rest =>
    rw [Engine.react_ctx, Engine.owed_react]
    exact Ledger.closeIfTimeWait (e := e) hl.closed
  | deliver e a w payload rest =>
    exact (hl.congr (by rfl) (by rfl) (by rfl) (by rfl)).written _
  | ackData =>
    rw [Engine.react_ctx, Engine.owed_react]
    exact hl
  | sendFin => exact hl.finSent hc.1 hc.2 hp.1 hp.2
  | collectDue =>
    rw [Engine.turn_ctx, Engine.owed_turn]
    exact hl

theorem Local.acts (h : x.Local s) (ha : x.Acts w x' w' out) (hc : x'.engine.Coherent) :
    x'.Local s :=
  ⟨ha.fixed.trans h.fixed, hc, ha.poised h.coherent h.poised,
    ha.ledger h.coherent h.poised h.ledger⟩

end Party

end DatagramStream
