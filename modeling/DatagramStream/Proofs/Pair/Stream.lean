import DatagramStream.Proofs.Pair.Ledger

/-! The staged bytes of one side on their way to the other one: the segments in flight lead from the
place that the receiver has reached to the place that the sender has reached. -/

namespace DatagramStream

structure Place where
  offset : Nat
  closed : Bool

def Setup.Fits (s : Setup) (c : Config) : Prop :=
  min s.config.mss s.staged.length ≤ c.mss + 40

instance (s : Setup) (c : Config) : Decidable (s.Fits c) :=
  inferInstanceAs (Decidable (_ ≤ _))

inductive Setup.Carries (s : Setup) : Place → Segment → Place → Prop
  | ack {p : Place} {g : Segment} : g.Plain → g.header.flags = .ackOnly → g.payload = [] →
      Carries s p g p
  | data {n : Nat} {g : Segment} : g.Plain → g.header.flags = .ackOnly → g.payload ≠ [] →
      g.payload = (s.staged.drop n).take s.config.mss →
        g.header.seq = s.isn + UInt32.ofNat (1 + n) →
          Carries s ⟨n, false⟩ g ⟨n + g.payload.length, false⟩
  | fin {g : Segment} : g.Plain → g.header.flags = .finOnly → g.payload = [] →
      g.header.seq = s.isn + UInt32.ofNat (1 + s.staged.length) →
      Carries s ⟨s.staged.length, false⟩ g ⟨s.staged.length, true⟩

inductive Setup.Flow (s : Setup) : Place → List Segment → Place → Prop
  | nil (p : Place) : Flow s p [] p
  | cons {p q r : Place} {g : Segment} {w : List Segment} :
      s.Carries p g q → Flow s q w r → Flow s p (g :: w) r

namespace Setup

variable {s : Setup} {p q r : Place} {g : Segment} {w v : List Segment}

lemma Carries.plain (h : s.Carries p g q) : g.Plain := by
  cases h <;> assumption

lemma Carries.closed (h : s.Carries p g q) (hc : p.closed = true) : q.closed = true := by
  cases h with
  | ack => exact hc
  | data => exact hc
  | fin => rfl

lemma Flow.append (h : s.Flow p w q) (hv : s.Flow q v r) : s.Flow p (w ++ v) r := by
  induction h with
  | nil => exact hv
  | cons hc _ ih => exact .cons hc (ih hv)

lemma Flow.plain (h : s.Flow p w q) : ∀ g ∈ w, g.Plain := by
  induction h with
  | nil => simp
  | cons hc _ ih =>
    intro g hg
    obtain rfl | hg := List.mem_cons.mp hg
    · exact hc.plain
    · exact ih g hg

lemma Flow.closed (h : s.Flow p w q) (hc : p.closed = true) : q.closed = true := by
  induction h with
  | nil => exact hc
  | cons hg _ ih => exact ih (hg.closed hc)

end Setup

def Context.place (c : Context) : Place :=
  ⟨c.sent, c.state.finSent⟩

lemma Context.finSent_sendFin {c : Context} (hs : c.state.canSend = true) :
    ((c.recordSent .finOnly 0).transition .sendFin).state.finSent = true := by
  simp only [transition, recordSent]
  revert hs
  cases c.state <;> simp [State.canSend, State.next?, State.finSent]

namespace Engine

variable {e : Engine}

@[simp] lemma place_onAck (e : Engine) (ack : SeqNum) : (e.onAck ack).ctx.place = e.ctx.place := by
  simp only [Context.place, finSent_onAck, Place.mk.injEq, and_true]
  rw [onAck]
  split_ifs <;> rfl

@[simp] lemma place_onContent (e : Engine) (g : Segment) (rest : Signals) :
    (e.onContent g rest).ctx.place = e.ctx.place := by
  rw [onContent]
  split_ifs
  · rfl
  · rfl
  · rw [react_ctx]

@[simp] lemma place_onSegment (e : Engine) (g : Segment) (rest : Signals) :
    (e.onSegment g rest).ctx.place = e.ctx.place := by
  rw [onSegment]
  split_ifs
  · rfl
  · exact place_onContent e g rest

@[simp] lemma place_closeIfTimeWait (e : Engine) : e.closeIfTimeWait.ctx.place = e.ctx.place := by
  rw [closeIfTimeWait]
  split_ifs <;> rfl

@[simp] lemma place_onFinAnswered (e : Engine) (rest : Signals) :
    (e.onFinAnswered rest).ctx.place = e.ctx.place := by
  simp only [Context.place, finSent_onFinAnswered, Place.mk.injEq, and_true]
  rw [onFinAnswered, closeIfTimeWait]
  split_ifs <;> simp [Context.transition]

end Engine

namespace Party

variable {s : Setup} {x x' : Party} {w w' out : List Segment}

lemma Local.carries_data {e : Engine} {a : MemoryApp} {payload : Bytes} {rest : Signals}
    (h : Local s ⟨e.goto (.sendData payload rest), a⟩) :
    s.Carries e.ctx.place (e.stamp .ackOnly payload)
      (e.ctx.recordSent .ackOnly payload.length).place := by
  obtain ⟨hl, hs, -⟩ := h.coherent
  obtain ⟨-, hn, hp⟩ := h.poised
  have hf : e.ctx.state.finSent = false := State.finSent_of_canSend hs
  have hu : payload ++ a.outbound = s.staged.drop e.ctx.sent := h.ledger.unsent
  have hq : e.ctx.next = s.isn + UInt32.ofNat (1 + e.ctx.sent) := by
    have hq : e.ctx.next = e.ctx.isn + UInt32.ofNat e.ctx.position := hl.next
    rw [hq, show e.ctx.isn = s.isn from h.isn_eq, Context.position, hf]
    rfl
  have hd : payload = (s.staged.drop e.ctx.sent).take s.config.mss := by
    rw [← hu, ← show e.config = s.config from h.config_eq]
    exact hp
  have hc := Setup.Carries.data (s := s) (n := e.ctx.sent)
    (g := e.stamp .ackOnly payload) rfl rfl hn hd hq
  rw [← hf] at hc
  exact hc

lemma Local.carries_fin {e : Engine} {a : MemoryApp} (h : Local s ⟨e.goto .sendFin, a⟩) :
    s.Carries e.ctx.place (e.stamp .finOnly [])
      ((e.ctx.recordSent .finOnly 0).transition .sendFin).place := by
  obtain ⟨hl, hs⟩ := h.coherent
  obtain ⟨-, ho⟩ := h.poised
  have hf : e.ctx.state.finSent = false := State.finSent_of_canSend hs
  have hu : e.ctx.sent = s.staged.length := by
    have hu : [] ++ a.outbound = s.staged.drop e.ctx.sent := h.ledger.unsent
    rw [show a.outbound = [] from ho] at hu
    exact Nat.le_antisymm h.ledger.within (List.drop_eq_nil_iff.mp hu.symm)
  have hq : e.ctx.next = s.isn + UInt32.ofNat (1 + s.staged.length) := by
    have hq : e.ctx.next = e.ctx.isn + UInt32.ofNat e.ctx.position := hl.next
    rw [hq, show e.ctx.isn = s.isn from h.isn_eq, Context.position, hf, hu]
    rfl
  have hc := Setup.Carries.fin (s := s) (g := e.stamp .finOnly []) rfl rfl rfl hq
  have ht := Context.finSent_sendFin (c := e.ctx) hs
  have he : ((e.ctx.recordSent .finOnly 0).transition .sendFin).place = ⟨e.ctx.sent, true⟩ := by
    rw [Context.place, ht]
    rfl
  rw [← hu, ← hf] at hc
  rw [he]
  exact hc

theorem Acts.flow (h : x.Acts w x' w' out) (hl : x.Local s) :
    s.Flow x.engine.ctx.place out x'.engine.ctx.place := by
  have still {p : Place} (hp : p = x.engine.ctx.place) : s.Flow x.engine.ctx.place [] p :=
    hp ▸ .nil p
  have pure {g : Segment} {p : Place} (hg : g.Plain) (hf : g.header.flags = .ackOnly)
      (hb : g.payload = []) (hp : p = x.engine.ctx.place) : s.Flow x.engine.ctx.place [g] p :=
    hp ▸ .cons (.ack hg hf hb) (.nil p)
  cases h with
  | unblock | read | deliver | collectDue => exact still rfl
  | wait | oversized => exact still (congrArg Context.place (Engine.react_ctx _ _))
  | sendData e a w payload rest =>
    rw [Engine.react_ctx]
    exact .cons hl.carries_data (.nil _)
  | receive => exact still (Engine.place_onSegment _ _ _)
  | noteAck e a w g rest =>
    exact still ((Engine.place_onContent _ g rest).trans (Engine.place_onAck e _))
  | ackFin e a w rest => exact pure rfl rfl rfl (Engine.place_onFinAnswered e rest)
  | tellPeerClosed e a w rest =>
    exact still ((congrArg Context.place (Engine.react_ctx _ rest)).trans
      (Engine.place_closeIfTimeWait e))
  | ackData e a w rest =>
    exact pure rfl rfl rfl (congrArg Context.place (Engine.react_ctx e rest))
  | sendFin => exact .cons hl.carries_fin (.nil _)

end Party

end DatagramStream
