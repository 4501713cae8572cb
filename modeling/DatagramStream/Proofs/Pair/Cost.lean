import DatagramStream.Proofs.Pair.Running

/-! How many steps two sides can still take: each step of a side lowers its cost by more than what
it puts in flight. -/

namespace DatagramStream

def Segment.cost (g : Segment) : Nat :=
  if g.payload = [] ∧ g.header.flags.fin = false then 5 else 12

def Point.cost : Point → Nat
  | .sendSyn => 14
  | .awaitSynAck => 8
  | .ackSynAck => 12
  | .awaitSyn => 4
  | .sendSynAck => 8
  | .awaitFirstAck => 2
  | .unblock _ => 6
  | .wait => 4
  | .read _ => 3
  | .sendData _ _ => 18
  | .receive _ => 2
  | .noteAck g _ => g.cost + 1
  | .ackFin _ => 12
  | .tellPeerClosed _ => 6
  | .deliver _ _ => 12
  | .ackData _ => 11
  | .sendFin => 1
  | .collectDue => 5
  | .resend _ _ | .ended _ => 0

def State.finCost (state : State) : Nat :=
  if state.finSent then 0 else 14

def Party.cost (x : Party) : Nat :=
  x.engine.point.cost + 16 * x.app.outbound.length + x.engine.ctx.state.finCost

def Segment.costs (w : List Segment) : Nat :=
  (w.map Segment.cost).sum

namespace Segment

@[simp] lemma costs_nil : costs [] = 0 := rfl

@[simp] lemma costs_cons (g : Segment) (w : List Segment) : costs (g :: w) = g.cost + costs w := by
  simp [costs]

@[simp] lemma costs_append (w v : List Segment) : costs (w ++ v) = costs w + costs v := by
  simp [costs]

lemma five_le_cost (g : Segment) : 5 ≤ g.cost := by
  rw [cost]
  split_ifs <;> omega

lemma cost_le (g : Segment) : g.cost ≤ 12 := by
  rw [cost]
  split_ifs <;> omega

end Segment

namespace Engine

lemma cost_react (e : Engine) (rest : Signals) : (e.react rest).point.cost ≤ 5 := by
  rw [react]
  split_ifs <;> simp [goto, Point.cost]

lemma cost_react_some {e : Engine} {rest : Signals} (some : rest.isEmpty = false)
    (hs : rest.closeRequested = true → e.ctx.state.canSend = true) :
    (e.react rest).point.cost ≤ 3 := by
  obtain ⟨appData, networkData, closeRequested⟩ := rest
  rw [react]
  split_ifs with ha hn hc
  · exact Nat.le_refl _
  · simp [goto, Point.cost]
  · simp [goto, Point.cost]
  · simp only at ha hn hs
    rw [Bool.not_eq_true] at ha hn
    subst ha hn
    cases closeRequested with
    | false => cases some
    | true => exact absurd ⟨rfl, hs rfl⟩ hc

lemma cost_onContent (e : Engine) (g : Segment) (rest : Signals) :
    (e.onContent g rest).point.cost ≤ g.cost := by
  rw [onContent]
  split_ifs with hf hb
  · simp [Point.cost, Segment.cost, hf]
  · simp only [Bool.and_eq_true, Bool.not_eq_true', List.isEmpty_eq_false_iff] at hb
    simp [goto, Point.cost, Segment.cost, hb.1.1]
  · exact Nat.le_trans (cost_react e rest) g.five_le_cost

lemma cost_onSegment (e : Engine) (g : Segment) (rest : Signals) :
    (e.onSegment g rest).point.cost ≤ g.cost + 1 := by
  rw [onSegment]
  split_ifs
  · exact Nat.le_refl _
  · exact Nat.le_succ_of_le (cost_onContent e g rest)

lemma cost_onFinAnswered (e : Engine) (rest : Signals) : (e.onFinAnswered rest).point.cost ≤ 6 := by
  rw [onFinAnswered]
  split_ifs
  · exact Nat.le_succ_of_le (cost_react _ rest)
  · exact Nat.le_refl _

lemma cost_turn (e : Engine) : e.turn.point.cost ≤ 4 := by
  rw [turn]
  split_ifs <;> simp [goto, Point.cost]

end Engine

namespace Party

variable {s : Setup} {x x' : Party} {w w' out : List Segment}

lemma cost_lt_of (n : Nat) (hn : x.engine.point.cost = n) (ho : x'.app.outbound = x.app.outbound)
    (hf : x'.engine.ctx.place = x.engine.ctx.place)
    (hp : x'.engine.point.cost + Segment.costs w' + Segment.costs out < n + Segment.costs w) :
    x'.cost + Segment.costs w' + Segment.costs out < x.cost + Segment.costs w := by
  have hf : x'.engine.ctx.state.finSent = x.engine.ctx.state.finSent := congrArg Place.closed hf
  rw [cost, cost, State.finCost, ho, hf, hn, ← State.finCost]
  omega

lemma cost_eq (n : Nat) (hn : x.engine.point.cost = n) :
    x.cost = n + 16 * x.app.outbound.length + x.engine.ctx.state.finCost := by
  rw [cost, hn]

theorem Acts.cost_lt (h : x.Acts w x' w' out) (hl : x.Local s) :
    x'.cost + Segment.costs w' + Segment.costs out < x.cost + Segment.costs w := by
  cases h with
  | unblock e a w =>
    refine cost_lt_of 6 rfl rfl rfl ?_
    simp [Engine.goto, Point.cost]
  | wait w honest some sendable =>
    have hc := Engine.cost_react_some some fun hr => sendable (.inr hr)
    refine cost_lt_of 4 rfl rfl (congrArg Context.place (Engine.react_ctx _ _)) ?_
    simp only [Segment.costs_nil]
    omega
  | @read e a w rest some =>
    have hl : 0 < (a.outbound.take e.config.mss).length := List.length_pos_iff.mpr some
    rw [List.length_take] at hl
    have h1 := cost_eq (x := ⟨e.goto (.read rest), a⟩) 3 rfl
    have h2 := cost_eq (x := ⟨e.goto (.sendData (a.outbound.take e.config.mss) rest),
      { a with outbound := a.outbound.drop e.config.mss }⟩) 18 rfl
    rw [h1, h2]
    simp only [List.length_drop, Segment.costs_nil, Engine.goto]
    omega
  | sendData e a w payload rest =>
    have hc := Engine.cost_react { e with ctx := e.ctx.recordSent .ackOnly payload.length } rest
    have hg := (e.stamp .ackOnly payload).cost_le
    have h1 := cost_eq (x := ⟨e.goto (.sendData payload rest), a⟩) 18 rfl
    rw [h1, cost]
    simp only [Engine.react_ctx, Segment.costs_cons, Segment.costs_nil, Context.recordSent,
      Engine.goto] at hc ⊢
    omega
  | @oversized e a g w rest large =>
    have hc := Engine.cost_react e rest
    have hg := g.five_le_cost
    refine cost_lt_of 2 rfl rfl (congrArg Context.place (Engine.react_ctx _ _)) ?_
    simp only [Segment.costs_cons, Segment.costs_nil]
    omega
  | @receive e a g w rest fits =>
    have hc := Engine.cost_onSegment e g rest
    refine cost_lt_of 2 rfl rfl (Engine.place_onSegment e g rest) ?_
    simp only [Segment.costs_cons, Segment.costs_nil]
    omega
  | noteAck e a w g rest =>
    have hc := Engine.cost_onContent (e.onAck g.header.ack) g rest
    refine cost_lt_of (g.cost + 1) rfl rfl
      ((Engine.place_onContent _ g rest).trans (Engine.place_onAck e _)) ?_
    simp only [Segment.costs_nil]
    omega
  | ackFin e a w rest =>
    have hc := e.cost_onFinAnswered rest
    have hg : (e.stamp .ackOnly []).cost = 5 := by simp [Segment.cost, Engine.stamp, Flags.ackOnly]
    refine cost_lt_of 12 rfl rfl (Engine.place_onFinAnswered e rest) ?_
    simp only [Segment.costs_cons, Segment.costs_nil, hg]
    omega
  | tellPeerClosed e a w rest =>
    have hc := Engine.cost_react e.closeIfTimeWait rest
    refine cost_lt_of 6 rfl rfl ((congrArg Context.place (Engine.react_ctx _ rest)).trans
      (Engine.place_closeIfTimeWait e)) ?_
    simp only [Segment.costs_nil]
    omega
  | deliver e a w payload rest =>
    refine cost_lt_of 12 rfl rfl rfl ?_
    simp [Point.cost]
  | ackData e a w rest =>
    have hc := Engine.cost_react e rest
    have hg : (e.stamp .ackOnly []).cost = 5 := by simp [Segment.cost, Engine.stamp, Flags.ackOnly]
    refine cost_lt_of 11 rfl rfl (congrArg Context.place (Engine.react_ctx _ _)) ?_
    simp only [Segment.costs_cons, Segment.costs_nil, hg]
    omega
  | sendFin e a w =>
    have hs : e.ctx.state.canSend = true := hl.coherent.2
    have h1 := cost_eq (x := ⟨e.goto .sendFin, a⟩) 1 rfl
    have h2 : e.ctx.state.finCost = 14 := by
      rw [State.finCost, State.finSent_of_canSend hs]
      rfl
    have h3 : ((e.ctx.recordSent .finOnly 0).transition .sendFin).state.finCost = 0 := by
      rw [State.finCost, Context.finSent_sendFin hs]
      rfl
    have hg := (e.stamp .finOnly []).cost_le
    rw [h1, cost_eq 2 rfl, h3, Segment.costs_cons, Segment.costs_nil]
    simp only [Engine.goto, h2]
    omega
  | collectDue e a w =>
    have hc := e.cost_turn
    refine cost_lt_of 5 rfl rfl rfl ?_
    simp only [Segment.costs_nil]
    omega

end Party

end DatagramStream
