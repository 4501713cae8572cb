import DatagramStream.Proofs.Fins

/-! What the parts of a step leave as it is. -/

namespace DatagramStream

structure Owed where
  bytes : Bytes := []
  closing : Nat := 0
  opening : Nat := 0

namespace Engine

def owed (e : Engine) : Owed :=
  match e.point with
  | .unblock _ => { opening := 1 }
  | .sendData payload _ => { bytes := payload }
  | .tellPeerClosed _ => { closing := 1 }
  | _ => {}

def fixed (e : Engine) : Config × Bool × SeqNum :=
  (e.config, e.thenLoop, e.ctx.isn)

variable {e : Engine}

@[simp] lemma owed_react (e : Engine) (rest : Signals) : (e.react rest).owed = {} := by
  rw [react]
  split_ifs <;> rfl

@[simp] lemma owed_turn (e : Engine) : e.turn.owed = {} := by
  rw [turn]
  split_ifs <;> rfl

@[simp] lemma owed_onContent (e : Engine) (g : Segment) (rest : Signals) :
    (e.onContent g rest).owed = {} := by
  rw [onContent]
  split_ifs
  · rfl
  · rfl
  · exact owed_react e rest

@[simp] lemma owed_onSegment (e : Engine) (g : Segment) (rest : Signals) :
    (e.onSegment g rest).owed = {} := by
  rw [onSegment]
  split_ifs
  · rfl
  · exact owed_onContent e g rest

@[simp] lemma fixed_react (e : Engine) (rest : Signals) : (e.react rest).fixed = e.fixed := by
  rw [react]
  split_ifs <;> rfl

@[simp] lemma fixed_turn (e : Engine) : e.turn.fixed = e.fixed := rfl

@[simp] lemma fixed_onAck (e : Engine) (ack : SeqNum) : (e.onAck ack).fixed = e.fixed := by
  rw [onAck]
  split_ifs <;> rfl

@[simp] lemma fixed_onContent (e : Engine) (g : Segment) (rest : Signals) :
    (e.onContent g rest).fixed = e.fixed := by
  rw [onContent]
  split_ifs
  · rfl
  · rfl
  · exact fixed_react e rest

@[simp] lemma fixed_onSegment (e : Engine) (g : Segment) (rest : Signals) :
    (e.onSegment g rest).fixed = e.fixed := by
  rw [onSegment]
  split_ifs
  · rfl
  · exact fixed_onContent e g rest

@[simp] lemma fixed_closeIfTimeWait (e : Engine) : e.closeIfTimeWait.fixed = e.fixed := by
  rw [closeIfTimeWait]
  split_ifs <;> rfl

@[simp] lemma fixed_onFinAnswered (e : Engine) (rest : Signals) :
    (e.onFinAnswered rest).fixed = e.fixed := by
  rw [onFinAnswered]
  split_ifs
  · rw [fixed_react, fixed_closeIfTimeWait]
  · rfl

def held (e : Engine) : List Segment :=
  match e.point with
  | .noteAck g _ => [g]
  | _ => []

def inHand (e : Engine) : Bytes :=
  match e.point with
  | .deliver payload _ => payload
  | _ => []

@[simp] lemma held_react (e : Engine) (rest : Signals) : (e.react rest).held = [] := by
  rw [react]
  split_ifs <;> rfl

@[simp] lemma held_turn (e : Engine) : e.turn.held = [] := by
  rw [turn]
  split_ifs <;> rfl

@[simp] lemma held_onContent (e : Engine) (g : Segment) (rest : Signals) :
    (e.onContent g rest).held = [] := by
  rw [onContent]
  split_ifs
  · rfl
  · rfl
  · exact held_react e rest

@[simp] lemma held_onFinAnswered (e : Engine) (rest : Signals) :
    (e.onFinAnswered rest).held = [] := by
  rw [onFinAnswered]
  split_ifs
  · exact held_react _ rest
  · rfl

@[simp] lemma inHand_react (e : Engine) (rest : Signals) : (e.react rest).inHand = [] := by
  rw [react]
  split_ifs <;> rfl

@[simp] lemma inHand_turn (e : Engine) : e.turn.inHand = [] := by
  rw [turn]
  split_ifs <;> rfl

@[simp] lemma inHand_onFinAnswered (e : Engine) (rest : Signals) :
    (e.onFinAnswered rest).inHand = [] := by
  rw [onFinAnswered]
  split_ifs
  · exact inHand_react _ rest
  · rfl

@[simp] lemma expected_onAck (e : Engine) (ack : SeqNum) :
    (e.onAck ack).ctx.expected = e.ctx.expected := by
  rw [onAck]
  split_ifs <;> rfl

@[simp] lemma received_onAck (e : Engine) (ack : SeqNum) :
    (e.onAck ack).ctx.received = e.ctx.received := by
  rw [onAck]
  split_ifs <;> rfl

@[simp] lemma config_onAck (e : Engine) (ack : SeqNum) : (e.onAck ack).config = e.config := by
  rw [onAck]
  split_ifs <;> rfl

lemma onFinAnswered_keeps (e : Engine) (rest : Signals) :
    (e.onFinAnswered rest).heardFin = true ∧ (e.onFinAnswered rest).config = e.config ∧
      (e.onFinAnswered rest).ctx.expected = e.ctx.expected ∧
      (e.onFinAnswered rest).ctx.received = e.ctx.received := by
  rw [onFinAnswered]
  split_ifs with hs
  · rw [heardFin_react, react_config, react_ctx]
    rw [closeIfTimeWait]
    split_ifs <;> exact ⟨hs, rfl, rfl, rfl⟩
  · exact ⟨rfl, rfl, rfl, rfl⟩

lemma closeIfTimeWait_keeps (e : Engine) :
    e.closeIfTimeWait.ctx.expected = e.ctx.expected ∧
      e.closeIfTimeWait.ctx.received = e.ctx.received := by
  rw [closeIfTimeWait]
  split_ifs <;> exact ⟨rfl, rfl⟩

end Engine

end DatagramStream
