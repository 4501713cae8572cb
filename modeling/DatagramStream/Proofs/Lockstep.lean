import DatagramStream.Proofs.Runs

/-! Two machines that ask for the same, on hosts that answer alike, go on in step. -/

namespace DatagramStream

inductive Request.Alike (R : Engine → Engine → Prop) : Request Engine → Request Engine → Prop
  | transmit {s : Segment} {next next' : Except IoError Unit → Engine}
      (h : ∀ o, R (next o) (next' o)) :
      Alike R (.transmit s next) (.transmit s next')
  | resend {header payload : Bytes} {next next' : Except IoError Unit → Engine}
      (h : ∀ o, R (next o) (next' o)) :
      Alike R (.resend header payload next) (.resend header payload next')
  | receive {capacity : Nat} {next next' : Except IoError Bytes → Engine}
      (h : ∀ o, R (next o) (next' o)) :
      Alike R (.receive capacity next) (.receive capacity next')
  | read {limit : Nat} {next next' : Except IoError Bytes → Engine}
      (h : ∀ o, R (next o) (next' o)) :
      Alike R (.read limit next) (.read limit next')
  | write {data : Bytes} {next next' : Except IoError Unit → Engine}
      (h : ∀ o, R (next o) (next' o)) :
      Alike R (.write data next) (.write data next')
  | unblock {next next' : Engine} (h : R next next') : Alike R (.unblock next) (.unblock next')
  | peerClosed {next next' : Engine} (h : R next next') :
      Alike R (.peerClosed next) (.peerClosed next')
  | wait {interest : Signals} {next next' : Except IoError Signals → Engine}
      (h : ∀ o, R (next o) (next' o)) :
      Alike R (.wait interest next) (.wait interest next')
  | noteAck {ack : SeqNum} {next next' : Engine} (h : R next next') :
      Alike R (.noteAck ack next) (.noteAck ack next')
  | collectDue {next next' : List Bytes → Engine} (h : ∀ d, R (next d) (next' d)) :
      Alike R (.collectDue next) (.collectDue next')
  | finished (result : Except ConnectionError Unit) : Alike R (.finished result) (.finished result)

lemma Engine.related_onSuccess {α : Type} {R : Engine → Engine → Prop} {e e' : Engine}
    {next next' : α → Engine} (hfail : ∀ cause, R (e.fail cause) (e'.fail cause))
    (h : ∀ a, R (next a) (next' a))
    (outcome : Except IoError α) : R (e.onSuccess next outcome) (e'.onSuccess next' outcome) := by
  cases outcome with
  | error cause => exact hfail (.io cause)
  | ok a => exact h a

structure Host.Ignores {σ : Type} (H : Host σ) (change : σ → σ) : Prop where
  send (header payload : Bytes) (s : σ) :
    H.send header payload (change s) = (H.send header payload s).map id change
  receive (capacity : Nat) (s : σ) :
    H.receive capacity (change s) = (H.receive capacity s).map (Prod.map id change)
  read (limit : Nat) (s : σ) : H.read limit (change s) = (H.read limit s).map id change
  write (data : Bytes) (s : σ) : H.write data (change s) = (H.write data s).map id change
  unblock (s : σ) : H.unblock (change s) = change (H.unblock s)
  peerClosed (s : σ) : H.peerClosed (change s) = change (H.peerClosed s)

lemma Host.ignores_id {σ : Type} (H : Host σ) : H.Ignores id := by
  refine ⟨?_, fun capacity s => ?_, ?_, ?_, ?_, ?_⟩
  · intros
    rfl
  · rw [Prod.map_id, Option.map_id]
    rfl
  all_goals
    intros
    rfl

namespace Machine

variable {π σ : Type} {P : Policy π} {H : Host σ} {m m₁ : Machine π σ} {events : List Event}
  {R : Engine → Engine → Prop} {e' : Engine} {change : σ → σ}

lemma step_alike (hi : H.Ignores change) (ha : m.engine.request.Alike R e'.request)
    (hw : ∀ interest next, m.engine.request = .wait interest next → ∀ deadline,
      H.wait interest deadline (change m.host) =
        (H.wait interest deadline m.host).map (Prod.map id change))
    (hs : m.step P H = some (m₁, events)) :
    ∃ e₁, step P H ⟨e', m.policy, change m.host⟩ = some (⟨e₁, m₁.policy, change m₁.host⟩, events) ∧
      R m₁.engine e₁ := by
  rw [step] at hs ⊢
  generalize m.engine.request = r at *
  generalize e'.request = r' at *
  cases ha with
  | @transmit s next next' h =>
    simp only [hi.send, Prod.map, id] at hs ⊢
    cases ho : (H.send s.header.encode s.payload m.host).1 with
    | error cause =>
      simp only [ho] at hs ⊢
      cases hs
      exact ⟨_, rfl, h _⟩
    | ok u =>
      simp only [ho] at hs ⊢
      cases hs
      exact ⟨_, rfl, h _⟩
  | resend h =>
    simp only [hi.send, Prod.map, id] at hs ⊢
    cases hs
    exact ⟨_, rfl, h _⟩
  | @receive capacity next next' h =>
    simp only [hi.receive] at hs ⊢
    obtain ⟨answer, ha, hs⟩ := Option.map_eq_some_iff.mp hs
    cases hs
    rw [ha]
    exact ⟨_, rfl, h _⟩
  | read h =>
    simp only [hi.read, Prod.map, id] at hs ⊢
    cases hs
    exact ⟨_, rfl, h _⟩
  | write h =>
    simp only [hi.write, Prod.map, id] at hs ⊢
    cases hs
    exact ⟨_, rfl, h _⟩
  | unblock h =>
    simp only [hi.unblock] at hs ⊢
    cases hs
    exact ⟨_, rfl, h⟩
  | peerClosed h =>
    simp only [hi.peerClosed] at hs ⊢
    cases hs
    exact ⟨_, rfl, h⟩
  | @wait interest next next' h =>
    simp only [hw interest next rfl] at hs ⊢
    obtain ⟨answer, ha, hs⟩ := Option.map_eq_some_iff.mp hs
    cases hs
    rw [ha]
    exact ⟨_, rfl, h _⟩
  | noteAck h =>
    cases hs
    exact ⟨_, rfl, h⟩
  | collectDue h =>
    cases hs
    exact ⟨_, rfl, h _⟩
  | finished result => cases hs

end Machine

end DatagramStream
