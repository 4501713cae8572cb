import DatagramStream.Proofs.Network.Safety
import DatagramStream.Proofs.Runs
import DatagramStream.Proofs.Session.Loop

/-! A call that is carried out against a script comes to an end. -/

namespace DatagramStream

def Signals.stepsLeft (s : Signals) : Nat :=
  2 + (if s.appData then 3 else 0) + (if s.networkData then 6 else 0) +
    (if s.closeRequested then 6 else 0)

def Point.stepsLeft : Point → Nat
  | sendSyn | awaitSyn => 5
  | awaitSynAck | sendSynAck => 4
  | ackSynAck | awaitFirstAck => 3
  | unblock _ => 2
  | wait => 1
  | read rest => rest.stepsLeft + 2
  | sendData _ rest => rest.stepsLeft + 1
  | receive rest => rest.stepsLeft + 5
  | noteAck _ rest => rest.stepsLeft + 4
  | deliver _ rest => rest.stepsLeft + 3
  | ackFin rest => rest.stepsLeft + 2
  | tellPeerClosed rest | ackData rest => rest.stepsLeft + 1
  | sendFin => 8
  | collectDue => 2
  | resend _ more => more.length + 2
  | ended _ => 0

def Point.isLate : Point → Bool
  | resend _ _ | wait | ended _ => true
  | _ => false

namespace Engine

variable {e e' : Engine} {events : List Event}

lemma stepsLeft_turn (e : Engine) : e.turn.point.stepsLeft ≤ 1 := by
  rw [turn]
  split_ifs <;> simp [goto, Point.stepsLeft]

lemma stepsLeft_resending (e : Engine) (datagrams : List Bytes) :
    (e.resending datagrams).point.stepsLeft ≤ datagrams.length + 1 := by
  cases datagrams with
  | nil => exact stepsLeft_turn e
  | cons datagram more => exact Nat.le_refl _

lemma stepsLeft_react (e : Engine) (rest : Signals) :
    (e.react rest).point.stepsLeft ≤ rest.stepsLeft := by
  obtain ⟨appData, networkData, closeRequested⟩ := rest
  rw [react]
  split_ifs with ha hn hc
  · simp only at ha
    subst ha
    simp only [goto, Point.stepsLeft, Signals.stepsLeft, if_true, Bool.false_eq_true, if_false]
    omega
  · simp only at ha hn
    subst hn
    simp only [goto, Point.stepsLeft, Signals.stepsLeft, if_true, Bool.false_eq_true, if_false]
    omega
  · simp only at hc
    simp only [goto, Point.stepsLeft, Signals.stepsLeft, hc.1, if_true]
    omega
  · simp only [goto, Point.stepsLeft, Signals.stepsLeft]
    omega

lemma stepsLeft_onContent (e : Engine) (g : Segment) (rest : Signals) :
    (e.onContent g rest).point.stepsLeft ≤ rest.stepsLeft + 3 := by
  rw [onContent]
  split_ifs
  · exact Nat.le_succ _
  · exact Nat.le_refl _
  · exact Nat.le_add_right_of_le (stepsLeft_react e rest)

lemma stepsLeft_onSegment (e : Engine) (g : Segment) (rest : Signals) :
    (e.onSegment g rest).point.stepsLeft ≤ rest.stepsLeft + 4 := by
  rw [onSegment]
  split_ifs
  · exact Nat.le_refl _
  · exact Nat.le_succ_of_le (stepsLeft_onContent e g rest)

lemma stepsLeft_onFinAnswered (e : Engine) (rest : Signals) :
    (e.onFinAnswered rest).point.stepsLeft ≤ rest.stepsLeft + 1 := by
  rw [onFinAnswered]
  split_ifs
  · exact Nat.le_succ_of_le (stepsLeft_react _ rest)
  · exact Nat.le_refl _

lemma stepsLeft_opened (e : Engine) (outcome : Except ConnectionError Unit) :
    (e.opened outcome).point.stepsLeft ≤ 1 := by
  cases outcome with
  | error cause => exact Nat.zero_le 1
  | ok u =>
    rw [opened]
    split_ifs
    · exact stepsLeft_turn e
    · exact Nat.zero_le 1
    · exact Nat.zero_le 1

lemma LoopStep.stepsLeft_lt (h : e.LoopStep events e') (hw : e.point ≠ .wait)
    (hd : ∀ datagrams, .due datagrams ∈ events → datagrams = []) :
    e'.point.stepsLeft < e.point.stepsLeft := by
  cases h with
  | wait => exact absurd rfl hw
  | readNone e rest | drop e rest | sendData e payload rest | ackData e rest
  | tellPeerClosed e rest =>
    exact Nat.lt_of_le_of_lt (stepsLeft_react _ rest) (Nat.lt_add_of_pos_right (by decide))
  | hear e rest => exact Nat.lt_of_le_of_lt (stepsLeft_onSegment e _ rest) (Nat.lt_succ_self _)
  | noteAck e g rest => exact Nat.lt_of_le_of_lt (stepsLeft_onContent _ g rest) (Nat.lt_succ_self _)
  | ackFin e rest => exact Nat.lt_of_le_of_lt (stepsLeft_onFinAnswered e rest) (Nat.lt_succ_self _)
  | readSome | sendFin => exact Nat.lt_succ_self _
  | deliver e payload rest => exact Nat.add_lt_add_left (by decide : 1 < 3) _
  | refuse => exact Nat.succ_pos _
  | collectDue e datagrams =>
    obtain rfl := hd datagrams List.mem_cons_self
    exact Nat.lt_succ_of_le (stepsLeft_turn e)
  | resend e datagram more => exact Nat.lt_succ_of_le (stepsLeft_resending e more)
  | @fail e p c cause may failure => cases p <;> first | exact Nat.succ_pos _ | cases may

lemma stepsLeft_opening (hp : e.stage = .opening) (hs : e.Step events e') :
    e'.point.stepsLeft < e.point.stepsLeft := by
  obtain ⟨config, ctx, thenLoop, point⟩ := e
  cases point with
  | sendSyn | ackSynAck | sendSynAck =>
    obtain ⟨outcome, rfl⟩ := Request.Answered.of_transmit hs
    cases outcome <;> simp [onOpening, broken, goto, Point.stepsLeft]
  | awaitSynAck | awaitSyn | awaitFirstAck =>
    obtain ⟨outcome, -, rfl⟩ := hs
    rw [onReply]
    split
    · simp [broken, goto, Point.stepsLeft]
    · simp [unresolved, goto, Point.stepsLeft]
    · simp only [onSynAck, onSyn, onFirstAck]
      split_ifs <;> simp [unresolved, goto, Point.stepsLeft]
  | unblock outcome =>
    obtain ⟨-, rfl⟩ := hs
    exact Nat.lt_succ_of_le (stepsLeft_opened _ outcome)
  | _ => cases hp

lemma stepsLeft_step (hs : e.Step events e') (hw : e.point ≠ .wait)
    (hd : ∀ datagrams, .due datagrams ∈ events → datagrams = []) :
    e'.point.stepsLeft < e.point.stepsLeft := by
  cases hp : e.stage with
  | opening => exact stepsLeft_opening hp hs
  | serving => exact (loopStep_of_step hp hs).stepsLeft_lt hw hd
  | finished => exact absurd hp (stage_ne_finished hs)

lemma isLate_resending (e : Engine) (datagrams : List Bytes) :
    (e.resending datagrams).point.isLate = true := by
  cases datagrams with
  | nil =>
    rw [resending, turn]
    split_ifs <;> rfl
  | cons datagram more => rfl

lemma not_due_of_step (hs : e.Step events e') (hp : e.point ≠ .collectDue)
    (datagrams : List Bytes) :
    .due datagrams ∉ events := by
  obtain ⟨config, ctx, thenLoop, point⟩ := e
  cases point with
  | sendSyn | ackSynAck | sendSynAck | sendData | ackFin | ackData | sendFin =>
    obtain ⟨rfl, -⟩ | ⟨cause, rfl, -⟩ := hs <;> simp
  | awaitSynAck | awaitSyn | awaitFirstAck | read | receive | deliver | resend =>
    obtain ⟨outcome, rfl, -⟩ := hs
    simp
  | unblock | noteAck | tellPeerClosed =>
    obtain ⟨rfl, -⟩ := hs
    simp
  | wait =>
    obtain ⟨deadline, outcome, rfl, -⟩ := hs
    simp
  | collectDue => exact absurd rfl hp
  | ended => exact hs.elim

lemma isLate_or_stepsLeft_lt (hs : e.Step events e') (hw : e.point ≠ .wait) :
    (e.point.isLate = false ∧ e'.point.isLate = true) ∨
      (e'.point.isLate = e.point.isLate ∧ e'.point.stepsLeft < e.point.stepsLeft) := by
  by_cases hp : e.point = .collectDue
  · obtain ⟨config, ctx, thenLoop, point⟩ := e
    obtain rfl : point = .collectDue := hp
    obtain ⟨datagrams, -, rfl⟩ := hs
    exact .inl ⟨rfl, isLate_resending _ datagrams⟩
  · have hless := stepsLeft_step hs hw fun datagrams hd =>
      absurd hd (not_due_of_step hs hp datagrams)
    cases hlate : e.point.isLate with
    | false =>
      cases hlate' : e'.point.isLate with
      | false => exact .inr ⟨rfl, hless⟩
      | true => exact .inl ⟨rfl, rfl⟩
    | true =>
      refine .inr ⟨?_, hless⟩
      obtain ⟨config, ctx, thenLoop, point⟩ := e
      cases point with
      | resend datagram more =>
        obtain ⟨outcome, -, rfl⟩ := hs
        cases outcome with
        | error cause => rfl
        | ok u => exact isLate_resending _ more
      | wait => exact absurd rfl hw
      | ended => exact hs.elim
      | _ => cases hlate

lemma point_of_request_wait {interest : Signals} {next : Except IoError Signals → Engine}
    (h : e.request = .wait interest next) : e.point = .wait := by
  obtain ⟨config, ctx, thenLoop, point⟩ := e
  cases point <;> first | rfl | cases h

end Engine

namespace Script

lemma events_receive (capacity : Nat) (s : Script) : (s.receive capacity).2.events = s.events := by
  obtain ⟨net, app, events, sendFaults, writeFaults⟩ := s
  rcases net with _ | ⟨_ | datagram, net⟩ <;> rfl

lemma events_read (limit : Nat) (s : Script) : (s.read limit).2.events = s.events := by
  obtain ⟨net, app, events, sendFaults, writeFaults⟩ := s
  rcases app with _ | ⟨_ | data, app⟩ <;> rfl

end Script

namespace Machine

variable {π : Type} {P : Policy π} {m m' : Machine π Script} {events : List Event}

def stepsLeft (m : Machine π Script) : ℕ × ℕ × ℕ :=
  (m.host.events.length, (!m.engine.point.isLate).toNat, m.engine.point.stepsLeft)

lemma events_step (h : m.step P Script.host = some (m', events)) (hw : m.engine.point ≠ .wait) :
    m'.host.events = m.host.events := by
  rw [step] at h
  cases hr : m.engine.request with
  | transmit g next =>
    rw [hr] at h
    dsimp only at h
    split at h
    · cases h
      rfl
    · cases h
      rfl
  | resend | write | unblock | peerClosed | noteAck | collectDue =>
    rw [hr] at h
    cases h
    rfl
  | receive capacity next =>
    rw [hr] at h
    cases h
    exact Script.events_receive capacity m.host
  | read limit next =>
    rw [hr] at h
    cases h
    exact Script.events_read limit m.host
  | wait interest next => exact absurd (Engine.point_of_request_wait hr) hw
  | finished result =>
    rw [hr] at h
    cases h

lemma exists_step (P : Policy π) (hr : m.engine.result? = none) :
    ∃ m' events, m.step P Script.host = some (m', events) := by
  obtain ⟨⟨config, ctx, thenLoop, point⟩, policy, host⟩ := m
  cases point with
  | ended result => cases hr
  | sendSyn | ackSynAck | sendSynAck | sendData | ackFin | ackData | sendFin =>
    rw [step]
    dsimp only [Engine.request]
    split
    · exact ⟨_, _, rfl⟩
    · exact ⟨_, _, rfl⟩
  | _ => exact ⟨_, _, rfl⟩

lemma stepsLeft_lt (h : m.step P Script.host = some (m', events)) :
    Prod.Lex (· < ·) (Prod.Lex (· < ·) (· < ·)) m'.stepsLeft m.stepsLeft := by
  by_cases hw : m.engine.point = .wait
  · obtain ⟨⟨config, ctx, thenLoop, point⟩, policy, ⟨net, app, turns, sendFaults, writeFaults⟩⟩ := m
    obtain rfl : point = .wait := hw
    cases turns with
    | nil =>
      -- An exhausted script fails the wait, which ends the call.
      cases h
      exact .right _ (.right _ Nat.one_pos)
    | cons answer turns =>
      cases h
      exact .left _ _ (Nat.lt_succ_self _)
  · have hevents := events_step h hw
    rw [stepsLeft, stepsLeft, hevents]
    apply Prod.Lex.right
    obtain ⟨hearly, hlate⟩ | ⟨hsame, hless⟩ := Engine.isLate_or_stepsLeft_lt (step_engine h) hw
    · rw [hearly, hlate]
      exact .left _ _ Nat.one_pos
    · rw [hsame]
      exact .right _ hless

theorem exists_ended_of_policy (P : Policy π) (m : Machine π Script) :
    ∃ t m', Runs P Script.host m t m' ∧ m'.engine.result?.isSome := by
  cases hr : m.engine.result? with
  | some result => exact ⟨[], m, .refl m, by rw [hr]; rfl⟩
  | none =>
    obtain ⟨m', events, hs⟩ := exists_step P hr
    obtain ⟨t, m'', ht, hend⟩ := exists_ended_of_policy P m'
    exact ⟨events ++ t, m'', .step hs ht, hend⟩
termination_by m.stepsLeft
decreasing_by exact stepsLeft_lt hs

theorem exists_ended (m : Machine Unit Script) :
    ∃ t m', Runs .inert Script.host m t m' ∧ m'.engine.result?.isSome :=
  exists_ended_of_policy .inert m

end Machine

end DatagramStream
