import DatagramStream.Proofs.Memory.Conserving
import DatagramStream.Proofs.Session.Loop
import DatagramStream.Proofs.Session.Teardown

/-! When a host in memory, and a connection on it, says that its channel is closed. -/

namespace DatagramStream

def Point.tellsClosed : Point → Bool
  | unblock (.error .channelClosed) | ended (.error .channelClosed) => true
  | _ => false

namespace Engine

variable {e e' : Engine} {events : List Event}

lemma tellsClosed_of_serving (h : e.stage = .serving) : e.point.tellsClosed = false := by
  obtain ⟨config, ctx, thenLoop, point⟩ := e
  cases point with
  | unblock opened => cases h
  | ended result => cases h
  | _ => rfl

lemma tellsClosed_turn (e : Engine) : e.turn.point.tellsClosed = false := by
  rw [turn]
  split_ifs <;> rfl

lemma tellsClosed_resending (e : Engine) (datagrams : List Bytes) :
    (e.resending datagrams).point.tellsClosed = false := by
  cases datagrams with
  | nil => exact tellsClosed_turn e
  | cons datagram more => rfl

lemma tellsClosed_opened (e : Engine) (outcome : Except ConnectionError Unit) :
    (e.opened outcome).point.tellsClosed = (Point.unblock outcome).tellsClosed := by
  cases outcome with
  | error cause => cases cause <;> rfl
  | ok u =>
    rw [opened]
    split_ifs
    · exact tellsClosed_turn e
    · rfl
    · rfl

lemma tellsClosed_onOpening {next : Engine} (hn : next.point.tellsClosed = false)
    (outcome : Except IoError Unit) :
    (e.onOpening next outcome).point.tellsClosed = false := by
  cases outcome with
  | error cause => rfl
  | ok u => exact hn

lemma tellsClosed_onSuccess {α : Type} {next : α → Engine}
    (hn : ∀ a, (next a).point.tellsClosed = false) (outcome : Except IoError α) :
    (e.onSuccess next outcome).point.tellsClosed = false := by
  cases outcome with
  | error cause => rfl
  | ok a => exact hn a

lemma tellsClosed_onReply {onSegment : Engine → Segment → Engine}
    (hn : ∀ g, (onSegment e g).point.tellsClosed = false) (answer : Except IoError Bytes) :
    (e.onReply onSegment answer).point.tellsClosed = false ∨ answer = .ok [] := by
  rw [onReply]
  cases answer with
  | error cause => exact .inl rfl
  | ok d =>
    obtain ⟨rfl, -⟩ | ⟨-, -, -, ha⟩ | ⟨g, -, ha⟩ := e.arrival_cases d
    · exact .inr rfl
    · rw [ha]
      exact .inl rfl
    · rw [ha]
      exact .inl (hn g)

lemma tellsClosed_step (hs : e.Step events e') : e'.point.tellsClosed = false ∨
    (Trace.receipts events = [] ∧ e'.point.tellsClosed = e.point.tellsClosed) ∨
      Trace.receipts events = [(e.config.receiveCapacity, .ok [])] := by
  obtain ⟨config, ctx, thenLoop, point⟩ := e
  have found {answer : Except IoError Bytes} {next : Engine}
      (h : next.point.tellsClosed = false ∨ answer = .ok []) :
      next.point.tellsClosed = false ∨
        (Trace.receipts [.receive config.receiveCapacity answer] = [] ∧
          next.point.tellsClosed = point.tellsClosed) ∨
        Trace.receipts [.receive config.receiveCapacity answer] =
          [(config.receiveCapacity, .ok [])] := by
    obtain h | rfl := h
    · exact .inl h
    · exact .inr (.inr rfl)
  cases point with
  | sendSyn | ackSynAck | sendSynAck =>
    obtain ⟨outcome, rfl⟩ := hs.of_transmit
    exact .inl (tellsClosed_onOpening rfl outcome)
  | awaitSynAck =>
    obtain ⟨outcome, rfl, rfl⟩ := hs
    exact found (tellsClosed_onReply (fun g => by rw [onSynAck]; split_ifs <;> rfl) outcome)
  | awaitSyn =>
    obtain ⟨outcome, rfl, rfl⟩ := hs
    exact found (tellsClosed_onReply (fun g => by rw [onSyn]; split_ifs <;> rfl) outcome)
  | awaitFirstAck =>
    obtain ⟨outcome, rfl, rfl⟩ := hs
    exact found (tellsClosed_onReply (fun g => by rw [onFirstAck]; split_ifs <;> rfl) outcome)
  | unblock outcome =>
    obtain ⟨rfl, rfl⟩ := hs
    exact .inr (.inl ⟨rfl, tellsClosed_opened _ outcome⟩)
  | wait =>
    obtain ⟨deadline, outcome, rfl, rfl⟩ := hs
    exact .inl
      (tellsClosed_onSuccess (fun ready => tellsClosed_of_serving (stage_react _ _)) outcome)
  | read rest =>
    obtain ⟨outcome, rfl, rfl⟩ := hs
    refine .inl (tellsClosed_onSuccess (fun data => ?_) outcome)
    cases data.isEmpty with
    | true => exact tellsClosed_of_serving (stage_react _ _)
    | false => rfl
  | receive rest =>
    obtain ⟨outcome, rfl, rfl⟩ := hs
    apply found
    cases outcome with
    | error cause => exact .inl rfl
    | ok d =>
      obtain ⟨rfl, -⟩ | ⟨-, -, -, ha⟩ | ⟨g, -, ha⟩ :=
        arrival_cases ⟨config, ctx, thenLoop, .receive rest⟩ d
      · exact .inr rfl
      · simp only [ha]
        exact .inl (tellsClosed_of_serving (stage_react _ _))
      · simp only [ha]
        exact .inl (tellsClosed_of_serving (stage_onSegment _ _ _))
  | noteAck g rest =>
    obtain ⟨rfl, rfl⟩ := hs
    exact .inl (tellsClosed_of_serving (stage_onContent _ _ _))
  | ackFin rest =>
    obtain ⟨outcome, rfl⟩ := hs.of_transmit
    exact .inl
      (tellsClosed_onSuccess (fun _ => tellsClosed_of_serving (stage_onFinAnswered _ _)) outcome)
  | tellPeerClosed rest =>
    obtain ⟨rfl, rfl⟩ := hs
    exact .inl (tellsClosed_of_serving (stage_react _ _))
  | deliver payload rest =>
    obtain ⟨outcome, rfl, rfl⟩ := hs
    exact .inl (tellsClosed_onSuccess (fun _ => rfl) outcome)
  | sendData payload rest | ackData rest =>
    obtain ⟨outcome, rfl⟩ := hs.of_transmit
    exact .inl (tellsClosed_onSuccess (fun _ => tellsClosed_of_serving (stage_react _ _)) outcome)
  | sendFin =>
    obtain ⟨outcome, rfl⟩ := hs.of_transmit
    exact .inl (tellsClosed_onSuccess (fun _ => rfl) outcome)
  | collectDue =>
    obtain ⟨datagrams, rfl, rfl⟩ := hs
    exact .inl (tellsClosed_resending _ datagrams)
  | resend datagram more =>
    obtain ⟨outcome, rfl, rfl⟩ := hs
    exact .inl (tellsClosed_onSuccess (fun _ => tellsClosed_resending _ more) outcome)
  | ended result => exact hs.elim

end Engine

namespace MemoryHost

variable {start h h' : MemoryHost} {sent : List Bytes} {log : List (Nat × Except IoError Bytes)}

/-- If the last receive had room and was still answered with nothing, then it got an empty datagram,
or the peer has closed and nothing is left. -/
def Explains (start : MemoryHost) (sent : List Bytes) (log : List (Nat × Except IoError Bytes))
    (h : MemoryHost) (received : List Bytes) : Prop :=
  start.inFlight ++ sent = received ++ h.inFlight ∧
    ∀ capacity, log.getLast? = some (capacity, .ok []) → 0 < capacity →
      received.getLast? = some [] ∨ h.Exhausted

lemma History.explained (hh : History start sent log h) :
    ∃ received, start.Explains sent log h received := by
  induction hh with
  | start => exact ⟨[], by simp, nofun⟩
  | @act sent log h act _ ih =>
    obtain ⟨received, hflight, hlast⟩ := ih
    refine ⟨received, ?_, fun capacity hl hc => (hlast capacity hl hc).imp_right fun he =>
      he.perform act⟩
    rw [inFlight_perform, ← List.append_assoc, hflight, List.append_assoc]
  | @wait sent log h h' _ _ _ _ _ hw hacts ih =>
    obtain ⟨received, hflight, hlast⟩ := ih
    obtain ⟨⟨meanwhile, hp⟩, -⟩ := wait_passes hw
    obtain rfl := meanwhile_unique hacts hp
    refine ⟨received, ?_, fun capacity hl hc => (hlast capacity hl hc).imp_right fun he =>
      (he.passes hp).2⟩
    rw [← List.append_assoc, hflight, List.append_assoc, hp.flight]
    rfl
  | @receive sent log h h' room _ _ _ hr hacts ih =>
    obtain ⟨received, hflight, -⟩ := ih
    obtain ⟨meanwhile, ⟨d, rfl, hp⟩ | ⟨rfl, hp, he⟩⟩ := receive_passes hr
    · obtain rfl := meanwhile_unique hacts hp
      refine ⟨received ++ [d], ?_, fun capacity hl hc => ?_⟩
      · rw [← List.append_assoc, hflight, List.append_assoc, hp.flight, List.append_assoc]
      · rw [List.getLast?_concat] at hl ⊢
        obtain ⟨rfl, hnone⟩ := Prod.mk.inj (Option.some.inj hl)
        obtain hzero | rfl := List.take_eq_nil_iff.mp (Except.ok.inj hnone)
        · omega
        · exact .inl rfl
    · obtain rfl := meanwhile_unique hacts hp
      refine ⟨received, ?_, fun _ _ _ => .inr he⟩
      rw [← List.append_assoc, hflight, List.append_assoc, hp.flight]
      rfl
  | @aside sent log h h' _ hpending hlink ih =>
    obtain ⟨received, hflight, hlast⟩ := ih
    have hsame : h'.inFlight = h.inFlight := by rw [inFlight, inFlight, hpending, hlink]
    refine ⟨received, by rw [hsame, hflight],
      fun capacity hl hc => (hlast capacity hl hc).imp_right fun he => ?_⟩
    exact ⟨hsame.trans he.received, by rw [hlink, he.closed]⟩

end MemoryHost

namespace Machine

open MemoryHost

variable {π : Type} {P : Policy π} {m m' m'' : Machine π MemoryHost} {t : Trace}
  {events : List Event}

lemma incoming_cases (hs : m.step P MemoryHost.host = some (m', events)) :
    (∃ interest deadline outcome, m.host.wait interest deadline = some (outcome, m'.host) ∧
        Trace.receipts events = []) ∨
      (∃ capacity outcome, m.host.receive capacity = some (outcome, m'.host) ∧
        Trace.receipts events = [(capacity, outcome)]) ∨
      Trace.receipts events = [] ∧ m'.host.app.pending = m.host.app.pending ∧
        m'.host.link.toA = m.host.link.toA ∧
        m'.host.agenda = m.host.agenda := by
  have sending {header payload : Bytes} {outcome : Except IoError Unit}
      (hsend : m.host.send header payload = (outcome, m'.host)) :
      m'.host.app.pending = m.host.app.pending ∧
        m'.host.link.toA = m.host.link.toA ∧ m'.host.agenda = m.host.agenda := by
    obtain ⟨happ, hkept⟩ := send_keeps header payload m.host
    rw [hsend] at happ hkept
    exact ⟨congrArg MemoryApp.pending happ, hkept⟩
  cases step_call hs with
  | sent header payload hsend hr => exact .inr (.inr ⟨hr, sending hsend⟩)
  | refused header payload cause hsend hr => exact .inr (.inr ⟨hr, sending hsend⟩)
  | received capacity outcome hreceive hr => exact .inr (.inl ⟨capacity, outcome, hreceive, hr⟩)
  | waited interest deadline outcome hwait hr => exact .inl ⟨interest, deadline, outcome, hwait, hr⟩
  | read limit hh hr | write data hh hr =>
    rw [hh]
    exact .inr (.inr ⟨hr, rfl, rfl, rfl⟩)
  | unblock hh hr | peerClosed hh hr | elsewhere hh hr =>
    rw [hh]
    exact .inr (.inr ⟨hr, rfl, rfl, rfl⟩)

/-- What a call on a host in memory has asked for up to some moment, and what the peer has sent by
then, between its steps and within them. -/
inductive Accompanied (P : Policy π) (m : Machine π MemoryHost) :
    List Bytes → Trace → Machine π MemoryHost → Prop
  | refl : Accompanied P m [] [] m
  | step {sent : List Bytes} {t : Trace} {m' m'' : Machine π MemoryHost} {events : List Event}
      {meanwhile : List PeerAct} :
      Accompanied P m sent t m' → m'.step P MemoryHost.host = some (m'', events) →
        m'.host.agenda.map Prod.snd = meanwhile ++ m''.host.agenda.map Prod.snd →
          Accompanied P m (sent ++ m'.host.sends meanwhile) (t ++ events) m''
  | peer {sent : List Bytes} {t : Trace} {m' : Machine π MemoryHost} (act : PeerAct) :
      Accompanied P m sent t m' →
      Accompanied P m (sent ++ m'.host.accepted act) t { m' with host := m'.host.perform act }

namespace Accompanied

variable {start : MemoryHost} {sent more : List Bytes} {log : List (Nat × Except IoError Bytes)}

lemma alone (hr : m.Accompanied P more t m') (hs : m'.step P MemoryHost.host = some (m'', events))
    (ha : m''.host.agenda = m'.host.agenda) : m.Accompanied P more (t ++ events) m'' := by
  have hstep := hr.step hs (by rw [ha, List.nil_append])
  rwa [sends, List.append_nil] at hstep

lemma history (hr : m.Accompanied P more t m') (hh : History start sent log m.host) :
    History start (sent ++ more) (log ++ t.receipts) m'.host := by
  induction hr with
  | refl =>
    rw [List.append_nil]
    exact (List.append_nil log).symm ▸ hh
  | @step more t m₁ m₂ events meanwhile _ hs hacts ih =>
    rw [← List.append_assoc, Trace.receipts_append, ← List.append_assoc]
    obtain ⟨interest, deadline, outcome, hw, hnone⟩ | ⟨capacity, outcome, hreceive, hone⟩ |
      ⟨hnone, hpending, hlink, hagenda⟩ := incoming_cases hs
    · rw [hnone, List.append_nil]
      exact ih.wait hw hacts
    · rw [hone]
      exact ih.receive hreceive hacts
    · rw [hagenda] at hacts
      obtain rfl : meanwhile = [] := List.self_eq_append_left.mp hacts
      rw [hnone, List.append_nil, sends, List.append_nil]
      exact ih.aside m₂.host hpending hlink
  | peer act _ ih =>
    rw [← List.append_assoc]
    exact ih.act act

lemma last_receipt (hr : m.Accompanied P more t m') (hm : m.engine.point.tellsClosed = false)
    (hc : m'.engine.point.tellsClosed = true) :
    ∃ capacity, 0 < capacity ∧ t.receipts.getLast? = some (capacity, .ok []) := by
  induction hr with
  | refl =>
    rw [hm] at hc
    cases hc
  | @step more t m₁ m₂ events meanwhile _ hs _ ih =>
    rw [Trace.receipts_append]
    obtain hn | ⟨hnone, hsame⟩ | hone := Engine.tellsClosed_step (step_engine hs)
    · rw [hn] at hc
      cases hc
    · rw [hnone, List.append_nil]
      exact ih (hsame.symm.trans hc)
    · rw [hone, List.getLast?_concat]
      exact ⟨_, Nat.succ_pos _, rfl⟩
  | peer act _ ih => exact ih hc

end Accompanied

/-- That the channel is closed is said only where the datagram just received is an empty one, or
where the peer has closed and all that it has sent has been received. -/
theorem closed_unless_empty {start : MemoryHost} {sent more : List Bytes}
    {log : List (Nat × Except IoError Bytes)} (hh : History start sent log m.host)
    (hm : m.engine.point.tellsClosed = false) (hr : m.Accompanied P more t m') :
    ∃ received, start.inFlight ++ (sent ++ more) = received ++ m'.host.inFlight ∧
      (∀ capacity, (log ++ t.receipts).getLast? = some (capacity, .ok []) → 0 < capacity →
        received.getLast? = some [] ∨ m'.host.Exhausted) ∧
      (m'.engine.result? = some (.error .channelClosed) →
        received.getLast? = some [] ∨ m'.host.Exhausted) := by
  obtain ⟨received, hflight, hlast⟩ := (hr.history hh).explained
  refine ⟨received, hflight, hlast, fun hend => ?_⟩
  have hclosed : m'.engine.point.tellsClosed = true := by
    rw [Engine.point_of_result hend]
    rfl
  obtain ⟨capacity, hroom, hreceipt⟩ := hr.last_receipt hm hclosed
  exact hlast capacity (by rw [List.getLast?_append, hreceipt]; rfl) hroom

theorem closed_unless_empty_deserted :
    ∃ (h : MemoryHost) (t : Trace) (m : Machine Unit MemoryHost),
      History { agenda := [(3, .drop)] } [[9]] [(4, .ok [9])] h ∧
        Accompanied Policy.inert
          ⟨.loop {} { Context.new 1 with state := .established }, (), h⟩ [[5]] t m ∧
          m.engine.result? = some (.error .channelClosed) ∧
            ∃ received, [[9], [5]] = received ++ m.host.inFlight ∧
              (received.getLast? = some [] ∨ m.host.Exhausted) := by
  let leaving : MemoryHost := { agenda := [(3, .drop)] }
  let called : Machine Unit MemoryHost :=
    ⟨.loop {} { Context.new 1 with state := .established }, (), leaving⟩
  have hstart : History leaving [] [] leaving := .start
  have hone : (leaving.perform (.send [9])).receive 4 = some (.ok [9], leaving) := rfl
  have hreceived := (hstart.act (.send [9])).receive hone (List.nil_append _).symm
  have hcalled : called.Accompanied Policy.inert [] [] called := .refl
  have hheard := ((hcalled.peer (.send [5])).alone rfl rfl).alone rfl rfl
  have hdropped := (hheard.alone rfl rfl).step rfl (List.append_nil [PeerAct.drop]).symm
  have hended := hdropped.alone rfl rfl
  obtain ⟨received, hflight, -, hclosed⟩ := closed_unless_empty hreceived rfl hended
  exact ⟨leaving, _, _, hreceived, hended, rfl, received, hflight, hclosed rfl⟩

/-- A host that has received an empty datagram says what it says when the channel is closed, and so
does a call, on a link that is open and has more to deliver. -/
theorem closed_by_empty_datagram :
    (∃ h, History {} [[], [7, 8]] [(8, .ok [])] h ∧ h.inFlight = [[7, 8]] ∧
      h.link.toA.isOpen = true) ∧
      ∃ t m, Accompanied Policy.inert ⟨.run {} (.new 1) .passive, (), {}⟩ [[], [7, 8]] t m ∧
        m.engine.result? = some (.error .channelClosed) ∧ m.host.inFlight = [[7, 8]] ∧
          m.host.link.toA.isOpen = true := by
  let fresh : MemoryHost := {}
  let both : MemoryHost := (fresh.perform (.send [])).perform (.send [7, 8])
  let listening : Machine Unit MemoryHost := ⟨.run {} (.new 1) .passive, (), fresh⟩
  constructor
  · have hstart : History fresh [] [] fresh := .start
    have hnothing : both.receive 8 = some (.ok [], both.withQueue [[7, 8]]) := rfl
    have hreceived :=
      ((hstart.act (.send [])).act (.send [7, 8])).receive hnothing (List.nil_append _).symm
    exact ⟨_, hreceived, rfl, rfl⟩
  · have hcalled : listening.Accompanied Policy.inert [] [] listening := .refl
    have hsent := (hcalled.peer (.send [])).peer (.send [7, 8])
    have hended := (hsent.alone rfl rfl).alone rfl rfl
    exact ⟨_, _, hended, rfl, rfl, rfl⟩

end Machine

end DatagramStream
