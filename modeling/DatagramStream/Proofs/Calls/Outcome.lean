import DatagramStream.Proofs.Calls.Retry
import DatagramStream.Proofs.Scripted

/-! All the ways in which the handshake of a new connection can go. -/

namespace DatagramStream

namespace Event

def heard? : Event → Option (Option Segment)
  | receive capacity (.ok d) => some (Segment.ofBuffer capacity d).toOption
  | _ => none

end Event

def Trace.heard (t : Trace) : List (Option Segment) :=
  t.filterMap Event.heard?

@[simp] lemma Trace.heard_append (t u : Trace) : heard (t ++ u) = heard t ++ heard u :=
  List.filterMap_append

lemma Trace.heard_of_good {capacity : Nat} {d : Bytes} {g : Segment}
    (h : Segment.ofBuffer capacity d = .ok g) :
    heard [.receive capacity (.ok d)] = [some g] := by
  simp [heard, Event.heard?, h, Except.toOption]

lemma Trace.heard_of_bad {capacity : Nat} {d : Bytes} {cause : SegmentError}
    (h : Segment.ofBuffer capacity d = .error cause) :
    heard [.receive capacity (.ok d)] = [none] := by
  simp [heard, Event.heard?, h, Except.toOption]

def Welcomes (acks : AckCheck) (isn : SeqNum) (heard : List (Option Segment)) : Role → Prop
  | .active =>
    ∃ syn, heard = [some syn] ∧ syn.header.flags.syn = true ∧ syn.header.flags.ack = true ∧
      acks.accepts syn.header.ack (isn + 1) = true
  | .passive => ∃ syn ack, heard = [some syn, some ack] ∧ syn.header.flags.syn = true ∧
      ack.header.flags.ack = true ∧ acks.accepts ack.header.ack (isn + 1) = true

def Segment.bare (config : Config) (flags : Flags) (seq ack : SeqNum) : Segment :=
  ⟨{ seq := seq, ack := ack, flags := flags, window := config.window }, []⟩

def openingSegments (config : Config) (isn peer : SeqNum) : Role → List Segment
  | .active => [.bare config .synOnly isn 0, .bare config .ackOnly (isn + 1) (peer + 1)]
  | .passive => [.bare config .synAck isn (peer + 1)]

def Point.takes (acks : AckCheck) (isn : SeqNum) : Point → Segment → Bool
  | awaitSynAck, g =>
    g.header.flags.syn && (g.header.flags.ack && acks.accepts g.header.ack (isn + 1))
  | awaitSyn, g => g.header.flags.syn
  | awaitFirstAck, g => g.header.flags.ack && acks.accepts g.header.ack (isn + 1)
  | _, _ => false

def Point.isAwaiting : Point → Bool
  | awaitSynAck | awaitSyn | awaitFirstAck => true
  | _ => false

/-- The error that a call leads to when it is the last one before a handshake gives up, after the
calls of `front` and in this state. -/
inductive GivesUp (config : Config) (role : Role) (front : Trace) (state : State) :
    Event → ConnectionError → Prop
  | sendFailed {header payload : Bytes} {io : IoError} :
      GivesUp config role front state (.send header payload (.error io)) (.io io)
  | receiveFailed {io : IoError} :
      GivesUp config role front state (.receive config.receiveCapacity (.error io)) (.io io)
  | closed :
      GivesUp config role front state (.receive config.receiveCapacity (.ok [])) .channelClosed
  | unresolved {d : Bytes} : d ≠ [] →
      state = role.pick .synSent (if front = [] then .listen else .synReceived) →
        GivesUp config role front state (.receive config.receiveCapacity (.ok d))
          (.handshakeIncomplete state)

section

variable (config : Config) (isn : SeqNum)

inductive Course : Role → Trace → Context → Point → Prop
  | sendSyn : Course .active [] { Context.new isn with state := .synSent } .sendSyn
  | awaitSynAck : Course .active (Segment.bare config .synOnly isn 0).transmitted
      { Context.new isn with state := .synSent } .awaitSynAck
  | ackSynAck {d : Bytes} {syn : Segment} : Segment.ofBuffer config.receiveCapacity d = .ok syn →
      Point.awaitSynAck.takes config.acks isn syn = true →
        Course .active
          ((Segment.bare config .synOnly isn 0).transmitted ++
            [.receive config.receiveCapacity (.ok d)])
          { Context.new isn with
            state := .synSent, next := isn + 1, expected := syn.header.seq + 1 } .ackSynAck
  | awaitSyn : Course .passive [] { Context.new isn with state := .listen } .awaitSyn
  | sendSynAck {d : Bytes} {syn : Segment} : Segment.ofBuffer config.receiveCapacity d = .ok syn →
      Point.awaitSyn.takes config.acks isn syn = true →
        Course .passive [.receive config.receiveCapacity (.ok d)]
          { Context.new isn with state := .synReceived, expected := syn.header.seq + 1 } .sendSynAck
  | awaitFirstAck {d : Bytes} {syn : Segment} :
      Segment.ofBuffer config.receiveCapacity d = .ok syn →
      Point.awaitSyn.takes config.acks isn syn = true →
        Course .passive ([.receive config.receiveCapacity (.ok d)] ++
            (Segment.bare config .synAck isn (syn.header.seq + 1)).transmitted)
          { Context.new isn with
            state := .synReceived, expected := syn.header.seq + 1 } .awaitFirstAck

/-- How a handshake can end: the calls before it unblocks the application, what they leave of the
connection, and the result. -/
inductive Verdict : Role → Trace → Context → Except ConnectionError Unit → Prop
  | refused {role : Role} {cause : ConnectionError} : config.validate = .error cause →
      Verdict role [] (.new isn) (.error cause)
  | sendFailed {role : Role} {t : Trace} {ctx : Context} {p : Point} {g : Segment} {io : IoError} :
      config.validate = .ok () → Course config isn role t ctx p →
        Verdict role (t ++ [.send g.header.encode g.payload (.error io)]) ctx (.error (.io io))
  | receiveFailed {role : Role} {t : Trace} {ctx : Context} {p : Point} {io : IoError} :
      config.validate = .ok () → Course config isn role t ctx p → p.isAwaiting = true →
        Verdict role (t ++ [.receive config.receiveCapacity (.error io)]) ctx (.error (.io io))
  | closed {role : Role} {t : Trace} {ctx : Context} {p : Point} :
      config.validate = .ok () → Course config isn role t ctx p → p.isAwaiting = true →
        Verdict role (t ++ [.receive config.receiveCapacity (.ok [])]) ctx (.error .channelClosed)
  | unresolved {role : Role} {t : Trace} {ctx : Context} {p : Point} {d : Bytes} :
      config.validate = .ok () → Course config isn role t ctx p → p.isAwaiting = true → d ≠ [] →
        (∀ g, Segment.ofBuffer config.receiveCapacity d = .ok g →
          p.takes config.acks isn g = false) →
          Verdict role (t ++ [.receive config.receiveCapacity (.ok d)]) ctx
            (.error (.handshakeIncomplete ctx.state))
  | active {d : Bytes} {syn : Segment} : config.validate = .ok () →
      Segment.ofBuffer config.receiveCapacity d = .ok syn →
        Point.awaitSynAck.takes config.acks isn syn = true →
          Verdict .active ((Segment.bare config .synOnly isn 0).transmitted ++
              [.receive config.receiveCapacity (.ok d)] ++
                (Segment.bare config .ackOnly (isn + 1) (syn.header.seq + 1)).transmitted)
            (.established isn syn.header.seq) (.ok ())
  | passive {d d' : Bytes} {syn ack : Segment} : config.validate = .ok () →
      Segment.ofBuffer config.receiveCapacity d = .ok syn →
        Point.awaitSyn.takes config.acks isn syn = true →
          Segment.ofBuffer config.receiveCapacity d' = .ok ack →
          Point.awaitFirstAck.takes config.acks isn ack = true →
            Verdict .passive ([.receive config.receiveCapacity (.ok d)] ++
                (Segment.bare config .synAck isn (syn.header.seq + 1)).transmitted ++
                  [.receive config.receiveCapacity (.ok d')])
              (.established isn syn.header.seq) (.ok ())

end

namespace Engine

def Opens (isn : SeqNum) (role : Role) (t : Trace) (e : Engine) : Prop :=
  e.thenLoop = false ∧
    match e.point with
    | .unblock outcome => ∃ result, e.opened outcome = e.goto (.ended result) ∧
        Verdict e.config isn role t e.ctx result
    | .ended result =>
      ∃ calls, t = calls ++ [.unblock] ∧ Verdict e.config isn role calls e.ctx result
    | p => e.config.validate = .ok () ∧ Course e.config isn role t e.ctx p

end Engine

lemma Config.invalidConfig_of_error {config : Config} {cause : ConnectionError}
    (h : config.validate = .error cause) :
    ∃ text, cause = .invalidConfig text := by
  rw [validate] at h
  split_ifs at h
  cases h
  exact ⟨_, rfl⟩

lemma Course.state_ne {config : Config} {isn : SeqNum} {role : Role} {t : Trace} {ctx : Context}
    {p : Point} (h : Course config isn role t ctx p) : ctx.state ≠ .established := by
  intro hs
  cases h <;> cases hs

namespace Engine

variable {e e' : Engine} {config : Config} {ctx : Context} {p : Point} {isn : SeqNum} {role : Role}
  {t : Trace} {events : List Event}

lemma opened_of_course (h : Course config isn role t ctx p) :
    (⟨config, ctx, false, .unblock (.ok ())⟩ : Engine).opened (.ok ()) =
      ⟨config, ctx, false, .ended (.error (.handshakeIncomplete ctx.state))⟩ :=
  if_neg h.state_ne

namespace Opens

lemma transmit {g : Segment} {next : Engine} (hv : config.validate = .ok ())
    (h : Course config isn role t ctx p) (hn : next.Opens isn role (t ++ g.transmitted))
    (hs : (Request.transmit g (onOpening ⟨config, ctx, false, p⟩ next)).Answered events e') :
    e'.Opens isn role (t ++ events) := by
  obtain ⟨rfl, rfl⟩ | ⟨io, rfl, rfl⟩ := hs
  · exact hn
  · exact ⟨rfl, _, rfl, .sendFailed hv h⟩

lemma reply {onSegment : Engine → Segment → Engine} {answer : Except IoError Bytes}
    (hv : config.validate = .ok ()) (h : Course config isn role t ctx p) (hp : p.isAwaiting = true)
    (hother : ∀ g, p.takes config.acks isn g = false →
      onSegment ⟨config, ctx, false, p⟩ g = unresolved ⟨config, ctx, false, p⟩)
    (htakes : ∀ d g, Segment.ofBuffer config.receiveCapacity d = .ok g →
      p.takes config.acks isn g = true →
        (onSegment ⟨config, ctx, false, p⟩ g).Opens isn role
          (t ++ [.receive config.receiveCapacity (.ok d)])) :
    (onReply ⟨config, ctx, false, p⟩ onSegment answer).Opens isn role
      (t ++ [.receive config.receiveCapacity answer]) := by
  have stuck {d : Bytes} (hd : d ≠ [])
      (hnone : ∀ g, Segment.ofBuffer config.receiveCapacity d = .ok g →
        p.takes config.acks isn g = false) :
      (unresolved ⟨config, ctx, false, p⟩).Opens isn role
        (t ++ [.receive config.receiveCapacity (.ok d)]) :=
    ⟨rfl, _, opened_of_course h, .unresolved hv h hp hd hnone⟩
  rw [onReply]
  cases answer with
  | error io => exact ⟨rfl, _, rfl, .receiveFailed hv h hp⟩
  | ok d =>
    obtain ⟨rfl, ha⟩ | ⟨cause, hd, hbad, ha⟩ | ⟨g, good, ha⟩ :=
      arrival_cases ⟨config, ctx, false, p⟩ d
    · rw [ha]
      exact ⟨rfl, _, rfl, .closed hv h hp⟩
    · rw [ha]
      exact stuck hd fun g good => by cases hbad.symm.trans good
    · rw [ha]
      change (onSegment ⟨config, ctx, false, p⟩ g).Opens isn role _
      cases ht : p.takes config.acks isn g with
      | true => exact htakes d g good ht
      | false =>
        rw [hother g ht]
        refine stuck ?_ fun g' good' => ?_
        · rintro rfl
          cases ha
        · cases good.symm.trans good'
          exact ht

theorem step (h : e.Opens isn role t) (hs : e.Step events e') :
    e'.Opens isn role (t ++ events) := by
  obtain ⟨config, ctx, thenLoop, point⟩ := e
  obtain ⟨rfl, hpoint⟩ := h
  cases point with
  | sendSyn =>
    obtain ⟨hv, hcourse⟩ := hpoint
    refine transmit hv hcourse ?_ hs
    cases hcourse
    exact ⟨rfl, hv, .awaitSynAck⟩
  | awaitSynAck =>
    obtain ⟨hv, hcourse⟩ := hpoint
    obtain ⟨answer, rfl, rfl⟩ := hs
    cases hcourse
    refine reply hv .awaitSynAck rfl (fun g hno => if_neg (Bool.eq_false_iff.mp hno))
      fun d g good ht => ?_
    rw [onSynAck, if_pos (by exact ht)]
    exact ⟨rfl, hv, .ackSynAck good ht⟩
  | ackSynAck =>
    obtain ⟨hv, hcourse⟩ := hpoint
    refine transmit hv hcourse ?_ hs
    cases hcourse with
    | ackSynAck good ht => exact ⟨rfl, _, rfl, .active hv good ht⟩
  | awaitSyn =>
    obtain ⟨hv, hcourse⟩ := hpoint
    obtain ⟨answer, rfl, rfl⟩ := hs
    cases hcourse
    refine reply hv .awaitSyn rfl (fun g hno => if_neg (Bool.eq_false_iff.mp hno))
      fun d g good ht => ?_
    rw [onSyn, if_pos (by exact ht)]
    exact ⟨rfl, hv, .sendSynAck good ht⟩
  | sendSynAck =>
    obtain ⟨hv, hcourse⟩ := hpoint
    refine transmit hv hcourse ?_ hs
    cases hcourse with
    | sendSynAck good ht => exact ⟨rfl, hv, .awaitFirstAck good ht⟩
  | awaitFirstAck =>
    obtain ⟨hv, hcourse⟩ := hpoint
    obtain ⟨answer, rfl, rfl⟩ := hs
    cases hcourse with
    | awaitFirstAck goodSyn htSyn =>
      refine reply hv (.awaitFirstAck goodSyn htSyn) rfl
        (fun g hno => if_neg (Bool.eq_false_iff.mp hno))
        fun d g good ht => ?_
      rw [onFirstAck, if_pos (by exact ht)]
      exact ⟨rfl, _, rfl, .passive hv goodSyn htSyn good ht⟩
  | unblock outcome =>
    obtain ⟨result, hopened, hverdict⟩ := hpoint
    obtain ⟨rfl, rfl⟩ := hs
    rw [hopened]
    exact ⟨rfl, t, rfl, hverdict⟩
  | ended result => exact hs.elim
  | _ => cases hpoint.2

lemma stage (h : e.Opens isn role t) : e.stage ≠ .serving := by
  obtain ⟨config, ctx, thenLoop, point⟩ := e
  obtain ⟨-, hpoint⟩ := h
  intro hs
  cases point with
  | sendSyn | awaitSynAck | ackSynAck | awaitSyn | sendSynAck | awaitFirstAck => cases hs
  | unblock outcome => cases hs
  | ended result => cases hs
  | _ => cases hpoint.2

end Opens

end Engine

namespace Course

variable {config : Config} {isn : SeqNum} {role : Role} {t : Trace} {ctx : Context} {p : Point}

lemma not_welcomes (h : Course config isn role t ctx p) (hp : p.isAwaiting = true)
    (found : Option (Option Segment))
    (hf : ∀ g, found = some (some g) → p.takes config.acks isn g = false) :
    ¬ Welcomes config.acks isn (t.heard ++ found.toList) role := by
  cases h with
  | awaitSynAck =>
    rintro ⟨syn, hs, hsyn, hack, haccepts⟩
    have htakes := hf syn (Option.toList_eq_singleton_iff.mp hs)
    simp [Point.takes, hsyn, hack, haccepts] at htakes
  | awaitSyn =>
    rintro ⟨syn, ack, hs, -⟩
    cases found <;> cases hs
  | awaitFirstAck good ht =>
    rintro ⟨syn, ack, hs, -, hack, haccepts⟩
    rw [Trace.heard_append, Trace.heard_of_good good] at hs
    obtain ⟨-, hs⟩ := List.cons.inj hs
    have htakes := hf ack (Option.toList_eq_singleton_iff.mp hs)
    simp [Point.takes, hack, haccepts] at htakes
  | _ => cases hp

end Course

namespace Verdict

variable {config : Config} {isn : SeqNum} {role : Role} {t : Trace} {ctx : Context}
  {result : Except ConnectionError Unit}

theorem ok_iff (h : Verdict config isn role t ctx result) : result = .ok () ↔
    config.validate = .ok () ∧ t.Unhindered ∧ Welcomes config.acks isn t.heard role := by
  cases h with
  | refused hv => simp [hv]
  | sendFailed hv hc =>
    refine iff_of_false (by simp) ?_
    rintro ⟨-, hu, -⟩
    exact absurd (List.mem_append_right _ List.mem_cons_self) (hu _ _ _)
  | receiveFailed hv hc hp =>
    refine iff_of_false (by simp) ?_
    rintro ⟨-, -, hw⟩
    rw [Trace.heard_append] at hw
    exact hc.not_welcomes hp none (by simp) hw
  | closed hv hc hp =>
    refine iff_of_false (by simp) ?_
    rintro ⟨-, -, hw⟩
    obtain ⟨cause, hbad⟩ : ∃ cause, Segment.ofBuffer config.receiveCapacity [] = .error cause := by
      rw [Segment.ofBuffer]
      split_ifs <;> exact ⟨_, rfl⟩
    rw [Trace.heard_append, Trace.heard_of_bad hbad] at hw
    exact hc.not_welcomes hp (some none) (by simp) hw
  | @unresolved role t ctx p d hv hc hp hd hno =>
    refine iff_of_false (by simp) ?_
    rintro ⟨-, -, hw⟩
    rw [Trace.heard_append] at hw
    cases hb : Segment.ofBuffer config.receiveCapacity d with
    | error cause =>
      rw [Trace.heard_of_bad hb] at hw
      exact hc.not_welcomes hp (some none) (by simp) hw
    | ok g =>
      rw [Trace.heard_of_good hb] at hw
      refine hc.not_welcomes hp (some (some g)) (fun g' hg' => ?_) hw
      cases hg'
      exact hno g hb
  | active hv good ht =>
    refine iff_of_true rfl ⟨hv, by simp [Trace.Unhindered, Segment.transmitted], ?_⟩
    simp only [Point.takes, Bool.and_eq_true] at ht
    rw [Trace.heard_append, Trace.heard_append, Trace.heard_of_good good]
    exact ⟨_, rfl, ht.1, ht.2⟩
  | passive hv goodSyn hsyn goodAck hack =>
    refine iff_of_true rfl ⟨hv, by simp [Trace.Unhindered, Segment.transmitted], ?_⟩
    simp only [Point.takes, Bool.and_eq_true] at hack
    rw [Trace.heard_append, Trace.heard_append, Trace.heard_of_good goodSyn,
      Trace.heard_of_good goodAck]
    exact ⟨_, _, rfl, hsyn, hack⟩

lemma opened (h : Verdict config isn role t ctx (.ok ())) :
    ∃ syn, t.heard.head? = some (some syn) ∧ ctx = .established isn syn.header.seq ∧
      t.datagrams = (openingSegments config isn syn.header.seq role).map Segment.encode := by
  cases h with
  | @active d syn hv good =>
    refine ⟨syn, ?_, rfl, rfl⟩
    rw [Trace.heard_append, Trace.heard_append, Trace.heard_of_good good]
    rfl
  | @passive d d' syn ack hv good =>
    refine ⟨syn, ?_, rfl, rfl⟩
    rw [Trace.heard_append, Trace.heard_append, Trace.heard_of_good good]
    rfl

lemma givesUp {cause : ConnectionError} (hv : config.validate = .ok ())
    (h : Verdict config isn role t ctx (.error cause)) :
    ∃ front c, t = front ++ [c] ∧ GivesUp config role front ctx.state c cause := by
  cases h with
  | refused hv' => cases hv.symm.trans hv'
  | sendFailed => exact ⟨_, _, rfl, .sendFailed⟩
  | receiveFailed => exact ⟨_, _, rfl, .receiveFailed⟩
  | closed => exact ⟨_, _, rfl, .closed⟩
  | unresolved _ hc hp hd =>
    refine ⟨_, _, rfl, .unresolved hd ?_⟩
    cases hc <;> rfl

end Verdict

namespace Machine

variable {π σ : Type} {P : Policy π} {H : Host σ} {m : Machine π σ} {isn : SeqNum} {role : Role}
  {t : Trace}

structure Outcome (H : Host σ) (config : Config) (isn : SeqNum) (role : Role) (m : Machine π σ)
    (t : Trace) : Prop where
  blocked : m.engine.result? = none →
    H.receive config.receiveCapacity m.host = none ∧ Event.unblock ∉ t
  unblocked : m.engine.result?.isSome → ∃ calls, t = calls ++ [.unblock] ∧ Event.unblock ∉ calls
  ok_iff : m.engine.result? = some (.ok ()) ↔
    config.validate = .ok () ∧ t.Unhindered ∧ Welcomes config.acks isn t.heard role
  opened : m.engine.result? = some (.ok ()) → ∃ syn, t.heard.head? = some (some syn) ∧
    m.engine.ctx = .established isn syn.header.seq ∧
      t.datagrams = (openingSegments config isn syn.header.seq role).map Segment.encode
  refused : ∀ cause, config.validate = .error cause →
    m.engine.result? = some (.error cause) ∧ t = [.unblock] ∧ ∃ text, cause = .invalidConfig text
  givesUp : ∀ cause, config.validate = .ok () → m.engine.result? = some (.error cause) →
    ∃ front c, t = front ++ [c, .unblock] ∧ GivesUp config role front m.engine.ctx.state c cause

end Machine

end DatagramStream
