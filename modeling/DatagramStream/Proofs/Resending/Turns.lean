import DatagramStream.Proofs.Session.Opening

/-! A run takes turns: each waits, reacts, and then puts back on the channel what the policy wants.
-/

namespace DatagramStream

namespace Event

def isReaction : Event → Bool
  | wait _ _ _ | due _ | resend _ _ _ => false
  | _ => true

def fails : Event → Bool
  | write _ (.error _) => true
  | c => c.isFailure

def resent (p : Bytes × Bytes) : Event :=
  resend p.1 p.2 (.ok ())

end Event

namespace Trace

def Calm (t : Trace) : Prop :=
  ∀ c ∈ t, c.isReaction = true

/-- Nothing but whole turns, after a handshake. What the policy has named goes out at once, and each
time in full: two parts that make up the datagram. -/
inductive Turned : Trace → Prop
  | opening {t : Trace} : t.Calm → Turned t
  | turn {t reactions : Trace} (interest : Signals) (deadline : Option Millis) (ready : Signals)
      (again : List (Bytes × Bytes)) :
      Turned t → reactions.Calm →
        Turned (t ++ .wait interest deadline (.ok ready) :: (reactions ++
          .due (again.map fun p => p.1 ++ p.2) :: again.map Event.resent))

inductive BrokenOff : Trace → Prop
  | wait {t : Trace} (interest : Signals) (deadline : Option Millis) (cause : IoError) :
      Turned t → BrokenOff (t ++ [.wait interest deadline (.error cause)])
  | reaction {t reactions : Trace} {c : Event} (interest : Signals) (deadline : Option Millis)
      (ready : Signals) :
      Turned t → reactions.Calm → c.isReaction = true → c.fails = true →
        BrokenOff (t ++ .wait interest deadline (.ok ready) :: (reactions ++ [c]))

def SentAgain (t : Trace) : Prop :=
  ∀ header payload cause, .resend header payload (.error cause) ∉ t

def Reacting (t : Trace) : Prop :=
  ∃ front reactions interest deadline ready, Turned front ∧ Calm reactions ∧
    t = front ++ .wait interest deadline (.ok ready) :: reactions

def Resending (left : List Bytes) (t : Trace) : Prop :=
  ∃ front reactions interest deadline ready, ∃ again : List (Bytes × Bytes),
    Turned front ∧ Calm reactions ∧
      t = front ++ .wait interest deadline (.ok ready) :: (reactions ++
        .due (again.map (fun p => p.1 ++ p.2) ++ left) :: again.map Event.resent)

variable {t u : Trace}

lemma calm_nil : Calm [] := by
  intro c hc
  cases hc

lemma Calm.append (h : t.Calm) (hu : u.Calm) : Calm (t ++ u) := by
  intro c hc
  rcases List.mem_append.mp hc with hc | hc
  · exact h c hc
  · exact hu c hc

lemma calm_singleton {c : Event} (h : c.isReaction = true) : Calm [c] := by
  intro d hd
  rw [List.mem_singleton.mp hd]
  exact h

lemma calm_transmitted (g : Segment) : Calm g.transmitted := by
  intro c hc
  rcases List.mem_cons.mp hc with rfl | hc
  · rfl
  · rw [List.mem_singleton.mp hc]
    rfl

lemma sentAgain_nil : SentAgain [] := by
  intro header payload cause hc
  cases hc

lemma SentAgain.append (h : t.SentAgain) (hu : u.SentAgain) : SentAgain (t ++ u) := by
  intro header payload cause hc
  rcases List.mem_append.mp hc with hc | hc
  · exact h header payload cause hc
  · exact hu header payload cause hc

lemma SentAgain.left (h : SentAgain (t ++ u)) : t.SentAgain := by
  intro header payload cause hc
  exact h header payload cause (List.mem_append_left u hc)

lemma SentAgain.right (h : SentAgain (t ++ u)) : u.SentAgain := by
  intro header payload cause hc
  exact h header payload cause (List.mem_append_right t hc)

lemma Reacting.append (h : t.Reacting) (hu : u.Calm) : Reacting (t ++ u) := by
  obtain ⟨front, reactions, interest, deadline, ready, hfront, hcalm, rfl⟩ := h
  exact ⟨front, reactions ++ u, interest, deadline, ready, hfront, hcalm.append hu, by simp⟩

lemma Reacting.broken {c : Event} (h : t.Reacting) (hc : c.isReaction = true)
    (hf : c.fails = true) :
    BrokenOff (t ++ [c]) := by
  obtain ⟨front, reactions, interest, deadline, ready, hfront, hcalm, rfl⟩ := h
  have hbroken := BrokenOff.reaction interest deadline ready hfront hcalm hc hf
  rwa [← List.cons_append, ← List.append_assoc] at hbroken

lemma Reacting.due (h : t.Reacting) (datagrams : List Bytes) :
    Resending datagrams (t ++ [.due datagrams]) := by
  obtain ⟨front, reactions, interest, deadline, ready, hfront, hcalm, rfl⟩ := h
  exact ⟨front, reactions, interest, deadline, ready, [], hfront, hcalm, by simp⟩

lemma Resending.resend {header payload : Bytes} {more : List Bytes}
    (h : Resending ((header ++ payload) :: more) t) :
    Resending more (t ++ [.resend header payload (.ok ())]) := by
  obtain ⟨front, reactions, interest, deadline, ready, again, hfront, hcalm, rfl⟩ := h
  exact ⟨front, reactions, interest, deadline, ready, again ++ [(header, payload)], hfront, hcalm,
    by simp [Event.resent]⟩

lemma Resending.turned (h : Resending [] t) : Turned t := by
  obtain ⟨front, reactions, interest, deadline, ready, again, hfront, hcalm, rfl⟩ := h
  rw [List.append_nil]
  exact .turn interest deadline ready again hfront hcalm

end Trace

def Point.isReaction : Point → Bool
  | read _ | sendData _ _ | receive _ | noteAck _ _ | ackFin _ | tellPeerClosed _ | deliver _ _
  | ackData _ => true
  | sendFin | collectDue => true
  | _ => false

namespace Engine

def Paced (t : Trace) (e : Engine) : Prop :=
  match e.point with
  | .wait | .ended (.ok ()) => t.Turned
  | .ended (.error _) => t.Turned ∨ t.BrokenOff
  | .resend datagram more => t.Resending (datagram :: more)
  | p => if p.isReaction then t.Reacting else t.Calm

variable {e e' : Engine} {t : Trace} {events : List Event}

lemma paced_of_reaction (hp : e.point.isReaction = true) (h : t.Reacting) : e.Paced t := by
  obtain ⟨config, ctx, thenLoop, point⟩ := e
  cases point <;> first | exact h | cases hp

lemma Paced.reacting (h : e.Paced t) (hp : e.point.isReaction = true) : t.Reacting := by
  obtain ⟨config, ctx, thenLoop, point⟩ := e
  cases point <;> first | exact h | cases hp

lemma paced_turn (h : t.Turned) : e.turn.Paced t := by
  rw [turn]
  split_ifs <;> exact h

lemma paced_resending {datagrams : List Bytes} (h : t.Resending datagrams) :
    (e.resending datagrams).Paced t := by
  cases datagrams with
  | nil => exact paced_turn h.turned
  | cons datagram more => exact h

lemma isReaction_react (e : Engine) (rest : Signals) : (e.react rest).point.isReaction = true := by
  rw [react]
  split_ifs <;> rfl

lemma isReaction_onContent (e : Engine) (g : Segment) (rest : Signals) :
    (e.onContent g rest).point.isReaction = true := by
  rw [onContent]
  split_ifs
  · rfl
  · rfl
  · exact isReaction_react e rest

lemma isReaction_onSegment (e : Engine) (g : Segment) (rest : Signals) :
    (e.onSegment g rest).point.isReaction = true := by
  rw [onSegment]
  split_ifs
  · rfl
  · exact isReaction_onContent e g rest

lemma isReaction_onFinAnswered (e : Engine) (rest : Signals) :
    (e.onFinAnswered rest).point.isReaction = true := by
  rw [onFinAnswered]
  split_ifs
  · exact isReaction_react _ rest
  · rfl

/-! The handshake. -/

lemma paced_opening (hp : e.stage = .opening) : e.Paced t ↔ t.Calm := by
  obtain ⟨config, ctx, thenLoop, point⟩ := e
  cases point <;> first | exact Iff.rfl | cases hp

lemma calm_transmit {g : Segment} {next : Except IoError Unit → Engine}
    (hs : (Request.transmit g next).Answered events e') : Trace.Calm events := by
  obtain ⟨rfl, -⟩ | ⟨cause, rfl, -⟩ := hs
  · exact Trace.calm_transmitted g
  · exact Trace.calm_singleton rfl

lemma stage_onOpening {next : Engine} (hn : next.stage = .opening) (outcome : Except IoError Unit) :
    (e.onOpening next outcome).stage = .opening := by
  cases outcome with
  | error cause => rfl
  | ok u => exact hn

lemma stage_onReply {onSegment : Engine → Segment → Engine}
    (hn : ∀ g, (onSegment e g).stage = .opening) (answer : Except IoError Bytes) :
    (e.onReply onSegment answer).stage = .opening := by
  rw [onReply]
  split
  · rfl
  · rfl
  · exact hn _

lemma paced_opened (h : t.Calm) (outcome : Except ConnectionError Unit) :
    (e.opened outcome).Paced t := by
  cases outcome with
  | error cause => exact .inl (.opening h)
  | ok u =>
    rw [opened]
    split_ifs
    · exact paced_turn (.opening h)
    · exact .opening h
    · exact .inl (.opening h)

lemma Paced.step_opening (h : e.Paced t) (hp : e.stage = .opening) (hs : e.Step events e') :
    e'.Paced (t ++ events) := by
  have hcalm := (paced_opening hp).mp h
  obtain ⟨config, ctx, thenLoop, point⟩ := e
  cases point with
  | sendSyn | ackSynAck | sendSynAck =>
    have hevents := calm_transmit hs
    obtain ⟨outcome, rfl⟩ := Request.Answered.of_transmit hs
    exact (paced_opening (stage_onOpening rfl outcome)).mpr (hcalm.append hevents)
  | awaitSynAck | awaitSyn | awaitFirstAck =>
    obtain ⟨outcome, rfl, rfl⟩ := hs
    refine (paced_opening (stage_onReply (fun g => ?_) outcome)).mpr
      (hcalm.append (Trace.calm_singleton rfl))
    simp only [onSynAck, onSyn, onFirstAck]
    split_ifs <;> rfl
  | unblock outcome =>
    obtain ⟨rfl, rfl⟩ := hs
    exact paced_opened (hcalm.append (Trace.calm_singleton rfl)) outcome
  | _ => cases hp

/-! The control loop. -/

lemma calm_of_reaction (hp : e.point.isReaction = true) (hd : e.point ≠ .collectDue)
    (hs : e.Step events e') :
    Trace.Calm events := by
  obtain ⟨config, ctx, thenLoop, point⟩ := e
  cases point with
  | sendData | ackFin | ackData | sendFin => exact calm_transmit hs
  | read | receive | deliver =>
    obtain ⟨outcome, rfl, -⟩ := hs
    exact Trace.calm_singleton rfl
  | noteAck | tellPeerClosed =>
    obtain ⟨rfl, -⟩ := hs
    exact Trace.calm_singleton rfl
  | collectDue => exact absurd rfl hd
  | _ => cases hp

lemma LoopStep.of_reaction (h : e.LoopStep events e') (hp : e.point.isReaction = true)
    (hd : e.point ≠ .collectDue) :
    e'.point.isReaction = true ∨
      ∃ c cause, events = [c] ∧ c.fails = true ∧ e'.point = .ended (.error cause) := by
  cases h with
  | readNone | sendData | drop | tellPeerClosed | ackData => exact .inl (isReaction_react _ _)
  | hear => exact .inl (isReaction_onSegment _ _ _)
  | noteAck => exact .inl (isReaction_onContent _ _ _)
  | ackFin => exact .inl (isReaction_onFinAnswered _ _)
  | readSome | deliver | sendFin => exact .inl rfl
  | refuse e payload rest cause => exact .inr ⟨_, _, rfl, rfl, rfl⟩
  | @fail e p c cause may failure =>
    refine .inr ⟨c, cause, rfl, ?_, rfl⟩
    cases c <;> first | exact failure | cases failure
  | collectDue => exact absurd rfl hd
  | wait | resend => cases hp

lemma Paced.step_serving (h : e.Paced t) (hp : e.stage = .serving) (hs : e.Step events e')
    (hok : Trace.SentAgain events) : e'.Paced (t ++ events) := by
  -- All reactions are alike; what is left are the start of a turn and its end.
  by_cases hr : e.point.isReaction = true ∧ e.point ≠ .collectDue
  · have hcalm := calm_of_reaction hr.1 hr.2 hs
    have hreacting := h.reacting hr.1
    obtain hnext | ⟨c, cause, rfl, hfails, hended⟩ := (loopStep_of_step hp hs).of_reaction hr.1 hr.2
    · exact paced_of_reaction hnext (hreacting.append hcalm)
    · rw [Paced, hended]
      exact .inr (hreacting.broken (hcalm c List.mem_cons_self) hfails)
  · obtain ⟨config, ctx, thenLoop, point⟩ := e
    cases point with
    | wait =>
      obtain ⟨deadline, outcome, rfl, rfl⟩ := hs
      cases outcome with
      | error cause => exact .inr (.wait _ _ _ h)
      | ok ready =>
        refine paced_of_reaction (isReaction_react _ _) ?_
        exact ⟨t, [], _, _, _, h, Trace.calm_nil, rfl⟩
    | collectDue =>
      obtain ⟨datagrams, rfl, rfl⟩ := hs
      exact paced_resending (h.due datagrams)
    | resend datagram more =>
      obtain ⟨outcome, rfl, rfl⟩ := hs
      cases outcome with
      | error cause => exact absurd List.mem_cons_self (hok _ _ cause)
      | ok u =>
        refine paced_resending (Trace.Resending.resend ?_)
        rw [List.take_append_drop]
        exact h
    | sendSyn | awaitSynAck | ackSynAck | awaitSyn | sendSynAck | awaitFirstAck => cases hp
    | unblock => cases hp
    | ended => cases hp
    | _ => exact absurd ⟨rfl, by simp⟩ hr

theorem Paced.step (h : e.Paced t) (hs : e.Step events e')
    (hok : Trace.SentAgain events) : e'.Paced (t ++ events) := by
  cases hp : e.stage with
  | opening => exact h.step_opening hp hs
  | serving => exact h.step_serving hp hs hok
  | finished => exact absurd hp (stage_ne_finished hs)

lemma paced_run (config : Config) (ctx : Context) (role : Role) :
    (run config ctx role).Paced [] := by
  unfold run handshake
  cases config.validate with
  | error cause => exact Trace.calm_nil
  | ok u => cases role <;> exact Trace.calm_nil

end Engine

namespace Machine

variable {π σ : Type} {P : Policy π} {H : Host σ} {m m' : Machine π σ} {t : Trace}

theorem Steps.paced (h : m.Steps P H t m') (hp : m.engine.Paced [])
    (hok : t.SentAgain) : m'.engine.Paced t := by
  induction h with
  | refl => exact hp
  | step _ hs ih => exact (ih hok.left).step (step_engine hs) hok.right
  | surround policy host _ ih => exact ih hok

lemma turned_of_result {result : Except ConnectionError Unit} (h : m.engine.Paced t)
    (hr : m.engine.result? = some result) :
    t.Turned ∨ (∃ cause, result = .error cause) ∧ t.BrokenOff := by
  obtain ⟨⟨config, ctx, thenLoop, point⟩, policy, host⟩ := m
  cases point with
  | ended ended =>
    obtain rfl : ended = result := Option.some.inj hr
    cases ended with
    | ok u => exact .inl h
    | error cause => exact h.imp_right fun hbroken => ⟨⟨cause, rfl⟩, hbroken⟩
  | _ => cases hr

end Machine

end DatagramStream
