import DatagramStream.Proofs.Resending.Turns
import DatagramStream.Proofs.Scripted

/-! A policy hears of what happens, of all of it, and of nothing else. -/

namespace DatagramStream

namespace Event

def isReport : Event → Bool
  | onSend _ | onAck _ => true
  | _ => false

def isWait : Event → Bool
  | wait _ _ _ => true
  | _ => false

def isDue : Event → Bool
  | due _ => true
  | _ => false

def isResend : Event → Bool
  | resend _ _ _ => true
  | _ => false

lemma of_isReaction {c : Event} (h : c.isReaction = true) :
    c.isWait = false ∧ c.isDue = false ∧ c.isResend = false := by
  cases c with
  | wait | due | resend => cases h
  | _ => exact ⟨rfl, rfl, rfl⟩

end Event

lemma Segment.ofBuffer_nil (capacity : Nat) : ∃ cause, ofBuffer capacity [] = .error cause := by
  cases capacity <;> exact ⟨_, rfl⟩

lemma Segment.transmitted_succeeds (g : Segment) (c : Event) (hc : c ∈ g.transmitted) :
    c.fails = false := by
  obtain rfl | hc := List.mem_cons.mp hc
  · rfl
  · rw [List.mem_singleton.mp hc]
    rfl

namespace Trace

/-- What the policy is to hear right after these calls: of a segment that has gone out, as the peer
would read it, and of an ACK that has come in, unless that was during the handshake. -/
inductive News : Trace → Event → Prop
  | onSend (front : Trace) {header payload : Bytes} {s : Segment}
      (parsed : Segment.parse (header ++ payload) = .ok s) :
      News (front ++ [.send header payload (.ok ())]) (.onSend s)
  | onAck {front : Trace} {capacity : Nat} {d : Bytes} {g : Segment} (opened : .unblock ∈ front)
      (good : Segment.ofBuffer capacity d = .ok g) (acks : g.header.flags.ack = true) :
      News (front ++ [.receive capacity (.ok d)]) (.onAck g.header.ack)

def turns : Trace → List Trace
  | [] => []
  | c :: t => if c.isWait then (c :: t.takeWhile fun d => !d.isWait) :: turns t else turns t

def succeeds (turn : Trace) : Bool :=
  turn.all fun c => !c.fails || c.isResend

def Asks (turn : Trace) : Prop :=
  turn.countP Event.isDue = if turn.succeeds then 1 else 0

def Reacts (t : Trace) : Prop :=
  ∃ past turn, t.turns = past ++ [turn] ∧ (∀ u ∈ past, u.Asks) ∧ turn.succeeds = true ∧
    turn.countP Event.isDue = 0

variable {t : Trace} {c x : Event}

/-! What is news. -/

lemma news_transmitted {g : Segment} (hp : g.Plain) :
    News (t ++ [.send g.header.encode g.payload (.ok ())]) c ↔ c = .onSend g := by
  have hparse : Segment.parse (g.header.encode ++ g.payload) = .ok g := Segment.parse_encode hp
  constructor
  · intro h
    generalize hu : t ++ [Event.send g.header.encode g.payload (.ok ())] = u at h
    cases h with
    | onSend front parsed =>
      obtain ⟨-, hlast⟩ := List.append_inj' hu rfl
      cases hlast
      rw [hparse] at parsed
      cases parsed
      rfl
    | onAck =>
      obtain ⟨-, hlast⟩ := List.append_inj' hu rfl
      cases hlast
  · rintro rfl
    exact .onSend t hparse

lemma news_received {capacity : Nat} {d : Bytes} {g : Segment} (ho : .unblock ∈ t)
    (good : Segment.ofBuffer capacity d = .ok g) :
    News (t ++ [.receive capacity (.ok d)]) c ↔ g.header.flags.ack = true ∧
      c = .onAck g.header.ack := by
  constructor
  · intro h
    generalize hu : t ++ [Event.receive capacity (.ok d)] = u at h
    cases h with
    | onSend =>
      obtain ⟨-, hlast⟩ := List.append_inj' hu rfl
      cases hlast
    | onAck opened good' acks =>
      obtain ⟨-, hlast⟩ := List.append_inj' hu rfl
      cases hlast
      rw [good] at good'
      cases good'
      exact ⟨acks, rfl⟩
  · rintro ⟨acks, rfl⟩
    exact .onAck ho good acks

def Silent (t : Trace) (x : Event) : Prop :=
  match x with
  | .send _ _ (.ok ()) => False
  | .receive capacity (.ok d) => .unblock ∈ t → ∃ cause, Segment.ofBuffer capacity d = .error cause
  | _ => True

lemma Silent.not_news (h : t.Silent x) : ¬News (t ++ [x]) c := by
  intro hn
  generalize hu : t ++ [x] = u at hn
  cases hn with
  | onSend front parsed =>
    obtain ⟨-, hlast⟩ := List.append_inj' hu rfl
    cases hlast
    exact h
  | onAck opened good acks =>
    obtain ⟨rfl, hlast⟩ := List.append_inj' hu rfl
    cases hlast
    obtain ⟨cause, bad⟩ := h opened
    rw [bad] at good
    cases good

lemma silent_of_failure (h : x.isFailure = true) : t.Silent x := by
  cases x with
  | send header payload outcome =>
    cases outcome with
    | error cause => exact trivial
    | ok u => cases h
  | receive capacity outcome =>
    cases outcome with
    | error cause => exact trivial
    | ok d =>
      cases d with
      | nil => exact fun _ => Segment.ofBuffer_nil capacity
      | cons b d => cases h
  | _ => exact trivial

/-! Where a turn begins and ends. -/

lemma takeWhile_concat_wait (hx : x.isWait = true) (t : Trace) :
    (t ++ [x]).takeWhile (fun d => !d.isWait) = t.takeWhile fun d => !d.isWait := by
  induction t with
  | nil => simp [hx]
  | cons c t ih => simp only [List.cons_append, List.takeWhile_cons, ih]

lemma takeWhile_concat (hx : x.isWait = false) (t : Trace) :
    (t ++ [x]).takeWhile (fun d => !d.isWait) =
      (t.takeWhile fun d => !d.isWait) ++ if t.turns = [] then [x] else [] := by
  induction t with
  | nil => simp [hx, turns]
  | cons c t ih =>
    rw [List.cons_append, List.takeWhile_cons, List.takeWhile_cons, ih, turns]
    cases c.isWait <;> simp

lemma turns_wait (hx : x.isWait = true) (t : Trace) : turns (t ++ [x]) = t.turns ++ [[x]] := by
  induction t with
  | nil => simp [turns, hx]
  | cons c t ih =>
    rw [List.cons_append, turns, turns, takeWhile_concat_wait hx, ih]
    split_ifs <;> rfl

lemma turns_before (hx : x.isWait = false) (h : t.turns = []) : turns (t ++ [x]) = [] := by
  induction t with
  | nil => simp [turns, hx]
  | cons c t ih =>
    rw [turns] at h
    split_ifs at h with hc
    rw [List.cons_append, turns, if_neg hc, ih h]

lemma turns_within {past : List Trace} {turn : Trace} (hx : x.isWait = false)
    (h : t.turns = past ++ [turn]) :
    turns (t ++ [x]) = past ++ [turn ++ [x]] := by
  induction t generalizing past with
  | nil => simp [turns] at h
  | cons c t ih =>
    rw [turns] at h
    rw [List.cons_append, turns, takeWhile_concat hx]
    split_ifs at h with hc
    · rw [if_pos hc]
      cases past with
      | nil =>
        obtain ⟨rfl, hnone⟩ := List.cons.inj h
        rw [turns_before hx hnone, if_pos hnone]
        rfl
      | cons first past =>
        obtain ⟨rfl, hmore⟩ := List.cons.inj h
        rw [if_neg (by rw [hmore]; simp), List.append_nil, ih hmore]
        rfl
    · rw [if_neg hc, ih h]

variable {u : Trace}

def Settled (t : Trace) : Prop :=
  ∀ turn ∈ t.turns, turn.Asks

lemma succeeds_concat (turn : Trace) (x : Event) :
    succeeds (turn ++ [x]) = (turn.succeeds && (!x.fails || x.isResend)) := by
  rw [succeeds, List.all_append, ← succeeds]
  simp

lemma Reacts.dropLast (h : t.Reacts) : ∀ turn ∈ t.turns.dropLast, turn.Asks := by
  obtain ⟨past, turn, hturns, hpast, -⟩ := h
  rwa [hturns, List.dropLast_concat]

lemma Settled.begun (h : t.Settled) (interest : Signals) (deadline : Option Millis)
    (ready : Signals) :
    Reacts (t ++ [.wait interest deadline (.ok ready)]) :=
  ⟨t.turns, _, turns_wait rfl t, h, rfl, rfl⟩

lemma Settled.unbegun (h : t.Settled) (interest : Signals) (deadline : Option Millis)
    (cause : IoError) :
    Settled (t ++ [.wait interest deadline (.error cause)]) := by
  intro turn hturn
  rw [turns_wait rfl, List.mem_append, List.mem_singleton] at hturn
  obtain hturn | rfl := hturn
  · exact h turn hturn
  · rfl

lemma Reacts.settled (h : t.Reacts) (hx : x.isWait = false)
    (hn : ∀ turn : Trace, turn.succeeds = true → turn.countP Event.isDue = 0 →
      Asks (turn ++ [x])) :
    Settled (t ++ [x]) := by
  obtain ⟨past, turn, hturns, hpast, hok, hnone⟩ := h
  intro v hv
  rw [turns_within hx hturns, List.mem_append, List.mem_singleton] at hv
  obtain hv | rfl := hv
  · exact hpast v hv
  · exact hn turn hok hnone

lemma Reacts.due (h : t.Reacts) (datagrams : List Bytes) : Settled (t ++ [.due datagrams]) := by
  apply h.settled rfl
  intro turn hok hnone
  rw [Asks, succeeds_concat, hok, List.countP_append, hnone]
  rfl

lemma Reacts.broken (h : t.Reacts) (hr : x.isReaction = true) (hf : x.fails = true) :
    Settled (t ++ [x]) := by
  obtain ⟨hwait, hdue, hresend⟩ := Event.of_isReaction hr
  apply h.settled hwait
  intro turn hok hnone
  rw [Asks, succeeds_concat, hf, hresend, List.countP_append, hnone, List.countP_singleton, hdue]
  simp

lemma Settled.resend (h : t.Settled) (header payload : Bytes) (outcome : Except IoError Unit) :
    Settled (t ++ [.resend header payload outcome]) := by
  obtain hnone | ⟨past, turn, hturns⟩ := List.eq_nil_or_concat t.turns
  · intro v hv
    rw [turns_before rfl hnone] at hv
    cases hv
  · rw [List.concat_eq_append] at hturns
    intro v hv
    rw [turns_within rfl hturns, List.mem_append, List.mem_singleton] at hv
    obtain hv | rfl := hv
    · exact h v (by rw [hturns]; exact List.mem_append_left _ hv)
    · have hasks := h turn (by rw [hturns]; exact List.mem_concat_self)
      rw [Asks] at hasks ⊢
      rw [succeeds_concat, List.countP_append, hasks]
      simp [Event.isResend, Event.isDue]

lemma Reacts.append (h : t.Reacts) (hu : u.Calm) (hok : ∀ c ∈ u, c.fails = false) :
    Reacts (t ++ u) := by
  induction u generalizing t with
  | nil => rwa [List.append_nil]
  | cons x u ih =>
    obtain ⟨hwait, hdue, -⟩ := Event.of_isReaction (hu x List.mem_cons_self)
    obtain ⟨past, turn, hturns, hpast, hsucceeds, hnone⟩ := h
    have hone : Reacts (t ++ [x]) := by
      refine ⟨past, turn ++ [x], turns_within hwait hturns, hpast, ?_, ?_⟩
      · rw [succeeds_concat, hsucceeds, hok x List.mem_cons_self]
        rfl
      · rw [List.countP_append, hnone, List.countP_singleton, hdue]
        rfl
    rw [List.append_cons]
    exact ih hone (fun c hc => hu c (List.mem_cons_of_mem x hc)) fun c hc =>
      hok c (List.mem_cons_of_mem x hc)

lemma turns_append_calm (h : t.turns = []) (hu : u.Calm) : turns (t ++ u) = [] := by
  induction u generalizing t with
  | nil => rwa [List.append_nil]
  | cons x u ih =>
    have hwait := (Event.of_isReaction (hu x List.mem_cons_self)).1
    rw [List.append_cons]
    exact ih (turns_before hwait h) fun c hc => hu c (List.mem_cons_of_mem x hc)

end Trace

def Point.tells? : Point → Option Event
  | noteAck g _ => some (.onAck g.header.ack)
  | _ => none

namespace Trace

def Faithful (before : Trace) (x : Event) : Prop :=
  (∀ c, News before c → x = c) ∧ (x.isReport = true → News before x) ∧
    ∀ header payload, x = .send header payload (.ok ()) →
      ∃ s, Segment.parse (header ++ payload) = .ok s

structure Told (t : Trace) (p : Point) : Prop where
  each : t.Each Faithful
  next : ∀ c, News t c ↔ p.tells? = some c

variable {t : Trace} {x : Event} {p q : Point} {g : Segment}

lemma faithful_of_silent (hn : ∀ c, ¬News t c) (hx : t.Silent x) (hr : x.isReport = false) :
    Faithful t x := by
  refine ⟨fun c hc => absurd hc (hn c), fun h => ?_, fun header payload h => ?_⟩
  · rw [hr] at h
    cases h
  · subst h
    exact hx.elim

namespace Told

lemma untold (h : Told t p) (hp : p.tells? = none) (c : Event) : ¬News t c := by
  rw [h.next, hp]
  exact nofun

lemma silent (h : Told t p) (hp : p.tells? = none) (hx : t.Silent x) (hr : x.isReport = false)
    (hq : q.tells? = none) : Told (t ++ [x]) q := by
  refine ⟨h.each.concat (faithful_of_silent (h.untold hp) hx hr), fun c => ?_⟩
  rw [hq]
  exact ⟨fun hc => absurd hc hx.not_news, nofun⟩

lemma transmitted (h : Told t p) (hp : p.tells? = none) (hg : g.Plain) (hq : q.tells? = none) :
    Told (t ++ g.transmitted) q := by
  have hsent : Faithful t (.send g.header.encode g.payload (.ok ())) := by
    refine ⟨fun c hc => absurd hc (h.untold hp c), nofun, ?_⟩
    rintro header payload ⟨rfl, rfl⟩
    exact ⟨g, Segment.parse_encode hg⟩
  have htold : Faithful (t ++ [.send g.header.encode g.payload (.ok ())]) (.onSend g) :=
    ⟨fun c hc => ((news_transmitted hg).mp hc).symm, fun _ => (news_transmitted hg).mpr rfl, nofun⟩
  refine ⟨h.each.transmitted hsent htold, fun c => ?_⟩
  have hlast : Silent (t ++ [.send g.header.encode g.payload (.ok ())]) (.onSend g) := trivial
  have hnone := hlast.not_news (c := c)
  rw [hq]
  rw [List.append_assoc] at hnone
  exact ⟨fun hc => absurd hc hnone, nofun⟩

lemma received {capacity : Nat} {d : Bytes} (h : Told t p) (hp : p.tells? = none)
    (ho : .unblock ∈ t) (good : Segment.ofBuffer capacity d = .ok g)
    (hq : q.tells? = if g.header.flags.ack then some (.onAck g.header.ack) else none) :
    Told (t ++ [.receive capacity (.ok d)]) q := by
  refine ⟨h.each.concat ⟨fun c hc => absurd hc (h.untold hp c), nofun, nofun⟩, fun c => ?_⟩
  rw [news_received ho good, hq]
  split_ifs with hack
  · rw [Option.some.injEq]
    exact ⟨fun hc => hc.2.symm, fun hc => ⟨hack, hc.symm⟩⟩
  · exact ⟨fun hc => absurd hc.1 hack, nofun⟩

lemma acked {ack : SeqNum} (h : Told t p) (hp : p.tells? = some (.onAck ack))
    (hq : q.tells? = none) :
    Told (t ++ [.onAck ack]) q := by
  have hnews (c : Event) : News t c ↔ .onAck ack = c := by
    rw [h.next, hp, Option.some.injEq]
  have hlast : t.Silent (.onAck ack) := trivial
  refine ⟨h.each.concat ⟨fun c hc => (hnews c).mp hc, fun _ => (hnews _).mpr rfl, nofun⟩,
    fun c => ?_⟩
  rw [hq]
  exact ⟨fun hc => absurd hc hlast.not_news, nofun⟩

end Told

end Trace

namespace Engine

def Asking (t : Trace) (e : Engine) : Prop :=
  match e.point with
  | .wait | .resend _ _ | .ended _ => t.Settled
  | p => if p.isReaction then t.Reacts else t.turns = []

variable {e e' : Engine} {t : Trace} {events : List Event}

lemma tells_react (e : Engine) (rest : Signals) : (e.react rest).point.tells? = none := by
  rw [react]
  split_ifs <;> rfl

lemma tells_onContent (e : Engine) (g : Segment) (rest : Signals) :
    (e.onContent g rest).point.tells? = none := by
  rw [onContent]
  split_ifs
  · rfl
  · rfl
  · exact tells_react e rest

lemma tells_onSegment (e : Engine) (g : Segment) (rest : Signals) :
    (e.onSegment g rest).point.tells? =
      if g.header.flags.ack then some (.onAck g.header.ack) else none := by
  rw [onSegment]
  split_ifs
  · rfl
  · exact tells_onContent e g rest

lemma tells_onFinAnswered (e : Engine) (rest : Signals) :
    (e.onFinAnswered rest).point.tells? = none := by
  rw [onFinAnswered]
  split_ifs
  · exact tells_react _ rest
  · rfl

lemma tells_turn (e : Engine) : e.turn.point.tells? = none := by
  rw [turn]
  split_ifs <;> rfl

lemma tells_resending (e : Engine) (datagrams : List Bytes) :
    (e.resending datagrams).point.tells? = none := by
  cases datagrams with
  | nil => exact tells_turn e
  | cons datagram more => rfl

lemma tells_opened (e : Engine) (outcome : Except ConnectionError Unit) :
    (e.opened outcome).point.tells? = none := by
  cases outcome with
  | error cause => rfl
  | ok u =>
    rw [opened]
    split_ifs
    · exact tells_turn e
    · rfl
    · rfl

lemma tells_of_opening (h : e.stage = .opening) : e.point.tells? = none := by
  obtain ⟨config, ctx, thenLoop, point⟩ := e
  cases point <;> first | rfl | cases h

lemma stage_opened (e : Engine) (outcome : Except ConnectionError Unit) :
    (e.opened outcome).stage ≠ .opening := by
  intro hstage
  cases outcome with
  | error cause => cases hstage
  | ok u =>
    rw [opened] at hstage
    split_ifs at hstage
    · rw [stage_turn] at hstage
      split_ifs at hstage
    · cases hstage
    · cases hstage

structure Informed (t : Trace) (e : Engine) : Prop where
  told : t.Told e.point
  closed : e.stage = .opening → .unblock ∉ t
  opened : e.stage = .serving → .unblock ∈ t
  asking : e.Asking t
  due : t.Each fun before x => x.isDue = true → before.Reacts

/-! The handshake. -/

lemma turns_of_opening (hp : e.stage = .opening) : e.Asking t ↔ t.turns = [] := by
  obtain ⟨config, ctx, thenLoop, point⟩ := e
  cases point <;> first | exact Iff.rfl | cases hp

lemma calm_opening (hp : e.stage = .opening) (hs : e.Step events e') : Trace.Calm events := by
  obtain ⟨config, ctx, thenLoop, point⟩ := e
  cases point with
  | sendSyn | ackSynAck | sendSynAck => exact calm_transmit hs
  | awaitSynAck | awaitSyn | awaitFirstAck =>
    obtain ⟨outcome, rfl, -⟩ := hs
    exact Trace.calm_singleton rfl
  | unblock outcome =>
    obtain ⟨rfl, -⟩ := hs
    exact Trace.calm_singleton rfl
  | _ => cases hp

lemma told_opening (h : t.Told e.point) (hp : e.stage = .opening) (hu : .unblock ∉ t)
    (hs : e.Step events e') :
    Trace.Told (t ++ events) e'.point ∧
      (e'.stage = .opening ∧ .unblock ∉ t ++ events ∨
        events = [.unblock] ∧ ∃ outcome, e' = e.opened outcome) := by
  have hnone := tells_of_opening hp
  have heard (capacity : Nat) (outcome : Except IoError Bytes) :
      t.Silent (.receive capacity outcome) := by
    cases outcome with
    | error cause => exact trivial
    | ok d => exact fun hopened => absurd hopened hu
  obtain ⟨config, ctx, thenLoop, point⟩ := e
  cases point with
  | sendSyn | ackSynAck | sendSynAck =>
    obtain ⟨rfl, rfl⟩ | ⟨cause, rfl, rfl⟩ := hs
    · exact ⟨h.transmitted hnone (plain_stamp _ _ _) rfl, .inl ⟨rfl, by simp [hu]⟩⟩
    · exact ⟨h.silent hnone trivial rfl rfl, .inl ⟨rfl, by simp [hu]⟩⟩
  | awaitSynAck | awaitSyn | awaitFirstAck =>
    obtain ⟨outcome, rfl, rfl⟩ := hs
    refine (fun hstage => ⟨h.silent hnone (heard _ outcome) rfl (tells_of_opening hstage),
      .inl ⟨hstage, by simp [hu]⟩⟩) (stage_onReply (fun g => ?_) outcome)
    simp only [onSynAck, onSyn, onFirstAck]
    split_ifs <;> rfl
  | unblock outcome =>
    obtain ⟨rfl, rfl⟩ := hs
    exact ⟨h.silent hnone trivial rfl (tells_opened _ outcome), .inr ⟨rfl, outcome, rfl⟩⟩
  | _ => cases hp

lemma asking_opened (h : t.turns = []) (outcome : Except ConnectionError Unit) :
    (e.opened outcome).Asking t := by
  have hsettled : t.Settled := by
    rw [Trace.Settled, h]
    nofun
  cases outcome with
  | error cause => exact hsettled
  | ok u =>
    rw [Engine.opened]
    split_ifs
    · rw [turn]
      split_ifs <;> exact hsettled
    · exact hsettled
    · exact hsettled

lemma Informed.step_opening (h : e.Informed t) (hp : e.stage = .opening) (hs : e.Step events e') :
    e'.Informed (t ++ events) := by
  have hcalm := calm_opening hp hs
  have hnone := Trace.turns_append_calm ((turns_of_opening hp).mp h.asking) hcalm
  have hdue : Trace.Each (fun before x => x.isDue = true → before.Reacts) (t ++ events) := by
    apply h.due.append
    intro before x hx hd
    rw [(Event.of_isReaction (hcalm x hx)).2.1] at hd
    cases hd
  obtain ⟨htold, ⟨hstage, hu⟩ | ⟨rfl, outcome, rfl⟩⟩ := told_opening h.told hp (h.closed hp) hs
  · refine ⟨htold, fun _ => hu, fun hserving => ?_, (turns_of_opening hstage).mpr hnone, hdue⟩
    rw [hstage] at hserving
    cases hserving
  · exact ⟨htold, fun hopening => absurd hopening (stage_opened e outcome), fun _ => by simp,
      asking_opened hnone outcome, hdue⟩

/-! The control loop. -/

lemma LoopStep.told (h : t.Told e.point) (ho : .unblock ∈ t) (hs : e.LoopStep events e') :
    Trace.Told (t ++ events) e'.point := by
  cases hs with
  | wait => exact h.silent rfl trivial rfl (tells_react _ _)
  | readNone => exact h.silent rfl trivial rfl (tells_react _ _)
  | drop e rest some bad => exact h.silent rfl (fun _ => ⟨_, bad⟩) rfl (tells_react _ _)
  | readSome | deliver | refuse => exact h.silent rfl trivial rfl rfl
  | hear e rest good => exact h.received rfl ho good (tells_onSegment e _ rest)
  | noteAck e g rest => exact h.acked rfl (tells_onContent _ g rest)
  | sendData | ackData => exact h.transmitted rfl (plain_stamp _ _ _) (tells_react _ _)
  | ackFin => exact h.transmitted rfl (plain_stamp _ _ _) (tells_onFinAnswered _ _)
  | sendFin => exact h.transmitted rfl (plain_stamp _ _ _) rfl
  | tellPeerClosed => exact h.silent rfl trivial rfl (tells_react _ _)
  | collectDue => exact h.silent rfl trivial rfl (tells_resending _ _)
  | resend => exact h.silent rfl trivial rfl (tells_resending _ _)
  | @fail e p c cause may failure =>
    have hp : p.tells? = none := by
      cases p <;> first | rfl | cases may
    have hr : c.isReport = false := by
      cases c <;> first | rfl | cases failure
    exact h.silent hp (Trace.silent_of_failure failure) hr rfl

lemma LoopStep.not_fails (h : e.LoopStep events e') (hp : e'.stage ≠ .finished) (c : Event)
    (hc : c ∈ events) :
    c.fails = false := by
  cases h with
  | sendData | ackFin | ackData | sendFin => exact Segment.transmitted_succeeds _ c hc
  | refuse | fail => exact absurd rfl hp
  | @drop e rest d cause some bad =>
    rw [List.mem_singleton.mp hc]
    cases d with
    | nil => exact absurd rfl some
    | cons b d => rfl
  | @hear e rest d g good =>
    rw [List.mem_singleton.mp hc]
    cases d with
    | nil =>
      obtain ⟨cause, bad⟩ := Segment.ofBuffer_nil e.config.receiveCapacity
      rw [bad] at good
      cases good
    | cons b d => rfl
  | _ =>
    rw [List.mem_singleton.mp hc]
    rfl

lemma stage_of_isReaction (hp : e.point.isReaction = true) : e.stage = .serving := by
  obtain ⟨config, ctx, thenLoop, point⟩ := e
  cases point <;> first | rfl | cases hp

lemma asking_of_reaction (hp : e.point.isReaction = true) (h : t.Reacts) : e.Asking t := by
  obtain ⟨config, ctx, thenLoop, point⟩ := e
  cases point <;> first | exact h | cases hp

lemma Asking.reacts (h : e.Asking t) (hp : e.point.isReaction = true) : t.Reacts := by
  obtain ⟨config, ctx, thenLoop, point⟩ := e
  cases point <;> first | exact h | cases hp

lemma asking_resending (h : t.Settled) (datagrams : List Bytes) :
    (e.resending datagrams).Asking t := by
  cases datagrams with
  | nil =>
    rw [resending, turn]
    split_ifs <;> exact h
  | cons datagram more => exact h

lemma Asking.step_serving (h : e.Asking t) (hp : e.stage = .serving) (hs : e.Step events e') :
    e'.Asking (t ++ events) := by
  have hloop := loopStep_of_step hp hs
  by_cases hr : e.point.isReaction = true ∧ e.point ≠ .collectDue
  · have hreacts := h.reacts hr.1
    have hcalm := calm_of_reaction hr.1 hr.2 hs
    obtain hnext | ⟨c, cause, rfl, hfails, hended⟩ := hloop.of_reaction hr.1 hr.2
    · refine asking_of_reaction hnext (hreacts.append hcalm (hloop.not_fails ?_))
      rw [stage_of_isReaction hnext]
      nofun
    · rw [Asking, hended]
      exact hreacts.broken (hcalm c List.mem_cons_self) hfails
  · obtain ⟨config, ctx, thenLoop, point⟩ := e
    cases point with
    | wait =>
      obtain ⟨deadline, outcome, rfl, rfl⟩ := hs
      cases outcome with
      | error cause => exact Trace.Settled.unbegun h _ _ cause
      | ok ready =>
        exact asking_of_reaction (isReaction_react _ _) (Trace.Settled.begun h _ _ ready)
    | collectDue =>
      obtain ⟨datagrams, rfl, rfl⟩ := hs
      exact asking_resending (Trace.Reacts.due h datagrams) datagrams
    | resend datagram more =>
      obtain ⟨outcome, rfl, rfl⟩ := hs
      have hsettled := Trace.Settled.resend h (datagram.take headerLength)
        (datagram.drop headerLength) outcome
      cases outcome with
      | error cause => exact hsettled
      | ok u => exact asking_resending hsettled more
    | sendSyn | awaitSynAck | ackSynAck | awaitSyn | sendSynAck | awaitFirstAck => cases hp
    | unblock => cases hp
    | ended => cases hp
    | _ => exact absurd ⟨rfl, by simp⟩ hr

lemma Informed.step_serving (h : e.Informed t) (hp : e.stage = .serving) (hs : e.Step events e') :
    e'.Informed (t ++ events) := by
  have hloop := loopStep_of_step hp hs
  have ho := h.opened hp
  refine ⟨hloop.told h.told ho, fun hopening => ?_, fun _ => List.mem_append_left events ho,
    h.asking.step_serving hp hs, ?_⟩
  · obtain hstage | ⟨hstage, -⟩ := hloop.stage_cases
    all_goals
      rw [hstage] at hopening
      cases hopening
  · by_cases hd : e.point = .collectDue
    · have hreacts := h.asking.reacts (by rw [hd]; rfl)
      obtain ⟨config, ctx, thenLoop, point⟩ := e
      obtain rfl : point = .collectDue := hd
      obtain ⟨datagrams, rfl, -⟩ := hs
      exact h.due.concat fun _ => hreacts
    · apply h.due.append
      intro before x hx hdue
      cases x with
      | due datagrams => exact absurd hx (not_due_of_step hs hd datagrams)
      | _ => cases hdue

theorem Informed.step (h : e.Informed t) (hs : e.Step events e') : e'.Informed (t ++ events) := by
  cases hp : e.stage with
  | opening => exact h.step_opening hp hs
  | serving => exact h.step_serving hp hs
  | finished => exact absurd hp (stage_ne_finished hs)

lemma Asking.dropLast (h : e.Asking t) : ∀ turn ∈ t.turns.dropLast, turn.Asks := by
  have hpast (hsettled : t.Settled) : ∀ turn ∈ t.turns.dropLast, turn.Asks :=
    fun turn hturn => hsettled turn (List.dropLast_subset _ hturn)
  by_cases hr : e.point.isReaction = true
  · exact (h.reacts hr).dropLast
  · obtain ⟨config, ctx, thenLoop, point⟩ := e
    cases point with
    | sendSyn | awaitSynAck | ackSynAck | awaitSyn | sendSynAck | awaitFirstAck | unblock =>
      have hnone : t.turns = [] := h
      rw [hnone]
      nofun
    | wait | resend | ended => exact hpast h
    | _ => exact absurd rfl hr

end Engine

namespace Machine

variable {π σ : Type} {P : Policy π} {H : Host σ} {m : Machine π σ} {t : Trace}

end Machine

end DatagramStream
