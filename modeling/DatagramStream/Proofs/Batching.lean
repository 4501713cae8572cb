import DatagramStream.Proofs.Handling
import DatagramStream.Proofs.Lockstep

/-! Events that come together are dealt with as if each had come alone. -/

namespace DatagramStream

def Event.isAct : Event → Bool
  | wait _ _ _ => false
  | c => !c.isPolicy

def Trace.acts (t : Trace) : Trace :=
  t.filter Event.isAct

@[simp] lemma Trace.acts_append (t u : Trace) : acts (t ++ u) = acts t ++ acts u :=
  List.filter_append t u

def Signals.members (s : Signals) : List Signals :=
  (if s.appData then [{ appData := true }] else []) ++ (if s.networkData then [.network] else []) ++
    if s.closeRequested then [{ closeRequested := true }] else []

lemma Signals.inter_all (s : Signals) : s.inter .all = s := by
  obtain ⟨appData, networkData, closeRequested⟩ := s
  simp [inter, all]

namespace Script

/-- In place of each set of events there are its members; an empty set may stay. -/
inductive Separated : List (Except IoError Signals) → List (Except IoError Signals) → Prop
  | nil : Separated [] []
  | fault {events singles : List (Except IoError Signals)} (cause : IoError) :
      Separated events singles → Separated (.error cause :: events) (.error cause :: singles)
  | split {events singles : List (Except IoError Signals)} (ready : Signals) :
      Separated events singles → Separated (.ok ready :: events) (ready.members.map .ok ++ singles)
  | keep {events singles : List (Except IoError Signals)} :
      Separated events singles → Separated (.ok .empty :: events) (.ok .empty :: singles)

def withEvents (events : List (Except IoError Signals)) (s : Script) : Script :=
  { s with events := events }

lemma ignores_withEvents (events : List (Except IoError Signals)) :
    Script.host.Ignores (withEvents events) := by
  refine ⟨?_, fun capacity s => ?_, fun limit s => ?_, ?_, ?_, ?_⟩
  · intros
    rfl
  · rcases s with ⟨_ | ⟨_ | datagram, net⟩, app, events, sendFaults, writeFaults⟩ <;> rfl
  · rcases s with ⟨net, _ | ⟨_ | data, app⟩, events, sendFaults, writeFaults⟩ <;> rfl
  all_goals
    intros
    rfl

end Script

def Point.alone : Point → Point
  | read _ => read .empty
  | sendData payload _ => sendData payload .empty
  | receive _ => receive .empty
  | noteAck g _ => noteAck g .empty
  | ackFin _ => ackFin .empty
  | tellPeerClosed _ => tellPeerClosed .empty
  | deliver payload _ => deliver payload .empty
  | ackData _ => ackData .empty
  | p => p

namespace Engine

def solo (e : Engine) : Engine :=
  match e.point with
  | .collectDue => e.turn
  | p => e.goto p.alone

def Leaves (left : Signals) (e : Engine) : Prop :=
  match e.point with
  | .wait | .sendFin => left = .empty
  | .read rest | .sendData _ rest => rest = left ∧ left.appData = false
  | .receive rest | .noteAck _ rest | .ackFin rest | .tellPeerClosed rest | .deliver _ rest
  | .ackData rest =>
    rest = left.inter e.interest ∧ left.OnlyClose
  | .collectDue => left = .empty ∨ e.ctx.done = true
  | .ended _ => True
  | _ => False

inductive Branch (left : Signals) : Engine → Engine → Prop
  | stay {e : Engine} (leaves : e.Leaves left) : Branch left e e.solo
  | react (e : Engine) (first : left.appData = false)
      (second : left.networkData = true → e.ctx.state.canSend = true) :
      Branch left (e.react (left.inter e.interest)) (e.react .empty)

variable {e : Engine} {left : Signals}

@[simp] lemma goto_ctx (e : Engine) (p : Point) : (e.goto p).ctx = e.ctx := rfl

@[simp] lemma goto_arrival (e : Engine) (p : Point) (answer : Except IoError Bytes) :
    (e.goto p).arrival answer = e.arrival answer := rfl

lemma interest_of_canSend (h : e.ctx.state.canSend = true) : e.interest = .all := by
  rw [interest, if_pos h]

lemma interest_of_not_canSend (h : e.ctx.state.canSend = false) : e.interest = .network := by
  rw [interest, h]
  rfl

lemma canSend_recvFin (s : State) : ((s.next? .recvFin).getD s).canSend = s.canSend := by
  cases s <;> rfl

lemma canSend_onAck (e : Engine) (ack : SeqNum) :
    (e.onAck ack).ctx.state.canSend = e.ctx.state.canSend := by
  rw [onAck]
  split_ifs with h
  · obtain ⟨config, ⟨state, isn, next, expected, mark, seen, sent, received⟩, thenLoop, point⟩ := e
    simp only [Bool.and_eq_true] at h
    cases state <;> first | rfl | cases h.1
  · rfl

lemma interest_congr {e' : Engine} (h : e'.ctx.state.canSend = e.ctx.state.canSend) :
    e'.interest = e.interest := by
  rw [interest, interest, h]

lemma branch_fail (e : Engine) (cause : ConnectionError) (p : Point) :
    Branch left (e.fail cause) ((e.goto p).fail cause) :=
  .stay (e := e.fail cause) trivial

lemma branch_react_onlyClose (hl : left.OnlyClose) (e : Engine) (p : Point) :
    Branch left (e.react (left.inter e.interest)) ((e.goto p).react .empty) := by
  apply Branch.react e hl.1
  intro hn
  rw [hl.2] at hn
  cases hn

lemma branch_onContent (hl : left.OnlyClose) (e : Engine) (p : Point) (g : Segment) :
    Branch left (e.onContent g (left.inter e.interest)) ((e.goto p).onContent g .empty) := by
  rw [onContent, onContent, goto_ctx]
  split_ifs
  · exact .stay (e := { e with
      ctx := { e.ctx with expected := g.header.seq + 1 },
        point := .ackFin (left.inter e.interest) }) ⟨rfl, hl⟩
  · exact .stay (e := e.goto (.deliver g.payload (left.inter e.interest))) ⟨rfl, hl⟩
  · exact branch_react_onlyClose hl e p

lemma branch_onSegment (hl : left.OnlyClose) (e : Engine) (p : Point) (g : Segment) :
    Branch left (e.onSegment g (left.inter e.interest)) ((e.goto p).onSegment g .empty) := by
  rw [onSegment, onSegment]
  split_ifs
  · exact .stay (e := e.goto (.noteAck g (left.inter e.interest))) ⟨rfl, hl⟩
  · exact branch_onContent hl e p g

lemma branch_arrival (hl : left.OnlyClose) (e : Engine) (p : Point)
    (answer : Except IoError Bytes) :
    Branch left
      (match e.arrival answer with
        | .error cause => e.fail cause
        | .ok none => e.react (left.inter e.interest)
        | .ok (some g) => e.onSegment g (left.inter e.interest))
      (match (e.goto p).arrival answer with
        | .error cause => (e.goto p).fail cause
        | .ok none => (e.goto p).react .empty
        | .ok (some g) => (e.goto p).onSegment g .empty) := by
  rw [goto_arrival]
  cases e.arrival answer with
  | error cause => exact branch_fail e cause p
  | ok found =>
    cases found with
    | none => exact branch_react_onlyClose hl e p
    | some g => exact branch_onSegment hl e p g

lemma branch_closed (hl : left.OnlyClose) (e : Engine) (p : Point) :
    Branch left (e.closeIfTimeWait.react (left.inter e.interest))
      ((e.goto p).closeIfTimeWait.react .empty) := by
  have hsame : e.closeIfTimeWait.interest = e.interest :=
    interest_congr (by rw [closeIfTimeWait_state])
  rw [closeIfTimeWait_goto, ← hsame]
  exact branch_react_onlyClose hl e.closeIfTimeWait p

lemma branch_onFinAnswered (hl : left.OnlyClose) (e : Engine) (p : Point) :
    Branch left (e.onFinAnswered (left.inter e.interest)) ((e.goto p).onFinAnswered .empty) := by
  rw [onFinAnswered, onFinAnswered, goto_ctx]
  split_ifs
  · exact branch_closed hl e p
  · refine .stay (e := { e with
      ctx := { e.ctx with peerFinSeen := true }.transition .recvFin
      point := .tellPeerClosed (left.inter e.interest) }) ⟨?_, hl⟩
    exact congrArg left.inter (interest_congr (canSend_recvFin e.ctx.state)).symm

theorem request_solo (hl : e.Leaves left) (hc : e.Coherent) (hw : e.point ≠ .wait)
    (hd : e.point ≠ .collectDue) :
    Request.Alike (Branch left) e.request e.solo.request := by
  obtain ⟨config, ctx, thenLoop, point⟩ := e
  cases point with
  | read rest =>
    obtain ⟨rfl, hfirst⟩ := hl
    have hsend : ctx.state.canSend = true := hc.2.1
    refine .read (related_onSuccess (branch_fail _ · (.read .empty)) fun data => ?_)
    split_ifs
    · have hbranch := Branch.react ⟨config, ctx, thenLoop, .read rest⟩ hfirst fun _ => hsend
      rwa [interest_of_canSend hsend, Signals.inter_all] at hbranch
    · exact .stay (e := ⟨config, ctx, thenLoop, .sendData data rest⟩) ⟨rfl, hfirst⟩
  | sendData payload rest =>
    obtain ⟨rfl, hfirst⟩ := hl
    have hsend : ctx.state.canSend = true := hc.2.1
    refine .transmit (related_onSuccess (branch_fail _ · (.sendData payload .empty)) fun _ => ?_)
    have hbranch :=
      Branch.react ⟨config, ctx.recordSent .ackOnly payload.length, thenLoop,
        .sendData payload rest⟩
      hfirst fun _ => hsend
    rwa [interest_of_canSend (e := ⟨config, ctx.recordSent .ackOnly payload.length, thenLoop, _⟩)
      hsend, Signals.inter_all] at hbranch
  | receive rest =>
    obtain ⟨rfl, hclose⟩ : rest = left.inter (interest ⟨config, ctx, thenLoop, .wait⟩) ∧
        left.OnlyClose := hl
    apply Request.Alike.receive
    intro answer
    exact branch_arrival hclose ⟨config, ctx, thenLoop, .wait⟩ (.receive .empty) answer
  | noteAck g rest =>
    obtain ⟨rfl, hclose⟩ : rest = left.inter (interest ⟨config, ctx, thenLoop, .wait⟩) ∧
        left.OnlyClose := hl
    apply Request.Alike.noteAck
    let e : Engine :=
      ⟨config, ctx, thenLoop, .noteAck g (left.inter (interest ⟨config, ctx, thenLoop, .wait⟩))⟩
    have hsame : (e.onAck g.header.ack).interest = e.interest :=
      interest_congr (canSend_onAck e g.header.ack)
    have hbranch := branch_onContent hclose (e.onAck g.header.ack) (.noteAck g .empty) g
    rw [hsame, ← onAck_goto] at hbranch
    exact hbranch
  | ackFin rest =>
    obtain ⟨rfl, hclose⟩ : rest = left.inter (interest ⟨config, ctx, thenLoop, .wait⟩) ∧
        left.OnlyClose := hl
    refine .transmit (related_onSuccess (branch_fail _ · (.ackFin .empty)) fun _ => ?_)
    exact branch_onFinAnswered hclose _ (.ackFin .empty)
  | tellPeerClosed rest =>
    obtain ⟨rfl, hclose⟩ : rest = left.inter (interest ⟨config, ctx, thenLoop, .wait⟩) ∧
        left.OnlyClose := hl
    exact .peerClosed (branch_closed hclose _ (.tellPeerClosed .empty))
  | deliver payload rest =>
    obtain ⟨rfl, hclose⟩ : rest = left.inter (interest ⟨config, ctx, thenLoop, .wait⟩) ∧
        left.OnlyClose := hl
    refine .write (related_onSuccess (branch_fail _ · (.deliver payload .empty)) fun _ => ?_)
    exact .stay (e := ⟨config, ctx.recordDelivered payload.length, thenLoop, .ackData _⟩)
      ⟨rfl, hclose⟩
  | ackData rest =>
    obtain ⟨rfl, hclose⟩ : rest = left.inter (interest ⟨config, ctx, thenLoop, .wait⟩) ∧
        left.OnlyClose := hl
    refine .transmit (related_onSuccess (branch_fail _ · (.ackData .empty)) fun _ => ?_)
    exact branch_react_onlyClose hclose _ (.ackData .empty)
  | sendFin =>
    obtain rfl := hl
    refine .transmit (related_onSuccess (branch_fail _ · .sendFin) fun _ => ?_)
    exact .stay
      (e := ⟨config, (ctx.recordSent .finOnly 0).transition .sendFin, thenLoop, .receive .empty⟩)
      ⟨rfl, rfl, rfl⟩
  | wait => exact absurd rfl hw
  | collectDue => exact absurd rfl hd
  | ended result => exact .finished result
  | _ => exact hl.elim

lemma linked_of_react {rest : Signals} (h : (e.react rest).Coherent) :
    e.ctx.Linked e.config.teardown := by
  rw [react] at h
  split_ifs at h
  · exact h.1
  · exact h.1
  · exact h.1
  · exact h

lemma not_canSend_of_done (hl : e.ctx.Linked e.config.teardown) (hd : e.ctx.done = true) :
    e.ctx.state.canSend = false := by
  have hover := hl.done
  rw [hd] at hover
  cases hs : e.ctx.state with
  | established | closeWait =>
    rw [hs] at hover
    cases hover
  | _ => rfl

lemma turn_of_not_done (hd : e.ctx.done = false) : e.turn = e.goto .wait := by
  rw [turn, hd]
  rfl

/-! A single event. -/

lemma react_appData (hs : e.ctx.state.canSend = true) (rest : Signals) :
    e.react (Signals.inter { rest with appData := true } e.interest) =
      e.goto (.read { rest with appData := false }) := by
  rw [interest_of_canSend hs, Signals.inter_all]
  rfl

lemma react_networkData (e : Engine) (rest : Signals) (ha : rest.appData = false) :
    e.react (Signals.inter { rest with networkData := true } e.interest) =
      e.goto (.receive (Signals.inter { rest with networkData := false } e.interest)) := by
  obtain ⟨appData, networkData, closeRequested⟩ := rest
  obtain rfl : appData = false := ha
  rw [interest]
  split_ifs <;> rfl

lemma react_closeRequested (hs : e.ctx.state.canSend = true) :
    e.react (Signals.inter { closeRequested := true } e.interest) = e.goto .sendFin := by
  rw [interest_of_canSend hs, Signals.inter_all, react, if_neg Bool.false_ne_true,
    if_neg Bool.false_ne_true, if_pos ⟨rfl, hs⟩]

lemma react_masked (hs : e.ctx.state.canSend = false) {left : Signals}
    (hn : left.networkData = false) :
    e.react (left.inter e.interest) = e.goto .collectDue := by
  obtain ⟨appData, networkData, closeRequested⟩ := left
  obtain rfl : networkData = false := hn
  rw [interest_of_not_canSend hs]
  simp [Signals.inter, Signals.network, react]

end Engine

namespace Machine

variable {x : Engine} {s : Script} {events : List (Except IoError Signals)}

lemma step_wait (x : Engine) (s : Script) (ready : Signals)
    (events : List (Except IoError Signals)) :
    step .inert Script.host ⟨x.goto .wait, (), s.withEvents (.ok ready :: events)⟩ =
      some (⟨x.react (ready.inter x.interest), (), s.withEvents events⟩,
        [.wait x.interest none (.ok ready)]) := rfl

lemma step_collectDue (x : Engine) (s : Script) :
    step .inert Script.host ⟨x.goto .collectDue, (), s⟩ = some (⟨x.turn, (), s⟩, [.due []]) := rfl

lemma runs_idle (s : Script) (events : List (Except IoError Signals)) (hd : x.ctx.done = false)
    {ready : Signals} (hr : x.react (ready.inter x.interest) = x.goto .collectDue) :
    Runs .inert Script.host ⟨x.goto .wait, (), s.withEvents (.ok ready :: events)⟩
      [.wait x.interest none (.ok ready), .due []] ⟨x.goto .wait, (), s.withEvents events⟩ := by
  have hwait := step_wait x s ready events
  rw [hr] at hwait
  have hdue := step_collectDue x (s.withEvents events)
  rw [Engine.turn_of_not_done hd] at hdue
  exact .step hwait (.single hdue)

def CatchesUp (x : Engine) (left : Signals) (s : Script)
    (events : List (Except IoError Signals)) : Prop :=
  ∃ t left', Runs .inert Script.host
    ⟨x.goto .wait, (), s.withEvents (left.members.map .ok ++ events)⟩ t
      ⟨(x.react (left.inter x.interest)).solo, (), s.withEvents (left'.members.map .ok ++ events)⟩ ∧
    (x.react (left.inter x.interest)).Leaves left' ∧ t.acts = []

lemma solo_collectDue (hd : x.ctx.done = false) : (x.goto .collectDue).solo = x.goto .wait :=
  Engine.turn_of_not_done hd

lemma catchesUp_close (s : Script) (events : List (Except IoError Signals))
    (hd : x.ctx.done = false) (closeRequested : Bool) :
    CatchesUp x { closeRequested := closeRequested } s events := by
  rw [CatchesUp]
  cases closeRequested with
  | false =>
    have hidle : x.react (Signals.inter { closeRequested := false } x.interest) =
        x.goto .collectDue := rfl
    rw [hidle, solo_collectDue hd]
    exact ⟨[], .empty, .refl _, .inl rfl, rfl⟩
  | true =>
    cases hs : x.ctx.state.canSend with
    | false =>
      have hmasked : x.react (Signals.inter { closeRequested := true } x.interest) =
          x.goto .collectDue :=
        Engine.react_masked hs rfl
      rw [hmasked, solo_collectDue hd]
      exact ⟨_, .empty, runs_idle s events hd hmasked, .inl rfl, rfl⟩
    | true =>
      have hclose := Engine.react_closeRequested hs
      have hwait := step_wait x s { closeRequested := true } events
      rw [hclose] at hwait ⊢
      exact ⟨_, .empty, .single hwait, rfl, rfl⟩

lemma catchesUp_network (s : Script) (events : List (Except IoError Signals))
    (hd : x.ctx.done = false) (networkData closeRequested : Bool) :
    CatchesUp x { networkData := networkData, closeRequested := closeRequested } s events := by
  cases networkData with
  | false => exact catchesUp_close s events hd closeRequested
  | true =>
    rw [CatchesUp]
    have hone : x.react (Signals.network.inter x.interest) = x.goto (.receive .empty) :=
      x.react_networkData .empty rfl
    have hnext :
        x.react
            (Signals.inter { networkData := true, closeRequested := closeRequested } x.interest) =
          x.goto (.receive (Signals.inter { closeRequested := closeRequested } x.interest)) :=
      x.react_networkData { closeRequested := closeRequested } rfl
    have hwait := step_wait x s .network
      (List.map .ok (Signals.members { closeRequested := closeRequested }) ++ events)
    rw [hone] at hwait
    rw [hnext]
    exact ⟨_, { closeRequested := closeRequested }, .single hwait, ⟨rfl, rfl, rfl⟩, rfl⟩

lemma catchesUp (s : Script) (events : List (Except IoError Signals)) (hd : x.ctx.done = false)
    (left : Signals) :
    CatchesUp x left s events := by
  obtain ⟨appData, networkData, closeRequested⟩ := left
  cases appData with
  | false => exact catchesUp_network s events hd networkData closeRequested
  | true =>
    let more : Signals := { networkData := networkData, closeRequested := closeRequested }
    cases hs : x.ctx.state.canSend with
    | true =>
      have hone : x.react (Signals.inter { appData := true } x.interest) = x.goto (.read .empty) :=
        Engine.react_appData hs .empty
      have hnext : x.react (Signals.inter ⟨true, networkData, closeRequested⟩ x.interest) =
          x.goto (.read more) :=
        Engine.react_appData hs more
      have hwait := step_wait x s { appData := true } (List.map .ok more.members ++ events)
      rw [hone] at hwait
      rw [CatchesUp, hnext]
      exact ⟨_, more, .single hwait, ⟨rfl, rfl⟩, rfl⟩
    | false =>
      have hmasked : x.react (Signals.inter { appData := true } x.interest) = x.goto .collectDue :=
        Engine.react_masked hs rfl
      have hsame : Signals.inter ⟨true, networkData, closeRequested⟩ x.interest =
          more.inter x.interest := by
        rw [Engine.interest_of_not_canSend hs]
        rfl
      have hidle := runs_idle s (List.map .ok more.members ++ events) hd hmasked
      obtain ⟨t, left', hruns, hleaves, hacts⟩ :=
        catchesUp_network s events hd networkData closeRequested
      rw [CatchesUp, hsame]
      exact ⟨_, left', hidle.trans hruns, hleaves, hacts⟩

def Apart (m m' : Machine Unit Script) : Prop :=
  ∃ left events, m.engine.Leaves left ∧ Script.Separated m.host.events events ∧
    m' = ⟨m.engine.solo, (), m.host.withEvents (left.members.map .ok ++ events)⟩

variable {m m' m₁ : Machine Unit Script} {calls : List Event} {left : Signals}

lemma branch_apart {e e' : Engine} (hb : Engine.Branch left e e') (hc : e.Coherent)
    (he : Script.Separated s.events events) :
    ∃ t m', Runs .inert Script.host ⟨e', (), s.withEvents (left.members.map .ok ++ events)⟩ t m' ∧
      Apart ⟨e, (), s⟩ m' ∧ t.acts = [] := by
  cases hb with
  | stay hl => exact ⟨[], _, .refl _, ⟨left, events, hl, he, rfl⟩, rfl⟩
  | react e first second =>
    have hdue := step_collectDue e (s.withEvents (left.members.map .ok ++ events))
    cases hd : e.ctx.done with
    | true =>
      have hs := Engine.not_canSend_of_done (Engine.linked_of_react hc) hd
      have hn : left.networkData = false := by
        by_contra hnet
        rw [second (by simpa using hnet)] at hs
        cases hs
      -- Nothing more is asked for, and the other machine does not even come to see it.
      rw [Engine.react_masked hs hn]
      exact ⟨_, _, .single hdue, ⟨left, events, .inr hd, he, rfl⟩, rfl⟩
    | false =>
      rw [Engine.turn_of_not_done hd] at hdue
      obtain ⟨t, left', hruns, hleaves, hacts⟩ := catchesUp s events hd left
      exact ⟨_, _, .step hdue hruns, ⟨left', events, hleaves, he, rfl⟩, hacts⟩

lemma apart_wait {e : Engine} {s : Script} (hc : Engine.Coherent (e.goto .wait))
    (he : Script.Separated s.events events)
    (hs : step .inert Script.host ⟨e.goto .wait, (), s⟩ = some (m₁, calls)) :
    ∃ t m', Runs .inert Script.host ⟨e.goto .wait, (), s.withEvents events⟩ t m' ∧ Apart m₁ m' ∧
      calls.filter Event.isAct = t.acts := by
  have hd : e.ctx.done = false := hc.2
  obtain ⟨net, app, batches, sendFaults, writeFaults⟩ := s
  cases he with
  | nil =>
    cases hs
    exact ⟨_, _, .single rfl, ⟨.empty, [], trivial, .nil, rfl⟩, rfl⟩
  | @fault batches singles cause he =>
    cases hs
    exact ⟨_, _, .single rfl, ⟨.empty, singles, trivial, he, rfl⟩, rfl⟩
  | @split batches singles ready he =>
    cases hs
    obtain ⟨t, left, hruns, hleaves, hacts⟩ :=
      catchesUp ⟨net, app, batches, sendFaults, writeFaults⟩ singles hd ready
    exact ⟨t, _, hruns, ⟨left, singles, hleaves, he, rfl⟩, hacts.symm⟩
  | @keep batches singles he =>
    cases hs
    have hidle : e.react (Signals.empty.inter e.interest) = e.goto .collectDue := rfl
    have hturn := runs_idle ⟨net, app, batches, sendFaults, writeFaults⟩ singles hd hidle
    refine ⟨_, _, hturn, ⟨.empty, singles, .inl rfl, he, ?_⟩, rfl⟩
    rw [← solo_collectDue hd]
    rfl

lemma apart_collectDue {e : Engine} (hl : (e.goto .collectDue).Leaves left)
    (he : Script.Separated s.events events) :
    Apart ⟨e.turn, (), s⟩ ⟨e.turn, (), s.withEvents (left.members.map .ok ++ events)⟩ := by
  rw [Engine.turn]
  split_ifs with hd
  · exact ⟨left, events, trivial, he, rfl⟩
  · obtain rfl := hl.resolve_right hd
    exact ⟨.empty, events, rfl, he, rfl⟩

lemma Apart.step (h : m.Apart m') (hc : m.engine.Coherent)
    (hs : m.step .inert Script.host = some (m₁, calls)) :
    ∃ t m₁', Runs .inert Script.host m' t m₁' ∧ m₁.Apart m₁' ∧
      calls.filter Event.isAct = t.acts := by
  obtain ⟨left, events, hl, he, rfl⟩ := h
  by_cases hw : m.engine.point = .wait
  · obtain ⟨⟨config, ctx, thenLoop, point⟩, policy, s⟩ := m
    obtain rfl : point = .wait := hw
    obtain rfl : left = .empty := hl
    exact apart_wait (e := ⟨config, ctx, thenLoop, .wait⟩) hc he hs
  · by_cases hd : m.engine.point = .collectDue
    · obtain ⟨⟨config, ctx, thenLoop, point⟩, policy, s⟩ := m
      obtain rfl : point = .collectDue := hd
      cases hs
      exact ⟨[], _, .refl _, apart_collectDue (e := ⟨config, ctx, thenLoop, .wait⟩) hl he, rfl⟩
    · have hwait (interest : Signals) (next : Except IoError Signals → Engine)
          (hr : m.engine.request = .wait interest next) (deadline : Option Millis) :
          Script.host.wait interest deadline (m.host.withEvents (left.members.map .ok ++ events)) =
            (Script.host.wait interest deadline m.host).map (Prod.map id
              (Script.withEvents (left.members.map .ok ++ events))) :=
        absurd (Engine.point_of_request_wait hr) hw
      obtain ⟨e₁, hs', hb⟩ :=
        step_alike (Script.ignores_withEvents (left.members.map .ok ++ events))
          (Engine.request_solo hl hc hw hd) hwait hs
      have hseparated : Script.Separated m₁.host.events events := by
        rwa [events_step hs hw]
      obtain ⟨t, m₁', hruns, hapart, hacts⟩ :=
        branch_apart hb (Engine.coherent_step hc (step_engine hs)) hseparated
      refine ⟨calls ++ t, m₁', .step hs' hruns, hapart, ?_⟩
      rw [Trace.acts_append, hacts, List.append_nil]
      rfl

lemma Apart.runs {t : Trace} (h : m.Apart m') (hc : m.engine.Coherent)
    (hr : Runs .inert Script.host m t m₁) :
    ∃ t' m₁', Runs .inert Script.host m' t' m₁' ∧ m₁.Apart m₁' ∧ t.acts = t'.acts := by
  induction hr generalizing m' with
  | refl => exact ⟨[], m', .refl m', h, rfl⟩
  | step hs _ ih =>
    obtain ⟨u, m₂, hu, hapart, hacts⟩ := h.step hc hs
    obtain ⟨u', m₃, hu', hapart', hacts'⟩ := ih hapart (Engine.coherent_step hc (step_engine hs))
    refine ⟨u ++ u', m₃, hu.trans hu', hapart', ?_⟩
    rw [Trace.acts_append, Trace.acts_append, ← hacts, hacts']
    rfl

lemma apart_loop (config : Config) (ctx : Context) (he : Script.Separated s.events events) :
    Apart ⟨.loop config ctx, (), s⟩ ⟨.loop config ctx, (), s.withEvents events⟩ := by
  rw [Engine.loop, Engine.turn]
  split_ifs
  · exact ⟨.empty, events, trivial, he, rfl⟩
  · exact ⟨.empty, events, rfl, he, rfl⟩
  · exact ⟨.empty, events, trivial, he, rfl⟩

lemma Apart.ended (h : m.Apart m') (hend : m.engine.result?.isSome) : m'.engine = m.engine := by
  obtain ⟨left, events, -, -, rfl⟩ := h
  obtain ⟨⟨config, ctx, thenLoop, point⟩, policy, s⟩ := m
  cases point with
  | ended result => rfl
  | _ => cases hend

/-- A control loop that follows a handshake asks the host for the same, waits apart, and ends in the
same way, whether its events come together or one by one. -/
theorem loop_separated {config : Config} {isn : SeqNum} {role : Role} {opening t : Trace}
    (h : Session .inert Script.host config isn role opening t m) (hp : m.engine.stage = .finished)
    (he : Script.Separated s.events events) :
    ∃ enough, ∀ fuel ≥ enough, ∀ longer ≥ enough, ∃ result,
      let batches := run .inert Script.host fuel ⟨m.again.engine, (), s⟩
      let singles := run .inert Script.host longer ⟨m.again.engine, (), { s with events := events }⟩
      batches.1.engine.result? = some result ∧ singles.1.engine.result? = some result ∧
        singles.1.engine.ctx = batches.1.engine.ctx ∧
        Trace.acts singles.2 = Trace.acts batches.2 := by
  have hsound : m.engine.Sound :=
    (h.keeps (I := fun _ _ => True) (fun _ _ => trivial) (fun _ _ => trivial)
      fun _ _ _ _ => trivial).1
  have hcoherent := (hsound.again hp).coherent
  have hapart := apart_loop m.engine.config m.engine.ctx he
  obtain ⟨u, m₁, hruns, hend⟩ := exists_ended ⟨m.again.engine, (), s⟩
  obtain ⟨u', m₁', hruns', hsame, hacts⟩ := hapart.runs hcoherent hruns
  have hengine := hsame.ended hend
  have hend' : m₁'.engine.result?.isSome := by rwa [hengine]
  obtain ⟨enough, hrun⟩ := hruns.exists_run hend
  obtain ⟨enough', hrun'⟩ := hruns'.exists_run hend'
  obtain ⟨result, hresult⟩ := Option.isSome_iff_exists.mp hend
  refine ⟨max enough enough', fun fuel hfuel longer hlonger => ⟨result, ?_⟩⟩
  intro batches singles
  have hbatches : batches = (m₁, u) := hrun fuel (Nat.le_trans (Nat.le_max_left _ _) hfuel)
  have hsingles : singles = (m₁', u') := hrun' longer (Nat.le_trans (Nat.le_max_right _ _) hlonger)
  rw [hbatches, hsingles]
  exact ⟨hresult, by rwa [hengine], by rw [hengine], hacts.symm⟩

def greeted : Machine Unit Script × Trace :=
  run .inert Script.host 20
    ⟨.handshake {} (.new 1) .active, (), { net := [Script.incoming .synAck 100 2 []] }⟩

def crowded : Script where
  net := [Script.incoming .ackOnly 101 3 [5], Script.incoming .ackOnly 102 4 []]
  app := [.ok [1]]
  events := [.ok .empty, .ok .all]

theorem loop_separated_crowded :
    Session .inert Script.host {} 1 .active greeted.2 [] greeted.1 ∧
      greeted.1.engine.stage = .finished ∧
      Script.Separated crowded.events
        [.ok .empty, .ok { appData := true }, .ok .network, .ok { closeRequested := true }] ∧
      (Trace.acts (run .inert Script.host 40 ⟨greeted.1.again.engine, (), crowded⟩).2).length = 7 ∧
      ∃ enough, ∀ fuel ≥ enough, ∀ longer ≥ enough, ∃ result,
        let batches := run .inert Script.host fuel ⟨greeted.1.again.engine, (), crowded⟩
        let singles := run .inert Script.host longer ⟨greeted.1.again.engine, (), { crowded with
          events := [.ok .empty, .ok { appData := true }, .ok .network,
            .ok { closeRequested := true }] }⟩
        batches.1.engine.result? = some result ∧ singles.1.engine.result? = some result ∧
          singles.1.engine.ctx = batches.1.engine.ctx ∧
          Trace.acts singles.2 = Trace.acts batches.2 := by
  have hopened : Session .inert Script.host {} 1 .active greeted.2 [] greeted.1 :=
    .opened ⟨⟨(), _, steps_run _ _ 20 _⟩, by rfl⟩
  have hfinished : greeted.1.engine.stage = .finished := by
    decide +kernel
  have hseparated : Script.Separated crowded.events
      [.ok .empty, .ok { appData := true }, .ok .network, .ok { closeRequested := true }] :=
    .keep (.split .all .nil)
  exact ⟨hopened, hfinished, hseparated, by decide +kernel,
    loop_separated hopened hfinished hseparated⟩

end Machine

end DatagramStream
