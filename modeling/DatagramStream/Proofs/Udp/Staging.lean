import DatagramStream.Proofs.Runs
import DatagramStream.Proofs.Udp.Polling

/-! A host on a socket hands on what its application types, all of it and in order, one segment's
worth at a time. -/

namespace DatagramStream

namespace UdpHost

structure Fresh (h : UdpHost) : Prop where
  staged : h.staged = []
  inputEnded : h.inputEnded = false

structure SameInput (h h' : UdpHost) : Prop where
  own : h' = { h with peer := h'.peer, socket := h'.socket, output := h'.output }

/-- What has become of a host: what the application has typed, what has been read from the host of
it, whether the peer has closed, and how the host is now. -/
inductive Supply (start : UdpHost) : Bytes → Bytes → Bool → UdpHost → Prop
  | start : Supply start [] [] false start
  | others {typed more handed : Bytes} {closed : Bool} {h h' : UdpHost} :
      Supply start typed handed closed h → Meanwhile more h h' →
        Supply start (typed ++ more) handed closed h'
  | wait {typed more handed : Bytes} {closed : Bool} {h h' : UdpHost} {interest : Signals}
      {due : Option Millis} {now now' : Millis} {outcome : Except IoError Signals} :
      Supply start typed handed closed h → Polls Meanwhile interest due now h more outcome now' h' →
        Supply start (typed ++ more) handed closed h'
  | read {typed handed data : Bytes} {closed : Bool} {h h' : UdpHost} {limit : Nat} :
      Supply start typed handed closed h → h.read limit = (.ok data, h') →
        Supply start typed (handed ++ data) closed h'
  | peerClosed {typed handed : Bytes} {closed : Bool} {h : UdpHost} :
      Supply start typed handed closed h → Supply start typed handed true h.peerClosed
  | aside {typed handed : Bytes} {closed : Bool} {h : UdpHost} (h' : UdpHost) :
      Supply start typed handed closed h → h.SameInput h' → Supply start typed handed closed h'

/-- What has been typed is where it belongs: some of it handed on, some staged, and the rest still
in the input. -/
structure Balance (start : UdpHost) (typed handed : Bytes) (closed : Bool)
    (h : UdpHost) : Prop where
  mss : h.mss = start.mss
  closeOnPeerFin : h.closeOnPeerFin = start.closeOnPeerFin
  conserved : start.input.content ++ typed = handed ++ (h.staged ++ h.input.content)
  bounded : h.staged.length ≤ start.mss
  ended : h.inputEnded = true → h.input.Exhausted ∨ start.closeOnPeerFin = true ∧ closed = true

variable {start h h' : UdpHost} {typed more handed : Bytes} {closed : Bool} {interest : Signals}
  {due : Option Millis} {now now' : Millis} {outcome : Except IoError Signals}

namespace Balance

lemma fresh (hf : start.Fresh) : start.Balance [] [] false start where
  mss := rfl
  closeOnPeerFin := rfl
  conserved := by rw [hf.staged, List.append_nil, List.nil_append, List.nil_append]
  bounded := by
    rw [hf.staged]
    exact Nat.zero_le _
  ended hended := by
    rw [hf.inputEnded] at hended
    cases hended

lemma meanwhile (hb : start.Balance typed handed closed h) (hm : Meanwhile more h h') :
    start.Balance (typed ++ more) handed closed h' := by
  obtain ⟨hmss, hclose, hconserved, hbounded, hended⟩ := hb
  obtain ⟨hown, hcontent, hinput⟩ := hm
  rw [hown] at hcontent hinput ⊢
  refine ⟨hmss, hclose, ?_, hbounded, fun hend => ?_⟩
  · rw [← List.append_assoc, hconserved, hcontent]
    simp only [List.append_assoc]
  · obtain hexhausted | hpeer := hended hend
    · obtain ⟨hinputEnded, rfl⟩ := hinput hexhausted.ended
      exact .inl ⟨hinputEnded, by rw [hcontent, hexhausted.content, List.append_nil]⟩
    · exact .inr hpeer

lemma look (hm : 0 < start.mss) (hb : start.Balance typed handed closed h)
    (hl : h.look interest = (outcome, h')) :
    start.Balance typed handed closed h' := by
  obtain ⟨hmss, hclose, hconserved, hbounded, hended⟩ := hb
  obtain ⟨-, hsame⟩ | ⟨-, hopen, hempty, hreadable,
      ⟨cause, input, hread, hfailed⟩ | ⟨data, input, after, hread, hafter, hlook⟩⟩ :=
      look_reads interest h
  · obtain ⟨-, rfl⟩ := Prod.mk.inj (hsame.symm.trans hl)
    exact ⟨hmss, hclose, hconserved, hbounded, hended⟩
  · obtain ⟨-, rfl⟩ := Prod.mk.inj (hfailed.symm.trans hl)
    obtain ⟨-, hcontent, -⟩ := Input.read_error hread
    refine ⟨hmss, hclose, ?_, Nat.zero_le _, fun hend => ?_⟩
    · rw [hconserved, hempty, hcontent]
    · rw [hopen] at hend
      cases hend
  · obtain ⟨-, rfl⟩ := Prod.mk.inj (hlook.symm.trans hl)
    obtain ⟨hcontent, hlength, -, hnone⟩ := Input.read_ok hread
    rw [hmss] at hlength hnone
    subst hafter
    refine ⟨hmss, hclose, ?_, hlength, fun hend => ?_⟩
    · rw [hconserved, hempty, hcontent, List.nil_append]
    · exact .inl (hnone hm hreadable (List.isEmpty_iff.mp hend))

lemma polls (hm : 0 < start.mss) (hb : start.Balance typed handed closed h)
    (hp : Polls Meanwhile interest due now h more outcome now' h') :
    start.Balance (typed ++ more) handed closed h' := by
  induction hp generalizing typed with
  | refused =>
    rw [List.append_nil]
    exact hb
  | settled _ hact hlook => exact (hb.meanwhile hact).look hm hlook
  | again _ hact hlook _ _ ih =>
    rw [← List.append_assoc]
    exact ih ((hb.meanwhile hact).look hm hlook)

lemma read {limit : Nat} {data : Bytes} (hb : start.Balance typed handed closed h)
    (hr : h.read limit = (.ok data, h')) : start.Balance typed (handed ++ data) closed h' := by
  obtain ⟨hmss, hclose, hconserved, hbounded, hended⟩ := hb
  obtain ⟨hdata, rfl⟩ := Prod.mk.inj hr
  obtain rfl := Except.ok.inj hdata
  refine ⟨hmss, hclose, ?_, ?_, hended⟩
  · rw [hconserved, List.append_assoc, ← List.append_assoc (h.staged.take limit),
      List.take_append_drop]
  · rw [List.length_drop]
    exact le_trans (Nat.sub_le _ _) hbounded

lemma peerClosed (hb : start.Balance typed handed closed h) :
    start.Balance typed handed true h.peerClosed := by
  obtain ⟨hmss, hclose, hconserved, hbounded, hended⟩ := hb
  refine ⟨hmss, hclose, hconserved, hbounded, fun hend => ?_⟩
  obtain hended' | hpeer := Bool.or_eq_true_iff.mp hend
  · exact (hended hended').imp_right fun hpeer => ⟨hpeer.1, rfl⟩
  · exact .inr ⟨hclose ▸ hpeer, rfl⟩

lemma aside (hb : start.Balance typed handed closed h) (hs : h.SameInput h') :
    start.Balance typed handed closed h' := by
  obtain ⟨hmss, hclose, hconserved, hbounded, hended⟩ := hb
  rw [hs.own]
  exact ⟨hmss, hclose, hconserved, hbounded, hended⟩

end Balance

lemma Supply.balance (hm : 0 < start.mss) (hf : start.Fresh)
    (hs : Supply start typed handed closed h) :
    start.Balance typed handed closed h := by
  induction hs with
  | start => exact .fresh hf
  | others _ hact ih => exact ih.meanwhile hact
  | wait _ hp ih => exact ih.polls hm hp
  | read _ hr ih => exact ih.read hr
  | peerClosed _ ih => exact ih.peerClosed
  | aside h' _ hsame ih => exact ih.aside hsame

structure Shows (interest : Signals) (due : Option Millis) (closed : Bool) (now : Millis)
    (h : UdpHost) (ready : Signals) : Prop where
  within : ready.inter interest = ready
  appData : ready.appData = true ↔ interest.appData = true ∧ h.staged ≠ []
  closeRequested : ready.closeRequested = true →
    h.staged = [] ∧ (h.input.Exhausted ∨ h.closeOnPeerFin = true ∧ closed = true)
  expired : ready = .empty → ∃ deadline, due = some deadline ∧ deadline ≤ now

/-- How a wait may end: with a report, with the failure of a read of the input, or because nothing
that it waits for can come. -/
inductive Answers (interest : Signals) (due : Option Millis) (closed : Bool) (now : Millis)
    (h : UdpHost) : Except IoError Signals → Prop
  | reports {ready : Signals} : h.Shows interest due closed now ready →
      Answers interest due closed now h (.ok ready)
  | fails {cause : IoError} {input : Input} : input.read h.mss = (.error cause, h.input) →
      cause.kind ≠ .interrupted → h.staged = [] → h.inputEnded = false →
        Answers interest due closed now h (.error cause)
  | refuses : (h.known interest).isEmpty = true → interest.networkData = false →
      h.watchesInput interest = false → due = none →
        Answers interest due closed now h (.error .nothingToWaitFor)

lemma known_within (interest : Signals) (h : UdpHost) :
    (h.known interest).inter interest = h.known interest := by
  simp only [known, Signals.inter, Signals.mk.injEq]
  cases interest.appData <;> cases interest.networkData <;> cases interest.closeRequested <;> simp

lemma shows_known (hb : start.Balance typed handed closed h)
    (hset : Settled due now (.ok (h.known interest))) :
    h.Shows interest due closed now (h.known interest) where
  within := known_within interest h
  appData := by simp [known]
  closeRequested hclose := by
    obtain ⟨hboth, hempty⟩ := Bool.and_eq_true_iff.mp hclose
    obtain ⟨-, hended⟩ := Bool.and_eq_true_iff.mp hboth
    exact ⟨List.isEmpty_iff.mp hempty, hb.closeOnPeerFin ▸ hb.ended hended⟩
  expired hnone := by
    obtain hsome | hdue := hset
    · rw [hnone] at hsome
      cases hsome
    · exact hdue

lemma answers_look (hb : start.Balance typed handed closed h')
    (hl : h.look interest = (outcome, h')) (hset : Settled due now outcome) :
    h'.Answers interest due closed now outcome := by
  obtain ⟨-, hsame⟩ |
      ⟨-, hopen, -, -, ⟨cause, input, hread, hfailed⟩ | ⟨data, input, after, -, -, hlook⟩⟩ :=
    look_reads interest h
  · obtain ⟨rfl, rfl⟩ := Prod.mk.inj (hsame.symm.trans hl)
    exact .reports (shows_known hb hset)
  · obtain ⟨rfl, rfl⟩ := Prod.mk.inj (hfailed.symm.trans hl)
    obtain ⟨hkind, -⟩ := Input.read_error hread
    exact .fails hread hkind rfl hopen
  · obtain ⟨rfl, rfl⟩ := Prod.mk.inj (hlook.symm.trans hl)
    exact .reports (shows_known hb hset)

lemma Balance.answers (hm : 0 < start.mss) (hb : start.Balance typed handed closed h)
    (hp : Polls Meanwhile interest due now h more outcome now' h') :
    h'.Answers interest due closed now' outcome := by
  induction hp generalizing typed with
  | refused hnone hnet hwatch hdue => exact .refuses hnone hnet hwatch hdue
  | settled _ hact hlook hset => exact answers_look ((hb.meanwhile hact).look hm hlook) hlook hset
  | again _ hact hlook _ _ ih => exact ih ((hb.meanwhile hact).look hm hlook)

lemma send_sameInput (header payload : Bytes) (h : UdpHost) :
    h.SameInput (h.send header payload).2 := by
  obtain ⟨-, hunknown⟩ | ⟨p, -, ⟨cause, hfailed⟩ | ⟨answers, later, hsent⟩⟩ :=
    h.send_cases header payload
  · rw [hunknown]
    exact ⟨rfl⟩
  · rw [hfailed]
    exact ⟨rfl⟩
  · rw [hsent]
    exact ⟨rfl⟩

lemma receive_sameInput {capacity : Nat} {answer : Except IoError Bytes}
    (hr : h.receive capacity = some (answer, h')) : h.SameInput h' := by
  obtain ⟨hnone, -⟩ | ⟨noise, p, d, rest, -, -, -, -, -, hreceive⟩ := h.receive_cases capacity
  · cases hnone.symm.trans hr
  · cases hreceive.symm.trans hr
    exact ⟨rfl⟩

namespace Supply

lemma wait_still {deadline : Option Millis} (hs : Supply start typed handed closed h)
    (hw : h.wait interest deadline = some (outcome, h')) : Supply start typed handed closed h' := by
  obtain ⟨now', hp⟩ := polls_of_wait hw 0
  have hwaited := hs.wait (hp.mono Still.meanwhile)
  rwa [List.append_nil] at hwaited

variable {π : Type} {P : Policy π} {m m' : Machine π UdpHost} {events t : Trace}

lemma step (hs : Supply start typed handed closed m.host)
    (hstep : m.step P host = some (m', events)) :
    ∃ closed', (closed' = true ↔ closed = true ∨ Event.peerClosed ∈ events) ∧
      Supply start typed (handed ++ events.read) closed' m'.host := by
  obtain ⟨engine, policy, h⟩ := m
  have hquiet {h' : UdpHost} (hsupply : Supply start typed handed closed h')
      (hread : events.read = []) (hclose : Event.peerClosed ∉ events) :
      ∃ closed', (closed' = true ↔ closed = true ∨ Event.peerClosed ∈ events) ∧
        Supply start typed (handed ++ events.read) closed' h' :=
    ⟨closed, (or_iff_left hclose).symm, by rwa [hread, List.append_nil]⟩
  rw [Machine.step] at hstep
  cases hr : engine.request with
  | transmit g next =>
    have haside := hs.aside _ (send_sameInput g.header.encode g.payload h)
    rw [hr] at hstep
    cases ho : (host.send g.header.encode g.payload h).1 with
    | ok u =>
      simp only [ho, Option.some.injEq, Prod.mk.injEq] at hstep
      obtain ⟨rfl, rfl⟩ := hstep
      exact hquiet haside rfl (by simp)
    | error cause =>
      simp only [ho, Option.some.injEq, Prod.mk.injEq] at hstep
      obtain ⟨rfl, rfl⟩ := hstep
      exact hquiet haside rfl (by simp)
  | resend header payload next =>
    simp only [hr, Option.some.injEq, Prod.mk.injEq] at hstep
    obtain ⟨rfl, rfl⟩ := hstep
    exact hquiet (hs.aside _ (send_sameInput header payload h)) rfl (by simp)
  | receive capacity next =>
    simp only [hr, Option.map_eq_some_iff, Prod.mk.injEq] at hstep
    obtain ⟨⟨answer, h'⟩, hreceive, rfl, rfl⟩ := hstep
    exact hquiet (hs.aside _ (receive_sameInput hreceive)) rfl (by simp)
  | read limit next =>
    simp only [hr, Option.some.injEq, Prod.mk.injEq] at hstep
    obtain ⟨rfl, rfl⟩ := hstep
    refine ⟨closed, by simp, ?_⟩
    have hread := hs.read (rfl : h.read limit = _)
    rwa [← List.append_nil (h.staged.take limit)] at hread
  | write data next =>
    simp only [hr, Option.some.injEq, Prod.mk.injEq] at hstep
    obtain ⟨rfl, rfl⟩ := hstep
    exact hquiet (hs.aside _ ⟨rfl⟩) rfl (by simp)
  | unblock next | noteAck ack next | collectDue next =>
    simp only [hr, Option.some.injEq, Prod.mk.injEq] at hstep
    obtain ⟨rfl, rfl⟩ := hstep
    exact hquiet hs rfl (by simp)
  | peerClosed next =>
    simp only [hr, Option.some.injEq, Prod.mk.injEq] at hstep
    obtain ⟨rfl, rfl⟩ := hstep
    refine ⟨true, by simp, ?_⟩
    have hclosed := hs.peerClosed
    rwa [← List.append_nil handed] at hclosed
  | wait interest next =>
    simp only [hr, Option.map_eq_some_iff, Prod.mk.injEq] at hstep
    obtain ⟨⟨answer, h'⟩, hwait, rfl, rfl⟩ := hstep
    exact hquiet (hs.wait_still hwait) rfl (by simp)
  | finished result => simp [hr] at hstep

lemma runs (hr : m.Runs P host t m') (hs : Supply start typed handed closed m.host) :
    ∃ closed', (closed' = true ↔ closed = true ∨ Event.peerClosed ∈ t) ∧
      Supply start typed (handed ++ t.read) closed' m'.host := by
  induction hr generalizing handed closed with
  | refl m => exact ⟨closed, by simp, by simpa [Trace.read] using hs⟩
  | step hstep _ ih =>
    obtain ⟨closed₁, hclosed₁, hs₁⟩ := hs.step hstep
    obtain ⟨closed₂, hclosed₂, hs₂⟩ := ih hs₁
    refine ⟨closed₂, ?_, ?_⟩
    · rw [hclosed₂, hclosed₁, List.mem_append, or_assoc]
    · rwa [Trace.read_append, ← List.append_assoc]

end Supply

/-- All that has been typed has been handed on, is staged or is still in the input, in this order,
and a wait tells of what is staged and of the end of the input as they are when it returns. -/
theorem input_handed_on (hm : 0 < start.mss) (hf : start.Fresh)
    (hs : Supply start typed handed closed h) :
    start.Balance typed handed closed h ∧
      (∀ g : UdpHost, g.staged ≠ [] ∨ g.inputEnded = true → ∀ interest input,
        { g with input := input }.look interest =
          (.ok (g.known interest), { g with input := input })) ∧
      (∀ (g g' : UdpHost) interest ready, g.watchesInput interest = true → g.input.readable = true →
        g.look interest = (.ok ready, g') → g'.staged ≠ [] ∨ g'.inputEnded = true) ∧
      (∀ interest due now more outcome now' h',
        Polls Meanwhile interest due now h more outcome now' h' →
          start.Balance (typed ++ more) handed closed h' ∧
            h'.Answers interest due closed now' outcome) ∧
      (∀ interest deadline now outcome h', h.wait interest deadline = some (outcome, h') ↔
        ∃ more now', Polls Still interest (deadline.map (now + ·)) now h more outcome now' h') ∧
      ∀ (π : Type) (P : Policy π) (m m' : Machine π UdpHost) (t : Trace), m.host = h →
        m.Runs P host t m' →
          ∃ closed', (closed' = true ↔ closed = true ∨ Event.peerClosed ∈ t) ∧
            start.Balance typed (handed ++ t.read) closed' m'.host := by
  refine ⟨hs.balance hm hf, fun g hg interest input => ?_,
    fun g g' interest ready hw hr hl => look_stages hw hr hl, ?_,
    fun interest deadline now outcome h' => ?_, ?_⟩
  · exact look_of_full (h := { g with input := input }) hg interest
  · intro interest due now more outcome now' h' hp
    have hb := hs.balance hm hf
    exact ⟨hb.polls hm hp, hb.answers hm hp⟩
  · exact wait_eq_some_iff now
  · rintro π P m m' t rfl hr
    obtain ⟨closed', hclosed, hsupply⟩ := hs.runs hr
    exact ⟨closed', hclosed, hsupply.balance hm hf⟩

theorem input_handed_on_haltingly :
    ∃ start h : UdpHost, 0 < start.mss ∧ start.Fresh ∧ Supply start [1, 2, 3] [1, 2] false h ∧
      start.Balance [1, 2, 3] [1, 2] false h ∧ h.input.Exhausted ∧ h.staged = [3] ∧
        ∃ h', h.wait .all (some 9) = some (.ok { appData := true }, h') ∧
          h'.Answers .all (some 9) false 0 (.ok { appData := true }) := by
  let interruption : IoError := ⟨.interrupted, "interrupted"⟩
  let failure : IoError := ⟨.other, "unplugged"⟩
  let start : UdpHost := { mss := 2, input := { faults := [some interruption, some failure] } }
  let typing : UdpHost := { start with input.typed := [1, 2, 3] }
  let failed : UdpHost := { mss := 2, input := { typed := [1, 2, 3] } }
  let pieces : UdpHost := { mss := 2, input := { buffered := [1], typed := [2, 3] } }
  let one : UdpHost := { mss := 2, staged := [1], input := { typed := [2, 3] } }
  let two : UdpHost := { mss := 2, staged := [2, 3] }
  let last : UdpHost := { mss := 2, staged := [3] }
  let ended : UdpHost := { mss := 2, staged := [3], input := { ended := true } }
  have hidle : start.look .all = (.ok .empty, start) := rfl
  have hfailed : typing.look .all = (.error failure, failed) := rfl
  have hunchanged : Meanwhile [] start start := Still.meanwhile ⟨rfl, rfl⟩
  have htyped : Meanwhile [1, 2, 3] start typing := ⟨rfl, rfl, nofun⟩
  have hwaited : Polls Meanwhile .all (some 100) 0 start [1, 2, 3] (.error failure) 5 failed := by
    refine .again (by decide : 0 ≤ 3) hunchanged hidle ?_
      (.settled (by decide) htyped hfailed trivial)
    rintro (hsome | ⟨deadline, ⟨⟩, hlate⟩)
    · cases hsome
    · exact absurd hlate (by decide)
  have hbuffered : Meanwhile [] failed pieces := ⟨rfl, rfl, nofun⟩
  have hpieces : Supply start [1, 2, 3] [] false pieces :=
    (Supply.start.wait hwaited).others hbuffered
  have hstaged : pieces.wait .all none = some (.ok { appData := true }, one) := rfl
  have hfirst := (hpieces.wait_still hstaged).read (rfl : one.read 8 = _)
  have hstaged' : (one.read 8).2.wait .all none = some (.ok { appData := true }, two) := rfl
  have hsecond : Supply start [1, 2, 3] [1, 2] false last :=
    (hfirst.wait_still hstaged').read (rfl : two.read 1 = _)
  have hclosing : Meanwhile [] last ended := ⟨rfl, rfl, fun hend => by cases hend⟩
  have hended : Supply start [1, 2, 3] [1, 2] false ended := hsecond.others hclosing
  have hfresh : start.Fresh := ⟨rfl, rfl⟩
  obtain ⟨hbalance, hunread, -, hanswers, -⟩ := input_handed_on (by decide) hfresh hended
  have hlook : ended.look .all = (.ok { appData := true }, ended) :=
    hunread ended (.inl (List.cons_ne_nil 3 [])) .all ended.input
  refine ⟨start, ended, by decide, hfresh, hended, hbalance, ⟨rfl, rfl⟩, rfl, ended, rfl, ?_⟩
  exact (hanswers .all (some 9) 0 [] _ 0 ended
    (.settled (Nat.le_refl 0) ⟨rfl, rfl, fun hend => ⟨hend, rfl⟩⟩ hlook (.inl rfl))).2

end UdpHost

end DatagramStream
