import DatagramStream.Proofs.Memory.Conserving

/-! What a host in memory says when it has waited, and when it says it. -/

namespace DatagramStream

namespace MemoryHost

def holding (interest : Signals) (h : MemoryHost) : Signals where
  appData := interest.appData && !h.app.outbound.isEmpty
  networkData := interest.networkData && !h.inFlight.isEmpty
  closeRequested := interest.closeRequested && h.app.closeRequested && h.app.outbound.isEmpty

def Ready (h : MemoryHost) : Prop :=
  h.inFlight = [] → h.link.toA.isOpen = false

def later : Millis → List (Millis × PeerAct) → MemoryHost → MemoryHost
  | _, [], h => { h with agenda := [] }
  | limit, (delay, act) :: agenda, h =>
    if limit ≤ delay then { h with agenda := (delay - limit, act) :: agenda }
    else later (limit - delay) agenda (h.perform act)

structure SameWishes (h h' : MemoryHost) : Prop where
  outbound : h'.app.outbound = h.app.outbound
  closeRequested : h'.app.closeRequested = h.app.closeRequested

/-- What a wait may report: the events that hold, at once; else what the peer brings about, when it
does; else nothing, at the deadline. -/
structure Reports (interest : Signals) (deadline : Option Millis) (h : MemoryHost) (ready : Signals)
    (h' : MemoryHost) : Prop where
  within : ready.inter interest = ready
  same : h.SameWishes h'
  appData : ready.appData = true ↔ interest.appData = true ∧ h'.app.outbound ≠ []
  closeRequested : ready.closeRequested = true ↔
    interest.closeRequested = true ∧ h'.app.closeRequested = true ∧ h'.app.outbound = []
  networkData : interest.networkData = true → h.inFlight ≠ [] → ready.networkData = true
  atOnce : (h.holding interest).isEmpty = false → ready = h.holding interest ∧ h'.agenda = h.agenda
  closing : ready.networkData = true → h'.inFlight = [] →
    h'.link.toA.isOpen = false ∧ ready = .network
  -- The next receive may come long after: it does not use up any of what the peer means to do.
  prompt : ready.networkData = true →
    ∀ {sent : List Bytes} {h'' : MemoryHost}, History h' sent [] h'' →
      ∀ capacity, ∃ outcome next, h''.receive capacity = some (outcome, next) ∧
        next.agenda = h''.agenda
  timeout : ready = .empty →
    ∃ limit, deadline = some limit ∧ h' = later limit h.agenda h ∧ ¬h'.Ready

variable {h h' : MemoryHost} {interest : Signals} {agenda : List (Millis × PeerAct)}
  {deadline : Option Millis}

lemma appData_holding : (h.holding interest).appData = true ↔ interest.appData = true ∧
    h.app.outbound ≠ [] := by
  simp [holding]

lemma networkData_holding :
    (h.holding interest).networkData = true ↔ interest.networkData = true ∧ h.inFlight ≠ [] := by
  simp [holding]

lemma closeRequested_holding : (h.holding interest).closeRequested = true ↔
    interest.closeRequested = true ∧ h.app.closeRequested = true ∧ h.app.outbound = [] := by
  simp [holding, and_assoc]

lemma holding_within (interest : Signals) (h : MemoryHost) :
    (h.holding interest).inter interest = h.holding interest := by
  simp only [holding, Signals.inter, Signals.mk.injEq]
  cases interest.appData <;> cases interest.networkData <;> cases interest.closeRequested <;> simp

lemma inFlight_of_holding (hnone : (h.holding interest).isEmpty = true)
    (hi : interest.networkData = true) :
    h.inFlight = [] := by
  by_contra hd
  have hnetwork := networkData_holding.mpr ⟨hi, hd⟩
  rw [beq_iff_eq.mp hnone] at hnetwork
  cases hnetwork

lemma pending_of_inFlight (hnone : h.inFlight = []) : h.app.pending = none := by
  obtain ⟨hpending, -⟩ := List.append_eq_nil_iff.mp hnone
  cases hp : h.app.pending with
  | none => rfl
  | some d =>
    rw [hp] at hpending
    cases hpending

lemma SameWishes.trans {h'' : MemoryHost} (hs : h.SameWishes h') (hs' : h'.SameWishes h'') :
    h.SameWishes h'' :=
  ⟨hs'.outbound.trans hs.outbound, hs'.closeRequested.trans hs.closeRequested⟩

lemma sameWishes_of_app (ha : h'.app = h.app) : h.SameWishes h' :=
  ⟨congrArg MemoryApp.outbound ha, congrArg MemoryApp.closeRequested ha⟩

lemma app_later (limit : Millis) (agenda : List (Millis × PeerAct)) (h : MemoryHost) :
    (later limit agenda h).app = h.app := by
  induction agenda generalizing limit h with
  | nil => rfl
  | cons a agenda ih =>
    rw [later]
    split_ifs
    · rfl
    · rw [ih, app_perform]

namespace Ready

lemma of_inFlight (hs : h.inFlight ≠ []) : h.Ready :=
  fun hnone => absurd hnone hs

lemma perform (hr : h.Ready) (act : PeerAct) : (h.perform act).Ready := by
  intro hnone
  rw [inFlight_perform, List.append_eq_nil_iff] at hnone
  exact (closed_perform (hr hnone.1) act).1

lemma passes {meanwhile : List PeerAct} (hr : h.Ready) (hp : Passes agenda h meanwhile [] h') :
    h'.Ready := by
  intro hnone
  have hflight := hp.flight
  rw [hnone, List.append_nil, List.append_eq_nil_iff] at hflight
  exact hp.closed (hr hflight.1)

lemma history {start : MemoryHost} {sent : List Bytes} {log : List (Nat × Except IoError Bytes)}
    (hr : start.Ready) (hh : History start sent log h) (hlog : log = []) : h.Ready := by
  induction hh with
  | start => exact hr
  | act act _ ih => exact (ih hlog).perform act
  | wait _ hw _ ih =>
    obtain ⟨⟨meanwhile, hp⟩, -⟩ := wait_passes hw
    exact (ih hlog).passes hp
  | receive => exact absurd hlog (List.concat_ne_nil _ _)
  | aside h' _ hpending hlink ih =>
    intro hnone
    rw [inFlight, hpending, hlink] at hnone
    rw [hlink]
    exact ih hlog hnone

lemma receive (hr : h.Ready) (capacity : Nat) :
    ∃ outcome next, h.receive capacity = some (outcome, next) ∧ next.agenda = h.agenda := by
  rw [MemoryHost.receive]
  cases hpending : h.app.pending with
  | some d => exact ⟨_, _, rfl, rfl⟩
  | none =>
    rw [Ready, inFlight_eq hpending] at hr
    obtain ⟨-, ⟨d, queue, -, hreceive, -⟩ | ⟨hreceive, -⟩⟩ := told_now h.agenda h hr
    · exact ⟨_, _, hreceive capacity, rfl⟩
    · exact ⟨_, _, hreceive capacity, rfl⟩

end Ready

lemma park_eq (h : MemoryHost) : h.park.1 = !h.inFlight.isEmpty ∧ h.SameWishes h.park.2 ∧
    h.park.2.inFlight = h.inFlight ∧ h.park.2.agenda = h.agenda ∧
      (h.inFlight = [] → h.park.2 = h) := by
  obtain ⟨d, hpending, hpark⟩ | ⟨hpending, ⟨d, queue, hqueue, hpark⟩ | hpark⟩ := h.park_cases
  · have hsome : h.inFlight = d :: h.link.toA.queue := by
      rw [inFlight, hpending]
      rfl
    rw [hpark, hsome]
    exact ⟨rfl, ⟨rfl, rfl⟩, rfl, rfl, fun _ => rfl⟩
  · rw [hpark, inFlight_eq hpending, hqueue]
    exact ⟨rfl, ⟨rfl, rfl⟩, rfl, rfl, fun hnone => by cases hnone⟩
  · have hqueue : h.link.toA.queue = [] := by
      rw [park, hpending] at hpark
      obtain ⟨d, queue, -, hpoll⟩ | ⟨hqueue, -⟩ := h.link.poll_cases
      · rw [hpoll] at hpark
        cases hpark
      · exact hqueue
    have hnone : h.inFlight = [] := (inFlight_eq hpending).trans hqueue
    rw [hpark, hnone]
    exact ⟨rfl, ⟨rfl, rfl⟩, rfl, rfl, fun _ => rfl⟩

lemma look_eq_holding (interest : Signals) (h : MemoryHost) :
    ∃ looked, h.look interest = (h.holding interest, looked) ∧
    h.SameWishes looked ∧ looked.inFlight = h.inFlight ∧ looked.agenda = h.agenda ∧
      ((h.holding interest).isEmpty = true → looked = h) := by
  cases hi : interest.networkData with
  | false =>
    refine ⟨h, ?_, ⟨rfl, rfl⟩, rfl, rfl, fun _ => rfl⟩
    rw [look, holding, hi]
    rfl
  | true =>
    obtain ⟨hfound, hsame, hflight, hagenda, hidle⟩ := h.park_eq
    have hpark : h.park = (!h.inFlight.isEmpty, h.park.2) := Prod.ext hfound rfl
    refine ⟨h.park.2, ?_, hsame, hflight, hagenda,
      fun hnone => hidle (inFlight_of_holding hnone hi)⟩
    rw [look, holding, hi, if_pos rfl, hpark]
    simp only [hsame.outbound, hsame.closeRequested, Bool.true_and]

lemma waitForPeer_of_ready (hn : h.app.pending = none) (hr : h.Ready) (deadline : Option Millis)
    (agenda : List (Millis × PeerAct)) :
    ∃ h', waitForPeer deadline agenda h = some (.ok .network, h') ∧ h'.Ready ∧ h.SameWishes h' := by
  rw [waitForPeer.eq_def]
  dsimp only
  obtain ⟨d, queue, hqueue, hpoll⟩ | ⟨hqueue, hpoll⟩ := h.link.poll_cases
  · rw [hpoll]
    exact ⟨_, rfl, .of_inFlight (List.cons_ne_nil d queue), ⟨rfl, rfl⟩⟩
  · have hclosed := hr ((inFlight_eq hn).trans hqueue)
    rw [hpoll, hclosed, if_neg Bool.false_ne_true]
    exact ⟨_, rfl, fun _ => hclosed, ⟨rfl, rfl⟩⟩

lemma waitForPeer_cases (hn : h.app.pending = none) (deadline : Option Millis)
    (agenda : List (Millis × PeerAct)) :
    (∃ h', waitForPeer deadline agenda h = some (.ok .network, h') ∧ h'.Ready ∧ h.SameWishes h') ∨
      (∃ limit, deadline = some limit ∧
        waitForPeer deadline agenda h = some (.ok .empty, later limit agenda h) ∧
          ¬(later limit agenda h).Ready) ∨
      waitForPeer deadline agenda h = none ∧ deadline = none ∧
        ¬(agenda.foldl (fun h a => h.perform a.2) h).Ready := by
  induction agenda generalizing h deadline with
  | nil =>
    by_cases hr : h.Ready
    · exact .inl (waitForPeer_of_ready hn hr deadline [])
    · right
      have hpoll := poll_of_idle (h := h) (by rwa [← inFlight_eq hn])
      cases deadline with
      | none => exact .inr ⟨by rw [waitForPeer, hpoll], rfl, hr⟩
      | some limit => exact .inl ⟨limit, rfl, by rw [waitForPeer, hpoll, later], hr⟩
  | cons a agenda ih =>
    by_cases hr : h.Ready
    · exact .inl (waitForPeer_of_ready hn hr deadline (a :: agenda))
    · have hpoll := poll_of_idle (h := h) (by rwa [← inFlight_eq hn])
      have hnext : (h.perform a.2).app.pending = none := by rw [app_perform, hn]
      have hsame : h.SameWishes (h.perform a.2) := sameWishes_of_app (app_perform a.2 h)
      cases deadline with
      | none =>
        have hstep : waitForPeer none (a :: agenda) h =
            waitForPeer none agenda (h.perform a.2) := by
          rw [waitForPeer, hpoll]
        rw [hstep, List.foldl_cons]
        obtain ⟨h', hw, hready, hs⟩ | ⟨limit, hlimit, -⟩ | hnever := ih hnext none
        · exact .inl ⟨h', hw, hready, hsame.trans hs⟩
        · cases hlimit
        · exact .inr (.inr hnever)
      | some limit =>
        obtain ⟨delay, act⟩ := a
        by_cases hlate : limit ≤ delay
        · refine .inr (.inl ⟨limit, rfl, ?_, ?_⟩)
          · rw [waitForPeer, hpoll, later, if_pos hlate]
            dsimp only
            rw [if_pos hlate]
          · rw [later, if_pos hlate]
            exact hr
        · have hstep : waitForPeer (some limit) ((delay, act) :: agenda) h =
              waitForPeer (some (limit - delay)) agenda (h.perform act) := by
            rw [waitForPeer, hpoll]
            dsimp only
            rw [if_neg hlate]
          have hlater : later limit ((delay, act) :: agenda) h =
              later (limit - delay) agenda (h.perform act) := by
            rw [later, if_neg hlate]
          rw [hstep]
          obtain ⟨h', hw, hready, hs⟩ | ⟨rest, hrest, hw, hidle⟩ | ⟨-, hnone, -⟩ :=
            ih hnext (some (limit - delay))
          · exact .inl ⟨h', hw, hready, hsame.trans hs⟩
          · cases hrest
            rw [← hlater] at hw hidle
            exact .inr (.inl ⟨limit, rfl, hw, hidle⟩)
          · cases hnone

lemma reports_now (hs : (h.holding interest).isEmpty = false) (deadline : Option Millis)
    (hsame : h.SameWishes h') (hflight : h'.inFlight = h.inFlight)
    (hagenda : h'.agenda = h.agenda) :
    h.Reports interest deadline (h.holding interest) h' where
  within := holding_within interest h
  same := hsame
  appData := by rw [hsame.outbound, appData_holding]
  closeRequested := by rw [hsame.outbound, hsame.closeRequested, closeRequested_holding]
  networkData hi hd := networkData_holding.mpr ⟨hi, hd⟩
  atOnce _ := ⟨rfl, hagenda⟩
  closing hn hnone := absurd (hflight.symm.trans hnone) (networkData_holding.mp hn).2
  prompt hn _ _ hh := by
    have hready : h'.Ready := .of_inFlight (by rw [hflight]; exact (networkData_holding.mp hn).2)
    exact (hready.history hh rfl).receive
  timeout hnone := by
    rw [hnone] at hs
    cases hs

lemma reports_peer (hnone : (h.holding interest).isEmpty = true) (hi : interest.networkData = true)
    {ready : Signals} (hsame : h.SameWishes h') (hready : ready = .network ∧ h'.Ready ∨
      ready = .empty ∧ ∃ limit, deadline = some limit ∧ h' = later limit h.agenda h ∧ ¬h'.Ready) :
    h.Reports interest deadline ready h' := by
  have hempty : h.holding interest = .empty := beq_iff_eq.mp hnone
  have hdata : ¬(interest.appData = true ∧ h'.app.outbound ≠ []) := by
    rw [hsame.outbound, ← appData_holding, hempty]
    exact Bool.false_ne_true
  have hclose : ¬(interest.closeRequested = true ∧ h'.app.closeRequested = true ∧
      h'.app.outbound = []) := by
    rw [hsame.outbound, hsame.closeRequested, ← closeRequested_holding, hempty]
    exact Bool.false_ne_true
  have hnow : (h.holding interest).isEmpty ≠ false := by
    rw [hnone]
    exact Bool.noConfusion
  obtain ⟨rfl, hready⟩ | ⟨rfl, hlimit⟩ := hready
  · refine ⟨?_, hsame, iff_of_false Bool.false_ne_true hdata,
      iff_of_false Bool.false_ne_true hclose, fun _ _ => rfl, fun hs => absurd hs hnow,
      fun _ hdone => ⟨hready hdone, rfl⟩, fun _ _ _ hh => (hready.history hh rfl).receive,
      fun htimeout => ?_⟩
    · simp [Signals.inter, Signals.network, hi]
    · cases htimeout
  · exact ⟨rfl, hsame, iff_of_false Bool.false_ne_true hdata,
      iff_of_false Bool.false_ne_true hclose, fun _ hd => absurd (inFlight_of_holding hnone hi) hd,
      fun hs => absurd hs hnow, fun hn => absurd hn Bool.false_ne_true,
      fun hn => absurd hn Bool.false_ne_true, fun _ => hlimit⟩

/-- A wait is refused exactly when nothing of the interest holds and the link is of no interest, and
any other wait reports, unless nothing is ever to end it. -/
theorem wait_exact (h : MemoryHost) (interest : Signals) (deadline : Option Millis) :
    (interest.networkData = false ∧ (h.holding interest).isEmpty = true ∧
        h.wait interest deadline = some (.error .nothingToWaitFor, h)) ∨
      (interest.networkData = true ∨ (h.holding interest).isEmpty = false) ∧
        ((∃ ready h', h.wait interest deadline = some (.ok ready, h') ∧
          h.Reports interest deadline ready h') ∨
          h.wait interest deadline = none ∧ (h.holding interest).isEmpty = true ∧ deadline = none ∧
            ¬h.finishAgenda.Ready) := by
  obtain ⟨looked, hlook, hsame, hflight, hagenda, hidle⟩ := look_eq_holding interest h
  rw [wait, hlook]
  dsimp only
  cases hnone : (h.holding interest).isEmpty with
  | false =>
    rw [Bool.not_false, if_pos rfl]
    exact .inr ⟨.inr rfl, .inl ⟨_, _, rfl, reports_now hnone deadline hsame hflight hagenda⟩⟩
  | true =>
    obtain rfl : h = looked := (hidle hnone).symm
    rw [Bool.not_true, if_neg Bool.false_ne_true]
    cases hi : interest.networkData with
    | false =>
      rw [Bool.not_false, if_pos rfl]
      exact .inl ⟨rfl, rfl, rfl⟩
    | true =>
      rw [Bool.not_true, if_neg Bool.false_ne_true]
      refine .inr ⟨.inl rfl, ?_⟩
      have hn : h.app.pending = none := pending_of_inFlight (inFlight_of_holding hnone hi)
      obtain ⟨h', hw, hready, hs⟩ | ⟨limit, rfl, hw, hready⟩ | ⟨hw, rfl, hnever⟩ :=
        waitForPeer_cases hn deadline h.agenda
      · exact .inl ⟨_, _, hw, reports_peer hnone hi hs (.inl ⟨rfl, hready⟩)⟩
      · have hs : h.SameWishes (later limit h.agenda h) :=
          sameWishes_of_app (app_later limit h.agenda h)
        exact .inl ⟨_, _, hw, reports_peer hnone hi hs (.inr ⟨rfl, limit, rfl, rfl, hready⟩)⟩
      · exact .inr ⟨hw, rfl, rfl, hnever⟩

end MemoryHost

end DatagramStream
