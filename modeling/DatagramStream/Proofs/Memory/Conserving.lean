import DatagramStream.Proofs.Memory.Ending
import Mathlib.Data.List.Forall2

/-! A host in memory neither loses datagrams nor reorders them. -/

namespace DatagramStream

lemma Signals.isEmpty_of_networkData {ready : Signals} (h : ready.networkData = true) :
    ready.isEmpty = false := by
  cases hready : ready.isEmpty with
  | false => rfl
  | true =>
    obtain rfl : ready = .empty := beq_iff_eq.mp hready
    cases h

namespace MemoryHost

def accepted (h : MemoryHost) : PeerAct → List Bytes
  | .send d =>
    match h.link.send .b d with
    | .ok _ => [d]
    | .error _ => []
  | .shutdown | .drop => []

def sends (h : MemoryHost) : List PeerAct → List Bytes
  | [] => []
  | act :: acts => h.accepted act ++ (h.perform act).sends acts

def inFlight (h : MemoryHost) : List Bytes :=
  h.app.pending.toList ++ h.link.toA.queue

structure Exhausted (h : MemoryHost) : Prop where
  received : h.inFlight = []
  closed : h.link.toA.isOpen = false

/-- What has become of a host: what its peer has sent, what it has received into buffers of which
capacity, and how it is now. -/
inductive History (start : MemoryHost) :
    List Bytes → List (Nat × Except IoError Bytes) → MemoryHost → Prop
  | start : History start [] [] start
  | act {sent : List Bytes} {log : List (Nat × Except IoError Bytes)} {h : MemoryHost}
      (act : PeerAct) :
      History start sent log h → History start (sent ++ h.accepted act) log (h.perform act)
  | wait {sent : List Bytes} {log : List (Nat × Except IoError Bytes)} {h h' : MemoryHost}
      {interest : Signals} {deadline : Option Millis} {outcome : Except IoError Signals}
      {meanwhile : List PeerAct} :
      History start sent log h → h.wait interest deadline = some (outcome, h') →
        h.agenda.map Prod.snd = meanwhile ++ h'.agenda.map Prod.snd →
          History start (sent ++ h.sends meanwhile) log h'
  | receive {sent : List Bytes} {log : List (Nat × Except IoError Bytes)} {h h' : MemoryHost}
      {capacity : Nat} {outcome : Except IoError Bytes} {meanwhile : List PeerAct} :
      History start sent log h → h.receive capacity = some (outcome, h') →
        h.agenda.map Prod.snd = meanwhile ++ h'.agenda.map Prod.snd →
          History start (sent ++ h.sends meanwhile) (log ++ [(capacity, outcome)]) h'
  | aside {sent : List Bytes} {log : List (Nat × Except IoError Bytes)} {h : MemoryHost}
      (h' : MemoryHost) :
      History start sent log h → h'.app.pending = h.app.pending → h'.link.toA = h.link.toA →
        History start sent log h'

variable {h h' : MemoryHost} {a : Millis × PeerAct} {agenda : List (Millis × PeerAct)}
  {meanwhile : List PeerAct} {taken : List Bytes}

lemma inFlight_perform (act : PeerAct) (h : MemoryHost) :
    (h.perform act).inFlight = h.inFlight ++ h.accepted act := by
  cases act with
  | shutdown | drop => exact (List.append_nil _).symm
  | send d =>
    rw [accepted, perform, Link.send, Channel.send]
    split_ifs
    · exact (List.append_nil _).symm
    · exact (List.append_nil _).symm
    · exact (List.append_assoc _ _ _).symm

lemma closed_perform (hc : h.link.toA.isOpen = false) (act : PeerAct) :
    (h.perform act).link.toA.isOpen = false ∧ h.accepted act = [] := by
  cases act with
  | shutdown | drop => exact ⟨rfl, rfl⟩
  | send d =>
    rw [accepted, perform, Link.send, Channel.send, hc]
    exact ⟨hc, rfl⟩

lemma sends_of_closed (hc : h.link.toA.isOpen = false) (acts : List PeerAct) :
    h.sends acts = [] := by
  induction acts generalizing h with
  | nil => rfl
  | cons act acts ih =>
    obtain ⟨hclosed, hnone⟩ := closed_perform hc act
    rw [sends, hnone, ih hclosed]
    rfl

structure Passes (agenda : List (Millis × PeerAct)) (h : MemoryHost) (meanwhile : List PeerAct)
    (taken : List Bytes) (h' : MemoryHost) : Prop where
  acts : agenda.map Prod.snd = meanwhile ++ h'.agenda.map Prod.snd
  flight : h.inFlight ++ h.sends meanwhile = taken ++ h'.inFlight
  closed : h.link.toA.isOpen = false → h'.link.toA.isOpen = false

namespace Passes

lemma now (ha : h'.agenda.map Prod.snd = agenda.map Prod.snd)
    (hf : h.inFlight = taken ++ h'.inFlight) (hc : h'.link.toA.isOpen = h.link.toA.isOpen) :
    Passes agenda h [] taken h' := by
  refine ⟨ha.symm, ?_, fun hclosed => hc.trans hclosed⟩
  rw [← hf]
  exact List.append_nil _

lemma later (hp : Passes agenda (h.perform a.2) meanwhile taken h') :
    Passes (a :: agenda) h (a.2 :: meanwhile) taken h' := by
  refine ⟨congrArg (a.2 :: ·) hp.acts, ?_, fun hclosed => hp.closed (closed_perform hclosed a.2).1⟩
  rw [sends, ← List.append_assoc, ← inFlight_perform]
  exact hp.flight

end Passes

lemma inFlight_eq (hn : h.app.pending = none) : h.inFlight = h.link.toA.queue := by
  rw [inFlight, hn]
  rfl

lemma poll_of_idle (hi : ¬(h.link.toA.queue = [] → h.link.toA.isOpen = false)) :
    h.link.poll .a = (.empty, h.link) := by
  obtain ⟨hqueue, hopen⟩ := Classical.not_imp.mp hi
  rw [Bool.not_eq_false] at hopen
  obtain ⟨d, queue, hq, -⟩ | ⟨-, hpoll⟩ := h.link.poll_cases
  · rw [hqueue] at hq
    cases hq
  · rwa [hopen, if_pos rfl] at hpoll

/-! A wait for the peer parks what it finds. -/

lemma waitForPeer_ready {deadline : Option Millis} {outcome : Except IoError Signals}
    (hn : h.app.pending = none) (hi : h.link.toA.queue = [] → h.link.toA.isOpen = false)
    (hw : waitForPeer deadline agenda h = some (outcome, h')) :
    Passes agenda h [] [] h' ∧ (h'.app.pending = none → h'.Exhausted) := by
  have hflight := inFlight_eq hn
  rw [waitForPeer.eq_def] at hw
  dsimp only at hw
  obtain ⟨d, queue, hqueue, hpoll⟩ | ⟨hqueue, hpoll⟩ := h.link.poll_cases
  · rw [hpoll] at hw
    cases hw
    refine ⟨.now rfl (by rw [hflight, hqueue]; rfl) rfl, fun hnone => ?_⟩
    cases hnone
  · rw [hpoll, hi hqueue] at hw
    cases hw
    exact ⟨.now rfl rfl rfl, fun _ => ⟨hflight.trans hqueue, hi hqueue⟩⟩

lemma waitForPeer_passes {deadline : Option Millis} {outcome : Except IoError Signals}
    (hn : h.app.pending = none) (hw : waitForPeer deadline agenda h = some (outcome, h')) :
    (∃ meanwhile, Passes agenda h meanwhile [] h') ∧
      ∀ ready, outcome = .ok ready → ready.networkData = true → h'.app.pending = none →
        h'.Exhausted := by
  induction agenda generalizing h deadline with
  | nil =>
    by_cases hi : h.link.toA.queue = [] → h.link.toA.isOpen = false
    · obtain ⟨hp, hclose⟩ := waitForPeer_ready hn hi hw
      exact ⟨⟨_, hp⟩, fun _ _ _ => hclose⟩
    · rw [waitForPeer.eq_def] at hw
      dsimp only at hw
      rw [poll_of_idle hi] at hw
      cases deadline with
      | none => cases hw
      | some limit =>
        cases hw
        exact ⟨⟨[], .now rfl rfl rfl⟩, by rintro ready ⟨⟩ ⟨⟩⟩
  | cons a agenda ih =>
    by_cases hi : h.link.toA.queue = [] → h.link.toA.isOpen = false
    · obtain ⟨hp, hclose⟩ := waitForPeer_ready hn hi hw
      exact ⟨⟨_, hp⟩, fun _ _ _ => hclose⟩
    · have hnext : (h.perform a.2).app.pending = none := by rw [app_perform, hn]
      rw [waitForPeer.eq_def] at hw
      dsimp only at hw
      rw [poll_of_idle hi] at hw
      cases deadline with
      | none =>
        obtain ⟨⟨meanwhile, hp⟩, hclose⟩ := ih hnext hw
        exact ⟨⟨_, hp.later⟩, hclose⟩
      | some limit =>
        dsimp only at hw
        split_ifs at hw
        · cases hw
          exact ⟨⟨[], .now rfl rfl rfl⟩, by rintro ready ⟨⟩ ⟨⟩⟩
        · obtain ⟨⟨meanwhile, hp⟩, hclose⟩ := ih hnext hw
          exact ⟨⟨_, hp.later⟩, hclose⟩

lemma look_of_deaf {interest : Signals} (hi : interest.networkData = false) :
    (h.look interest).2 = h ∧ (h.look interest).1.networkData = false := by
  rw [look, hi]
  exact ⟨rfl, rfl⟩

lemma wait_passes {interest : Signals} {deadline : Option Millis} {outcome : Except IoError Signals}
    (hw : h.wait interest deadline = some (outcome, h')) :
    (∃ meanwhile, Passes h.agenda h meanwhile [] h') ∧ (h.app.pending.isSome = true → h' = h) ∧
      ∀ ready, outcome = .ok ready → ready.networkData = true → h'.app.pending = none →
        h'.Exhausted := by
  rw [wait] at hw
  cases hi : interest.networkData with
  | false =>
    obtain ⟨hsame, hdeaf⟩ := look_of_deaf (h := h) hi
    generalize h.look interest = looked at *
    obtain ⟨ready, h₁⟩ := looked
    simp only at hsame hdeaf
    subst hsame
    dsimp only at hw
    rw [hi, Bool.not_false, if_pos rfl] at hw
    split_ifs at hw
    · cases hw
      refine ⟨⟨[], .now rfl rfl rfl⟩, fun _ => rfl, ?_⟩
      rintro ready' ⟨⟩ hnetwork
      rw [hdeaf] at hnetwork
      cases hnetwork
    · cases hw
      refine ⟨⟨[], .now rfl rfl rfl⟩, fun _ => rfl, ?_⟩
      rintro ready' ⟨⟩
  | true =>
    obtain ⟨ready, hlook, hnetwork, -⟩ := look_eq (h := h) hi
    rw [hlook] at hw
    dsimp only at hw
    rw [hi, Bool.not_true, if_neg Bool.false_ne_true] at hw
    obtain ⟨d, hpending, hpark⟩ | ⟨hpending, ⟨d, queue, hqueue, hpark⟩ | hpark⟩ := h.park_cases
    · rw [hpark] at hnetwork hw
      rw [Signals.isEmpty_of_networkData hnetwork, Bool.not_false, if_pos rfl] at hw
      cases hw
      refine ⟨⟨[], .now rfl rfl rfl⟩, fun _ => rfl, fun _ _ _ hnone => ?_⟩
      rw [hpending] at hnone
      cases hnone
    · rw [hpark] at hnetwork hw
      rw [Signals.isEmpty_of_networkData hnetwork, Bool.not_false, if_pos rfl] at hw
      cases hw
      refine ⟨⟨[], .now rfl (by rw [inFlight_eq hpending, hqueue]; rfl) rfl⟩, fun hsome => ?_,
        fun _ _ _ hnone => ?_⟩
      · rw [hpending] at hsome
        cases hsome
      · cases hnone
    · rw [hpark] at hnetwork hw
      split_ifs at hw
      · cases hw
        refine ⟨⟨[], .now rfl rfl rfl⟩, fun _ => rfl, ?_⟩
        rintro ready' ⟨⟩ hready
        rw [hnetwork] at hready
        cases hready
      · obtain ⟨hpasses, hclose⟩ := waitForPeer_passes hpending hw
        refine ⟨hpasses, fun hsome => ?_, hclose⟩
        rw [hpending] at hsome
        cases hsome

/-! A receive takes the datagram that has been on its way for longest. -/

lemma receiveFromLink_ready {capacity : Nat} {outcome : Except IoError Bytes}
    (hn : h.app.pending = none) (hi : h.link.toA.queue = [] → h.link.toA.isOpen = false)
    (hr : receiveFromLink capacity agenda h = some (outcome, h')) :
    (∃ d, outcome = .ok (d.take capacity) ∧ Passes agenda h [] [d] h') ∨
      outcome = .ok [] ∧ Passes agenda h [] [] h' ∧ h'.Exhausted := by
  have hflight := inFlight_eq hn
  rw [receiveFromLink.eq_def] at hr
  dsimp only at hr
  obtain ⟨d, queue, hqueue, hpoll⟩ | ⟨hqueue, hpoll⟩ := h.link.poll_cases
  · rw [hpoll] at hr
    cases hr
    refine .inl ⟨d, rfl, .now rfl ?_ rfl⟩
    rw [hflight, hqueue, inFlight, hn]
    rfl
  · rw [hpoll, hi hqueue] at hr
    cases hr
    exact .inr ⟨rfl, .now rfl rfl rfl, hflight.trans hqueue, hi hqueue⟩

lemma receiveFromLink_passes {capacity : Nat} {outcome : Except IoError Bytes}
    (hn : h.app.pending = none) (hr : receiveFromLink capacity agenda h = some (outcome, h')) :
    ∃ meanwhile, (∃ d, outcome = .ok (d.take capacity) ∧ Passes agenda h meanwhile [d] h') ∨
      outcome = .ok [] ∧ Passes agenda h meanwhile [] h' ∧ h'.Exhausted := by
  induction agenda generalizing h with
  | nil =>
    by_cases hi : h.link.toA.queue = [] → h.link.toA.isOpen = false
    · exact ⟨[], receiveFromLink_ready hn hi hr⟩
    · rw [receiveFromLink, poll_of_idle hi] at hr
      cases hr
  | cons a agenda ih =>
    by_cases hi : h.link.toA.queue = [] → h.link.toA.isOpen = false
    · exact ⟨[], receiveFromLink_ready hn hi hr⟩
    · rw [receiveFromLink, poll_of_idle hi] at hr
      obtain ⟨meanwhile, ⟨d, hd, hp⟩ | ⟨hnone, hp, hclose⟩⟩ := ih (by rw [app_perform, hn]) hr
      · exact ⟨a.2 :: meanwhile, .inl ⟨d, hd, hp.later⟩⟩
      · exact ⟨a.2 :: meanwhile, .inr ⟨hnone, hp.later, hclose⟩⟩

lemma receive_passes {capacity : Nat} {outcome : Except IoError Bytes}
    (hr : h.receive capacity = some (outcome, h')) :
    ∃ meanwhile, (∃ d, outcome = .ok (d.take capacity) ∧ Passes h.agenda h meanwhile [d] h') ∨
      outcome = .ok [] ∧ Passes h.agenda h meanwhile [] h' ∧ h'.Exhausted := by
  rw [receive] at hr
  cases hpending : h.app.pending with
  | some d =>
    rw [hpending] at hr
    cases hr
    refine ⟨[], .inl ⟨d, rfl, .now rfl ?_ rfl⟩⟩
    rw [inFlight, hpending]
    rfl
  | none =>
    rw [hpending] at hr
    exact receiveFromLink_passes hpending hr

variable {start : MemoryHost} {sent : List Bytes} {log : List (Nat × Except IoError Bytes)}

/-- Of all that was on its way at first or has been sent since, a part has been received, each
datagram cut to its buffer, and the rest is still on its way. After that, at most the close has been
seen. -/
def Accounts (start : MemoryHost) (sent : List Bytes) (log : List (Nat × Except IoError Bytes))
    (h : MemoryHost) : Prop :=
  ∃ received reads closings, start.inFlight ++ sent = received ++ h.inFlight ∧
    log = reads ++ closings ∧
    List.Forall₂ (fun read d => read.2 = .ok (d.take read.1)) reads received ∧
    (∀ closing ∈ closings, closing.2 = .ok []) ∧ (closings ≠ [] → h.Exhausted)

lemma Exhausted.perform (he : h.Exhausted) (act : PeerAct) : (h.perform act).Exhausted := by
  obtain ⟨hclosed, hnone⟩ := closed_perform he.closed act
  refine ⟨?_, hclosed⟩
  rw [inFlight_perform, he.received, hnone]
  rfl

lemma Exhausted.passes (he : h.Exhausted) (hp : Passes agenda h meanwhile taken h') :
    taken = [] ∧ h'.Exhausted := by
  have hflight := hp.flight
  rw [he.received, sends_of_closed he.closed] at hflight
  obtain ⟨htaken, hrest⟩ := List.append_eq_nil_iff.mp hflight.symm
  exact ⟨htaken, hrest, hp.closed he.closed⟩

namespace Accounts

lemma perform (ha : start.Accounts sent log h) (act : PeerAct) :
    start.Accounts (sent ++ h.accepted act) log (h.perform act) := by
  obtain ⟨received, reads, closings, hflight, hlog, hreads, hclosings, hexhausted⟩ := ha
  refine ⟨received, reads, closings, ?_, hlog, hreads, hclosings,
    fun hsome => (hexhausted hsome).perform act⟩
  rw [inFlight_perform, ← List.append_assoc, hflight, List.append_assoc]

lemma wait (ha : start.Accounts sent log h) (hp : Passes agenda h meanwhile [] h') :
    start.Accounts (sent ++ h.sends meanwhile) log h' := by
  obtain ⟨received, reads, closings, hflight, hlog, hreads, hclosings, hexhausted⟩ := ha
  refine ⟨received, reads, closings, ?_, hlog, hreads, hclosings,
    fun hsome => ((hexhausted hsome).passes hp).2⟩
  rw [← List.append_assoc, hflight, List.append_assoc, hp.flight]
  rfl

lemma take {capacity : Nat} {d : Bytes} (ha : start.Accounts sent log h)
    (hp : Passes agenda h meanwhile [d] h') :
    start.Accounts (sent ++ h.sends meanwhile) (log ++ [(capacity, .ok (d.take capacity))]) h' := by
  obtain ⟨received, reads, closings, hflight, hlog, hreads, hclosings, hexhausted⟩ := ha
  -- Nothing is taken once the close has been seen.
  obtain rfl : closings = [] := by
    by_contra hsome
    cases ((hexhausted hsome).passes hp).1
  refine ⟨received ++ [d], reads ++ [(capacity, .ok (d.take capacity))], [], ?_, ?_, ?_, nofun,
    fun hsome => ?_⟩
  · rw [← List.append_assoc, hflight, List.append_assoc, hp.flight, List.append_assoc]
  · rw [hlog, List.append_nil, List.append_nil]
  · exact List.rel_append hreads (.cons rfl .nil)
  · exact absurd rfl hsome

lemma close (capacity : Nat) (ha : start.Accounts sent log h) (hp : Passes agenda h meanwhile [] h')
    (he : h'.Exhausted) :
    start.Accounts (sent ++ h.sends meanwhile) (log ++ [(capacity, .ok [])]) h' := by
  obtain ⟨received, reads, closings, hflight, rfl, hreads, hclosings, -⟩ := ha.wait hp
  refine ⟨received, reads, closings ++ [(capacity, .ok [])], hflight, List.append_assoc _ _ _,
    hreads, ?_, fun _ => he⟩
  intro closing hc
  obtain hc | hc := List.mem_append.mp hc
  · exact hclosings closing hc
  · rw [List.mem_singleton.mp hc]

lemma aside (ha : start.Accounts sent log h) (hp : h'.app.pending = h.app.pending)
    (hl : h'.link.toA = h.link.toA) : start.Accounts sent log h' := by
  have hsame : h'.inFlight = h.inFlight := by rw [inFlight, inFlight, hp, hl]
  obtain ⟨received, reads, closings, hflight, hlog, hreads, hclosings, hexhausted⟩ := ha
  refine ⟨received, reads, closings, by rw [hsame, hflight], hlog, hreads, hclosings,
    fun hsome => ?_⟩
  obtain ⟨hreceived, hclosed⟩ := hexhausted hsome
  exact ⟨hsame.trans hreceived, by rw [hl, hclosed]⟩

end Accounts

lemma meanwhile_unique {acts : List PeerAct}
    (ha : h.agenda.map Prod.snd = acts ++ h'.agenda.map Prod.snd)
    (hp : Passes h.agenda h meanwhile taken h') : acts = meanwhile :=
  List.append_cancel_right (ha.symm.trans hp.acts)

/-- Each datagram that the peer has sent has been received, cut to the buffer, or is parked, or is
on the link, in the order of sending, and no close is seen before all is received. -/
theorem history_accounts (hh : History start sent log h) :
    start.Accounts sent log h ∧
      ∀ interest deadline outcome h', h.wait interest deadline = some (outcome, h') →
        (h.app.pending.isSome = true → h' = h) ∧
          ∀ ready, outcome = .ok ready → ready.networkData = true → h'.app.pending = none →
            h'.Exhausted := by
  refine ⟨?_, fun interest deadline outcome h' hw => (wait_passes hw).2⟩
  induction hh with
  | start => exact ⟨[], [], [], by simp, rfl, .nil, nofun, fun hsome => absurd rfl hsome⟩
  | act act _ ih => exact ih.perform act
  | wait _ hw hacts ih =>
    obtain ⟨⟨meanwhile, hp⟩, -⟩ := wait_passes hw
    obtain rfl := meanwhile_unique hacts hp
    exact ih.wait hp
  | receive _ hr hacts ih =>
    obtain ⟨meanwhile, ⟨d, rfl, hp⟩ | ⟨rfl, hp, he⟩⟩ := receive_passes hr
    · obtain rfl := meanwhile_unique hacts hp
      exact ih.take hp
    · obtain rfl := meanwhile_unique hacts hp
      exact ih.close _ hp he
  | aside h' _ hpending hlink ih => exact ih.aside hpending hlink

theorem history_accounts_parked :
    ∃ h, History {} [[1, 2, 3], [4]] [(2, .ok [1, 2]), (9, .ok [4]), (9, .ok [])] h ∧ h.Exhausted ∧
      Accounts {} [[1, 2, 3], [4]] [(2, .ok [1, 2]), (9, .ok [4]), (9, .ok [])] h ∧
      ∀ interest deadline outcome h', h.wait interest deadline = some (outcome, h') →
        (h.app.pending.isSome = true → h' = h) ∧
          ∀ ready, outcome = .ok ready → ready.networkData = true → h'.app.pending = none →
            h'.Exhausted := by
  let sent : MemoryHost := perform (.send [1, 2, 3]) {}
  let parked : MemoryHost := sent.hold [1, 2, 3] []
  let both : MemoryHost := parked.perform (.send [4])
  let cut : MemoryHost := { both with app.pending := none }
  let empty : MemoryHost := cut.withQueue []
  let leaving : MemoryHost := { empty with agenda := [(3, .shutdown)] }
  have hwait : sent.wait .network (some 5) = some (.ok .network, parked) := rfl
  have hfirst : both.receive 2 = some (.ok [1, 2], cut) := rfl
  have hsecond : cut.receive 9 = some (.ok [4], empty) := rfl
  have hclose : leaving.receive 9 = some (.ok [], empty.perform .shutdown) := rfl
  have hparked := (History.start.act (.send [1, 2, 3])).wait hwait (List.nil_append _).symm
  have hreceived :=
    ((hparked.act (.send [4])).receive hfirst (List.nil_append _).symm).receive hsecond
      (List.nil_append _).symm
  have hclosed :=
    (hreceived.aside leaving rfl rfl).receive hclose (List.append_nil [PeerAct.shutdown]).symm
  exact ⟨_, hclosed, ⟨rfl, rfl⟩, history_accounts hclosed⟩

end MemoryHost

end DatagramStream
