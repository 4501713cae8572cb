import DatagramStream.Proofs.Memory.Serving

/-! A host in memory whose peer will shut its end of the link down, or drop it: whatever is asked of
it, it answers, and what it hands out it does not have any more. -/

namespace DatagramStream

def PeerAct.isClosing : PeerAct → Bool
  | send _ => false
  | shutdown | drop => true

lemma Link.poll_cases (l : Link) :
    (∃ d queue, l.toA.queue = d :: queue ∧
        l.poll .a = (.datagram d, { l with toA := { l.toA with queue := queue } })) ∨
      l.toA.queue = [] ∧ l.poll .a = (if l.toA.isOpen then .empty else .closed, l) := by
  obtain ⟨⟨queue, isOpen, hasReceiver⟩, toB⟩ := l
  cases queue with
  | nil => exact .inr ⟨rfl, rfl⟩
  | cons d queue => exact .inl ⟨d, queue, rfl, rfl⟩

namespace MemoryHost

variable {h h' : MemoryHost} {drops : Bool} {a : Millis × PeerAct}
  {agenda more : List (Millis × PeerAct)}

def supply (h : MemoryHost) : Nat :=
  h.app.outbound.length + h.app.pending.toList.length + h.link.toA.queue.length + h.agenda.length

def peerGone (h : MemoryHost) : Bool :=
  !h.link.toB.hasReceiver

structure Ends (drops : Bool) (h : MemoryHost) : Prop where
  sending : h.link.toB.isOpen = true
  gone : h.peerGone = true → drops = true
  drops : ∀ a ∈ h.agenda, a.2 = .drop → drops = true
  closes : h.link.toA.isOpen = true → ∃ a ∈ h.agenda, a.2.isClosing = true

structure Spends (drops : Bool) (n : Nat) (h h' : MemoryHost) : Prop where
  ends : h'.Ends drops
  supply : h'.supply + n ≤ h.supply
  gone : h.peerGone = true → h'.peerGone = true

lemma Ends.spends (hE : h.Ends drops) : h.Spends drops 0 h :=
  ⟨hE, Nat.le_refl _, id⟩

lemma Spends.mono {n k : Nat} (hs : h.Spends drops n h') (hk : k ≤ n) : h.Spends drops k h' :=
  ⟨hs.ends, Nat.le_trans (Nat.add_le_add_left hk _) hs.supply, hs.gone⟩

lemma Spends.trans {h'' : MemoryHost} {n k : Nat} (hs : h.Spends drops n h')
    (hs' : h'.Spends drops k h'') :
    h.Spends drops (n + k) h'' := by
  have hsupply := hs.supply
  have hsupply' := hs'.supply
  exact ⟨hs'.ends, by omega, fun hgone => hs'.gone (hs.gone hgone)⟩

def withQueue (queue : List Bytes) (h : MemoryHost) : MemoryHost :=
  { h with link := { h.link with toA := { h.link.toA with queue := queue } } }

lemma perform_withAgenda (act : PeerAct) (h : MemoryHost) (agenda : List (Millis × PeerAct)) :
    perform act { h with agenda := agenda } = { h.perform act with agenda := agenda } := by
  cases act <;> rfl

lemma perform_send_cases (d : Bytes) (h : MemoryHost) :
    h.perform (.send d) = h ∨ h.perform (.send d) = h.withQueue (h.link.toA.queue ++ [d]) := by
  rw [perform, Link.send, Channel.send]
  split_ifs
  · exact .inl rfl
  · exact .inl rfl
  · exact .inr rfl

lemma supply_advance (ha : h.agenda = a :: more) :
    supply { h.perform a.2 with agenda := more } ≤ h.supply := by
  obtain ⟨delay, act⟩ := a
  simp only [supply, ha, List.length_cons, app_perform]
  cases act with
  | send d =>
    rcases perform_send_cases d h with hp | hp
    · rw [hp]
      omega
    · simp only [hp, withQueue, List.length_append, List.length_singleton]
      omega
  | shutdown | drop => exact Nat.le_succ _

lemma Ends.advance (hE : h.Ends drops) (ha : h.agenda = a :: more) :
    h.Spends drops 0 { h.perform a.2 with agenda := more } := by
  have hsupply := supply_advance ha
  obtain ⟨delay, act⟩ := a
  obtain ⟨hsending, hgone, hdrops, hcloses⟩ := hE
  rw [ha] at hdrops hcloses
  have hmore : ∀ b ∈ more, b.2 = .drop → drops = true :=
    fun b hb => hdrops b (List.mem_cons_of_mem _ hb)
  cases act with
  | send d =>
    have hlater (hopen : h.link.toA.isOpen = true) : ∃ b ∈ more, b.2.isClosing = true := by
      obtain ⟨b, hb, hclosing⟩ := hcloses hopen
      rcases List.mem_cons.mp hb with rfl | hb
      · cases hclosing
      · exact ⟨b, hb, hclosing⟩
    rcases perform_send_cases d h with hp | hp
    · rw [hp] at hsupply ⊢
      exact ⟨⟨hsending, hgone, hmore, hlater⟩, hsupply, id⟩
    · rw [hp] at hsupply ⊢
      exact ⟨⟨hsending, hgone, hmore, hlater⟩, hsupply, id⟩
  | shutdown => exact ⟨⟨hsending, hgone, hmore, fun hopen => by cases hopen⟩, hsupply, id⟩
  | drop =>
    exact ⟨⟨hsending, fun _ => hdrops _ List.mem_cons_self rfl, hmore, fun hopen => by cases hopen⟩,
      hsupply, fun _ => rfl⟩

def hold (d : Bytes) (queue : List Bytes) (h : MemoryHost) : MemoryHost :=
  { h.withQueue queue with app.pending := some d }

structure Told (agenda : List (Millis × PeerAct)) (h h' : MemoryHost) : Prop where
  app : h'.app = h.app
  found : (∃ d queue, h'.link.toA.queue = d :: queue ∧
      (∀ capacity,
        receiveFromLink capacity agenda h = some (.ok (d.take capacity), h'.withQueue queue)) ∧
      waitForPeer none agenda h = some (.ok .network, h'.hold d queue)) ∨
    (∀ capacity, receiveFromLink capacity agenda h = some (.ok [], h')) ∧
      waitForPeer none agenda h = some (.ok .network, h')

lemma told_now (agenda : List (Millis × PeerAct)) (h : MemoryHost)
    (hn : h.link.toA.queue = [] → h.link.toA.isOpen = false) :
    Told agenda h { h with agenda := agenda } := by
  refine ⟨rfl, ?_⟩
  obtain ⟨d, queue, hqueue, hpoll⟩ | ⟨hqueue, hpoll⟩ := h.link.poll_cases
  · refine .inl ⟨d, queue, hqueue, fun capacity => ?_, ?_⟩
    · cases agenda <;> rw [receiveFromLink, hpoll] <;> rfl
    · cases agenda <;> rw [waitForPeer, hpoll] <;> rfl
  · rw [hn hqueue, if_neg Bool.false_ne_true] at hpoll
    refine .inr ⟨fun capacity => ?_, ?_⟩
    · cases agenda <;> rw [receiveFromLink, hpoll]
    · cases agenda <;> rw [waitForPeer, hpoll]

lemma Told.later (hqueue : h.link.toA.queue = []) (hopen : h.link.toA.isOpen = true)
    (ht : Told agenda (h.perform a.2) h') : Told (a :: agenda) h h' := by
  have hpoll : h.link.poll .a = (.empty, h.link) := by
    obtain ⟨d, queue, hq, -⟩ | ⟨-, hpoll⟩ := h.link.poll_cases
    · rw [hqueue] at hq
      cases hq
    · rwa [hopen, if_pos rfl] at hpoll
  have hreceive (capacity : Nat) : receiveFromLink capacity (a :: agenda) h =
      receiveFromLink capacity agenda (h.perform a.2) := by
    rw [receiveFromLink, hpoll]
  have hwait : waitForPeer none (a :: agenda) h = waitForPeer none agenda (h.perform a.2) := by
    rw [waitForPeer, hpoll]
  obtain ⟨happ, hfound⟩ := ht
  simp only [← hreceive, ← hwait] at hfound
  exact ⟨happ.trans (app_perform a.2 h), hfound⟩

lemma exists_told (agenda : List (Millis × PeerAct)) (hE : Ends drops { h with agenda := agenda }) :
    ∃ h', Told agenda h h' ∧ Spends drops 0 { h with agenda := agenda } h' := by
  -- On an empty link that is open, the peer is still to act: at the latest, it closes.
  induction agenda generalizing h with
  | nil =>
    refine ⟨{ h with agenda := [] }, told_now [] h fun _ => ?_, hE.spends⟩
    by_contra hopen
    obtain ⟨a, ha, -⟩ := hE.closes (by simpa using hopen)
    cases ha
  | cons a agenda ih =>
    by_cases hn : h.link.toA.queue = [] → h.link.toA.isOpen = false
    · exact ⟨{ h with agenda := a :: agenda }, told_now (a :: agenda) h hn, hE.spends⟩
    · obtain ⟨hqueue, hopen⟩ := Classical.not_imp.mp hn
      rw [Bool.not_eq_false] at hopen
      have hnext := hE.advance rfl
      simp only [perform_withAgenda] at hnext
      obtain ⟨h', ht, hs⟩ := ih hnext.ends
      exact ⟨h', ht.later hqueue hopen, hnext.trans hs⟩

lemma supply_withQueue {d : Bytes} {queue : List Bytes} (hqueue : h.link.toA.queue = d :: queue) :
    (h.withQueue queue).supply + 1 = h.supply := by
  simp only [supply, withQueue, hqueue, List.length_cons]
  omega

lemma Ends.exists_receive (hE : h.Ends drops) (capacity : Nat) :
    ∃ d h', h.receive capacity = some (.ok d, h') ∧ h.Spends drops (min d.length 1) h' := by
  rw [receive]
  cases hpending : h.app.pending with
  | some d =>
    refine ⟨_, _, rfl, ⟨hE.sending, hE.gone, hE.drops, hE.closes⟩, ?_, id⟩
    simp only [supply, hpending, Option.toList_some, Option.toList_none, List.length_singleton,
      List.length_nil]
    omega
  | none =>
    obtain ⟨h', ⟨-, hfound⟩, hs⟩ := exists_told h.agenda hE
    obtain ⟨d, queue, hqueue, hreceive, -⟩ | ⟨hreceive, -⟩ := hfound
    · have htake : h'.Spends drops 1 (h'.withQueue queue) :=
        ⟨⟨hs.ends.sending, hs.ends.gone, hs.ends.drops, hs.ends.closes⟩,
          Nat.le_of_eq (supply_withQueue hqueue), id⟩
      exact ⟨_, _, hreceive capacity, (hs.trans htake).mono (by omega)⟩
    · exact ⟨_, _, hreceive capacity, hs⟩

lemma Ends.exists_read {limit : Nat} (hE : h.Ends drops) (hlimit : 0 < limit)
    (hstaged : h.app.outbound ≠ []) :
    ∃ data h', h.read limit = (.ok data, h') ∧ data ≠ [] ∧ h.Spends drops 1 h' := by
  have hlength := List.length_pos_iff.mpr hstaged
  refine ⟨_, _, rfl, ?_, ⟨hE.sending, hE.gone, hE.drops, hE.closes⟩, ?_, id⟩
  · rw [← List.length_pos_iff, List.length_take]
    exact Nat.lt_min.mpr ⟨hlimit, hlength⟩
  · simp only [supply, List.length_drop]
    omega

lemma park_cases (h : MemoryHost) :
    (∃ d, h.app.pending = some d ∧ h.park = (true, h)) ∨
      h.app.pending = none ∧
        ((∃ d queue, h.link.toA.queue = d :: queue ∧ h.park = (true, h.hold d queue)) ∨
          h.park = (false, h)) := by
  rw [park]
  cases hpending : h.app.pending with
  | some d => exact .inl ⟨d, rfl, rfl⟩
  | none =>
    right
    obtain ⟨d, queue, hqueue, hpoll⟩ | ⟨-, hpoll⟩ := h.link.poll_cases
    · rw [hpoll]
      exact ⟨rfl, .inl ⟨d, queue, hqueue, rfl⟩⟩
    · rw [hpoll]
      split_ifs <;> exact ⟨rfl, .inr rfl⟩

lemma Ends.hold {d : Bytes} {queue : List Bytes} (hE : h.Ends drops)
    (hpending : h.app.pending = none) (hqueue : h.link.toA.queue = d :: queue) :
    h.Spends drops 0 (h.hold d queue) := by
  refine ⟨⟨hE.sending, hE.gone, hE.drops, hE.closes⟩, ?_, id⟩
  simp only [supply, MemoryHost.hold, withQueue, hpending, hqueue, Option.toList_some,
    Option.toList_none, List.length_cons, List.length_nil]
  omega

lemma Ends.park (hE : h.Ends drops) : h.Spends drops 0 h.park.2 ∧
    (h.park.1 = false → h.park.2 = h ∧ h.app.pending = none) := by
  obtain ⟨d, -, hpark⟩ | ⟨hpending, ⟨d, queue, hqueue, hpark⟩ | hpark⟩ := h.park_cases
  · rw [hpark]
    exact ⟨hE.spends, fun hn => by cases hn⟩
  · rw [hpark]
    exact ⟨hE.hold hpending hqueue, fun hn => by cases hn⟩
  · rw [hpark]
    exact ⟨hE.spends, fun _ => ⟨rfl, hpending⟩⟩

lemma look_eq {interest : Signals} (hn : interest.networkData = true) :
    ∃ ready, h.look interest = (ready, h.park.2) ∧ ready.networkData = h.park.1 ∧
      ready.inter interest = ready ∧
      (ready.appData = true → h.park.2.app.outbound ≠ []) := by
  refine ⟨_, by rw [look, if_pos hn], rfl, ?_, fun ha => ?_⟩
  · obtain ⟨appData, networkData, closeRequested⟩ := interest
    obtain rfl : networkData = true := hn
    simp only [Signals.inter, Bool.and_true]
    cases appData <;> cases closeRequested <;> simp
  · simp only [Bool.and_eq_true, Bool.not_eq_true', List.isEmpty_eq_false_iff] at ha
    exact ha.2

lemma Ends.exists_wait {interest : Signals} (hE : h.Ends drops) (hn : interest.networkData = true) :
    ∃ ready h', h.wait interest none = some (.ok ready, h') ∧ h.Spends drops 0 h' ∧
      (ready.inter interest).isEmpty = false ∧ (ready.appData = true → h'.app.outbound ≠ []) := by
  obtain ⟨ready, hlook, hnetwork, hinter, hstaged⟩ := look_eq (h := h) hn
  obtain ⟨hs, hidle⟩ := hE.park
  rw [wait, hlook]
  dsimp only
  cases hnone : ready.isEmpty with
  | false => exact ⟨ready, h.park.2, rfl, hs, by rwa [hinter], hstaged⟩
  | true =>
    obtain rfl : ready = .empty := beq_iff_eq.mp hnone
    obtain ⟨hpark, hpending⟩ := hidle hnetwork.symm
    obtain ⟨h', ⟨happ, hfound⟩, hs⟩ := exists_told h.agenda hE
    have hsome : (Signals.network.inter interest).isEmpty = false := by
      simp [Signals.inter, Signals.network, hn, Signals.isEmpty, Signals.empty]
    rw [hpark, hn]
    obtain ⟨d, queue, hqueue, -, hwait⟩ | ⟨-, hwait⟩ := hfound
    · have hhold := hs.ends.hold (by rw [happ, hpending]) hqueue
      exact ⟨.network, h'.hold d queue, hwait, hs.trans hhold, hsome, fun ha => by cases ha⟩
    · exact ⟨.network, h', hwait, hs, hsome, fun ha => by cases ha⟩

lemma Ends.send_cases (hE : h.Ends drops) (header payload : Bytes) :
    (∃ h', h.send header payload = (.ok (), h') ∧ h.Spends drops 0 h') ∨
      h.send header payload = (.error .peerDropped, h) ∧ h.peerGone = true := by
  have hsend : h.link.send .a (header ++ payload) =
      (h.link.toB.send (header ++ payload)).map fun c => { h.link with toB := c } := rfl
  rw [MemoryHost.send, hsend, Channel.send, hE.sending]
  cases hreceiver : h.link.toB.hasReceiver with
  | true =>
    refine .inl ⟨_, rfl, ⟨rfl, fun hgone => (by cases hgone), hE.drops, hE.closes⟩, Nat.le_refl _,
      fun hgone => ?_⟩
    rw [peerGone, hreceiver] at hgone
    cases hgone
  | false => exact .inr ⟨rfl, by rw [peerGone, hreceiver]; rfl⟩

end MemoryHost

end DatagramStream
