import DatagramStream.Memory.Host
import DatagramStream.Proofs.Steps

/-! What a host in memory leaves of the staged bytes and of the datagrams on their way to it, and
when it reports an event. -/

namespace DatagramStream

structure Signals.Unhurried (rest : Signals) (a : MemoryApp) : Prop where
  networkData : rest.networkData = true → a.pending.isSome = true ∨ a.outbound = []
  closeRequested : rest.closeRequested = true → a.outbound = []

namespace Signals.Unhurried

variable {rest : Signals} {a a' : MemoryApp}

lemma inter (h : rest.Unhurried a) (interest : Signals) : (rest.inter interest).Unhurried a := by
  simp only [Signals.inter]
  refine ⟨fun hn => ?_, fun hc => ?_⟩
  · exact h.networkData (Bool.and_eq_true_iff.mp hn).1
  · exact h.closeRequested (Bool.and_eq_true_iff.mp hc).1

lemma keep (h : rest.Unhurried a) (ho : a.outbound = [] → a'.outbound = [])
    (hp : rest.networkData = true → a'.pending = a.pending) : rest.Unhurried a' := by
  refine ⟨fun hn => ?_, fun hc => ho (h.closeRequested hc)⟩
  rcases h.networkData hn with hsome | hnone
  · exact .inl (by rwa [hp hn])
  · exact .inr (ho hnone)

end Signals.Unhurried

def PeerAct.Filled : PeerAct → Prop
  | send datagram => datagram ≠ []
  | shutdown | drop => True

namespace MemoryHost

structure Filled (h : MemoryHost) : Prop where
  pending : ∀ d ∈ h.app.pending, d ≠ []
  queue : ∀ d ∈ h.link.toA.queue, d ≠ []
  agenda : ∀ a ∈ h.agenda, a.2.Filled

variable {h h' : MemoryHost} {act : PeerAct} {agenda : List (Millis × PeerAct)}

@[simp] lemma app_perform (act : PeerAct) (h : MemoryHost) : (h.perform act).app = h.app := by
  cases act <;> rfl

lemma Filled.perform (hf : h.Filled) (ha : act.Filled) : (h.perform act).Filled := by
  obtain ⟨hpending, hqueue, hagenda⟩ := hf
  cases act with
  | shutdown | drop => exact ⟨hpending, hqueue, hagenda⟩
  | send datagram =>
    refine ⟨hpending, ?_, hagenda⟩
    intro d hd
    rw [MemoryHost.perform, Link.send, Channel.send] at hd
    split_ifs at hd
    · exact hqueue d hd
    · exact hqueue d hd
    · rcases List.mem_append.mp hd with hd | hd
      · exact hqueue d hd
      · rwa [List.mem_singleton.mp hd]

lemma Filled.poll {found : Channel.Polled} {link : Link} (hf : h.Filled)
    (hp : h.link.poll .a = (found, link)) :
    (∀ d ∈ link.toA.queue, d ≠ []) ∧ ∀ d, found = .datagram d → d ≠ [] := by
  rw [Link.poll, Channel.poll] at hp
  have hqueue := hf.queue
  cases hq : h.link.toA.queue with
  | nil =>
    simp only [hq, Prod.mk.injEq] at hp
    obtain ⟨rfl, rfl⟩ := hp
    refine ⟨hqueue, fun d hd => ?_⟩
    split_ifs at hd
  | cons x queue =>
    rw [hq] at hqueue
    simp only [hq, Prod.mk.injEq] at hp
    obtain ⟨rfl, rfl⟩ := hp
    refine ⟨fun d hd => hqueue d (List.mem_cons_of_mem x hd), fun d hd => ?_⟩
    cases hd
    exact hqueue x List.mem_cons_self

lemma receiveFromLink_keeps {capacity : Nat} {outcome : Except IoError Bytes} (hf : h.Filled)
    (ha : ∀ a ∈ agenda, a.2.Filled) (hr : receiveFromLink capacity agenda h = some (outcome, h')) :
    h'.Filled ∧ h'.app = h.app := by
  induction agenda generalizing h with
  | nil =>
    rw [receiveFromLink] at hr
    split at hr
    · rename_i d link hp
      cases hr
      exact ⟨⟨hf.pending, (hf.poll hp).1, ha⟩, rfl⟩
    · cases hr
      exact ⟨⟨hf.pending, hf.queue, ha⟩, rfl⟩
    · cases hr
  | cons a agenda ih =>
    rw [receiveFromLink] at hr
    split at hr
    · rename_i d link hp
      cases hr
      exact ⟨⟨hf.pending, (hf.poll hp).1, ha⟩, rfl⟩
    · cases hr
      exact ⟨⟨hf.pending, hf.queue, ha⟩, rfl⟩
    · obtain ⟨hfilled, happ⟩ := ih (hf.perform (ha a List.mem_cons_self))
        (fun b hb => ha b (List.mem_cons_of_mem a hb)) hr
      exact ⟨hfilled, happ.trans (app_perform a.2 h)⟩

lemma receive_keeps {capacity : Nat} {outcome : Except IoError Bytes} (hf : h.Filled)
    (hr : h.receive capacity = some (outcome, h')) :
    h'.Filled ∧ h'.app.outbound = h.app.outbound ∧
      (0 < capacity → outcome = .ok [] → h.app.pending = none) := by
  rw [receive] at hr
  split at hr
  · rename_i d hp
    cases hr
    refine ⟨⟨by simp, hf.queue, hf.agenda⟩, rfl, fun hc hnone => ?_⟩
    have hd : d ≠ [] := hf.pending d hp
    cases d with
    | nil => exact absurd rfl hd
    | cons x d =>
      cases capacity with
      | zero => cases hc
      | succ capacity => cases hnone
  · rename_i hp
    obtain ⟨hfilled, happ⟩ := receiveFromLink_keeps hf hf.agenda hr
    exact ⟨hfilled, by rw [happ], fun _ _ => hp⟩

lemma Filled.parked {d : Bytes} {link : Link} (hf : h.Filled) (ha : ∀ a ∈ agenda, a.2.Filled)
    (hp : h.link.poll .a = (.datagram d, link)) :
    Filled { h with link := link, app.pending := some d, agenda := agenda } := by
  obtain ⟨hqueue, hd⟩ := hf.poll hp
  refine ⟨?_, hqueue, ha⟩
  intro x hx
  obtain rfl := Option.some.inj hx
  exact hd d rfl

lemma park_keeps (hf : h.Filled) : h.park.2.Filled ∧ h.park.2.app.outbound = h.app.outbound ∧
    (h.park.1 = true → h.park.2.app.pending.isSome = true) := by
  rw [park]
  split
  · rename_i d hp
    exact ⟨hf, rfl, fun _ => by rw [hp]; rfl⟩
  · split
    · rename_i d link hp
      exact ⟨hf.parked hf.agenda hp, rfl, fun _ => rfl⟩
    · exact ⟨hf, rfl, fun hready => by cases hready⟩

lemma waitForPeer_keeps {outcome : Except IoError Signals} (hf : h.Filled)
    (ha : ∀ a ∈ agenda, a.2.Filled) (hw : waitForPeer none agenda h = some (outcome, h')) :
    h'.Filled ∧ h'.app.outbound = h.app.outbound ∧ outcome = .ok .network := by
  induction agenda generalizing h with
  | nil =>
    rw [waitForPeer] at hw
    split at hw
    · rename_i d link hp
      cases hw
      exact ⟨hf.parked ha hp, rfl, rfl⟩
    · cases hw
      exact ⟨⟨hf.pending, hf.queue, ha⟩, rfl, rfl⟩
    · cases hw
  | cons a agenda ih =>
    rw [waitForPeer] at hw
    split at hw
    · rename_i d link hp
      cases hw
      exact ⟨hf.parked ha hp, rfl, rfl⟩
    · cases hw
      exact ⟨⟨hf.pending, hf.queue, ha⟩, rfl, rfl⟩
    · obtain ⟨hfilled, hout, hnetwork⟩ := ih (hf.perform (ha a List.mem_cons_self))
        (fun b hb => ha b (List.mem_cons_of_mem a hb)) hw
      rw [app_perform] at hout
      exact ⟨hfilled, hout, hnetwork⟩

lemma look_keeps (hf : h.Filled) (interest : Signals) :
    (h.look interest).2.Filled ∧ (h.look interest).2.app.outbound = h.app.outbound ∧
      (h.look interest).1.Unhurried (h.look interest).2.app ∧
      ((h.look interest).1.isEmpty = true → interest.appData = true → h.app.outbound = []) := by
  obtain ⟨network, h₁, hfound, hfilled, hout, hpending⟩ : ∃ network h₁,
      (if interest.networkData then h.park else (false, h)) = (network, h₁) ∧ h₁.Filled ∧
        h₁.app.outbound = h.app.outbound ∧ (network = true → h₁.app.pending.isSome = true) := by
    split_ifs
    · exact ⟨_, _, rfl, park_keeps hf⟩
    · exact ⟨false, h, rfl, hf, rfl, fun hready => by cases hready⟩
  rw [look, hfound]
  refine ⟨hfilled, hout, ⟨fun hn => .inl (hpending hn), fun hc => ?_⟩, fun hnone ha => ?_⟩
  · simp only [Bool.and_eq_true, List.isEmpty_iff] at hc
    exact hc.2
  · rw [← hout]
    simpa [Signals.isEmpty, Signals.empty, ha] using (Signals.mk.inj (beq_iff_eq.mp hnone)).1

lemma wait_keeps {interest : Signals} {outcome : Except IoError Signals} (hf : h.Filled)
    (hw : h.wait interest none = some (outcome, h')) :
    h'.Filled ∧ h'.app.outbound = h.app.outbound ∧
      ((interest.appData = true ∨ h.app.outbound = []) →
        ∀ ready, outcome = .ok ready → ready.Unhurried h'.app) := by
  obtain ⟨hfilled, hout, hready, hidle⟩ := look_keeps hf interest
  rw [wait] at hw
  generalize h.look interest = looked at *
  obtain ⟨ready, h₁⟩ := looked
  simp only at *
  split_ifs at hw with hsome hnet
  · cases hw
    exact ⟨hfilled, hout, fun _ ready' hr => by cases hr; exact hready⟩
  · cases hw
    exact ⟨hfilled, hout, fun _ ready' hr => by cases hr⟩
  · obtain ⟨hfilled, hout', rfl⟩ := waitForPeer_keeps hfilled hfilled.agenda hw
    refine ⟨hfilled, hout'.trans hout, fun hi ready' hr => ?_⟩
    have hnone : h.app.outbound = [] := by
      rcases hi with hi | hnone
      · exact hidle (by simpa using hsome) hi
      · exact hnone
    cases hr
    exact ⟨fun _ => .inr (by rw [hout', hout, hnone]), fun hc => by cases hc⟩

def Serves (h : MemoryHost) (events : List Event) (h' : MemoryHost) : Prop :=
  match events with
  | [.receive capacity outcome] => h.receive capacity = some (outcome, h')
  | [.read limit outcome] => h.read limit = (outcome, h')
  | [.wait interest deadline outcome] => deadline = none ∧ h.wait interest none = some (outcome, h')
  | _ =>
    Trace.read events = [] ∧ h'.app.pending = h.app.pending ∧ h'.app.outbound = h.app.outbound ∧
      h'.link.toA = h.link.toA ∧ h'.agenda = h.agenda

variable {events : List Event}

lemma send_keeps (header payload : Bytes) (h : MemoryHost) :
    (h.send header payload).2.app = h.app ∧ (h.send header payload).2.link.toA = h.link.toA ∧
      (h.send header payload).2.agenda = h.agenda := by
  rw [send, Link.send]
  cases h.link.toB.send (header ++ payload) <;> exact ⟨rfl, rfl, rfl⟩

lemma Serves.filled (hs : h.Serves events h') (hf : h.Filled) : h'.Filled := by
  unfold Serves at hs
  split at hs
  · exact (receive_keeps hf hs).1
  · cases hs
    exact ⟨hf.pending, hf.queue, hf.agenda⟩
  · exact (wait_keeps hf hs.2).1
  · obtain ⟨-, hp, -, hl, ha⟩ := hs
    exact ⟨by rw [hp]; exact hf.pending, by rw [hl]; exact hf.queue, by rw [ha]; exact hf.agenda⟩

lemma Serves.outbound (hs : h.Serves events h') (hf : h.Filled) :
    h.app.outbound = Trace.read events ++ h'.app.outbound := by
  unfold Serves at hs
  split at hs
  · exact (receive_keeps hf hs).2.1.symm
  · rename_i limit outcome
    cases hs
    rw [Trace.read, List.flatMap_singleton, Event.readBytes, List.take_append_drop]
  · exact (wait_keeps hf hs.2).2.1.symm
  · obtain ⟨hr, -, ho, -⟩ := hs
    rw [hr, ho, List.nil_append]

end MemoryHost

lemma Machine.serves {m m' : Machine Unit MemoryHost} {events : List Event}
    (h : m.step .inert MemoryHost.host = some (m', events)) : m.host.Serves events m'.host := by
  obtain ⟨engine, policy, host⟩ := m
  rw [step] at h
  have sent (header payload : Bytes) := MemoryHost.send_keeps header payload host
  cases hr : engine.request with
  | transmit s next =>
    obtain ⟨happ, hlink, hagenda⟩ := sent s.header.encode s.payload
    rw [hr] at h
    cases ho : (MemoryHost.host.send s.header.encode s.payload host).1 with
    | ok u =>
      simp only [ho, Option.some.injEq, Prod.mk.injEq] at h
      obtain ⟨rfl, rfl⟩ := h
      exact ⟨rfl, congrArg MemoryApp.pending happ, congrArg MemoryApp.outbound happ, hlink, hagenda⟩
    | error cause =>
      simp only [ho, Option.some.injEq, Prod.mk.injEq] at h
      obtain ⟨rfl, rfl⟩ := h
      exact ⟨rfl, congrArg MemoryApp.pending happ, congrArg MemoryApp.outbound happ, hlink, hagenda⟩
  | resend header payload next =>
    obtain ⟨happ, hlink, hagenda⟩ := sent header payload
    simp only [hr, Option.some.injEq, Prod.mk.injEq] at h
    obtain ⟨rfl, rfl⟩ := h
    exact ⟨rfl, congrArg MemoryApp.pending happ, congrArg MemoryApp.outbound happ, hlink, hagenda⟩
  | receive capacity next =>
    simp only [hr, Option.map_eq_some_iff, Prod.mk.injEq] at h
    obtain ⟨⟨outcome, h'⟩, hs, rfl, rfl⟩ := h
    exact hs
  | wait interest next =>
    simp only [hr, Option.map_eq_some_iff, Prod.mk.injEq] at h
    obtain ⟨⟨outcome, h'⟩, hs, rfl, rfl⟩ := h
    exact ⟨rfl, hs⟩
  | read limit next =>
    simp only [hr, Option.some.injEq, Prod.mk.injEq] at h
    obtain ⟨rfl, rfl⟩ := h
    rfl
  | write data next | unblock next | peerClosed next | noteAck ack next | collectDue next =>
    simp only [hr, Option.some.injEq, Prod.mk.injEq] at h
    obtain ⟨rfl, rfl⟩ := h
    exact ⟨rfl, rfl, rfl, rfl, rfl⟩
  | finished result => simp [hr] at h

end DatagramStream
