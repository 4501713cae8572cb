import DatagramStream.Proofs.Steps
import DatagramStream.Udp.Host

/-! What a host on a socket takes for a segment, and what its calls do to the socket. -/

namespace DatagramStream

/-- Of the datagrams that have arrived, those of the peer that say something. -/
def segments (peer : Option SocketAddress) (arrivals : List (SocketAddress × Bytes)) : List Bytes :=
  arrivals.filterMap fun (source, datagram) =>
    if peer = some source ∧ datagram ≠ [] then some datagram else none

section Segments

variable {peer : Option SocketAddress} {source : SocketAddress} {datagram : Bytes}
  {arrivals more : List (SocketAddress × Bytes)}

@[simp] lemma segments_append :
    segments peer (arrivals ++ more) = segments peer arrivals ++ segments peer more :=
  List.filterMap_append

lemma segments_cons (hp : peer = some source) (hd : datagram ≠ []) :
    segments peer ((source, datagram) :: arrivals) = datagram :: segments peer arrivals :=
  List.filterMap_cons_some (if_pos ⟨hp, hd⟩)

lemma segments_cons_noise (hn : peer = some source → datagram = []) :
    segments peer ((source, datagram) :: arrivals) = segments peer arrivals :=
  List.filterMap_cons_none (if_neg fun hs => hs.2 (hn hs.1))

end Segments

namespace UdpHost

def presumedPeer (h : UdpHost) : Option SocketAddress :=
  h.peer.or (h.socket.inbox.head?.map Prod.fst)

def waiting (h : UdpHost) : List Bytes :=
  segments h.presumedPeer h.socket.inbox

variable {h h' : UdpHost} {capacity : Nat}

lemma go_cases (h : UdpHost) (capacity : Nat) (peer : Option SocketAddress)
    (inbox : List (SocketAddress × Bytes)) :
    (receive.go capacity h peer inbox = none ∧
        (0 < capacity → segments (peer.or (inbox.head?.map Prod.fst)) inbox = [])) ∨
      ∃ noise p d rest, inbox = noise ++ (p, d) :: rest ∧
        peer.or (inbox.head?.map Prod.fst) = some p ∧
        segments (some p) noise = [] ∧ d ≠ [] ∧ 0 < capacity ∧ receive.go capacity h peer inbox =
          some (.ok (d.take capacity), { h with peer := some p, socket.inbox := rest }) := by
  -- Whoever sent the first datagram is the peer from there on, if none was known.
  induction inbox generalizing peer with
  | nil => exact .inl ⟨rfl, fun _ => rfl⟩
  | cons first inbox ih =>
    obtain ⟨source, datagram⟩ := first
    have hspeaker : peer.or (some source) = some (peer.getD source) := by
      cases peer <;> rfl
    rw [receive.go, List.head?_cons, Option.map_some, hspeaker]
    generalize peer.getD source = q
    by_cases hskip : source ≠ q ∨ (datagram.take capacity).isEmpty = true
    · have hnoise (hc : 0 < capacity) : some q = some source → datagram = [] := by
        rintro ⟨⟩
        obtain hne | hempty := hskip
        · exact absurd rfl hne
        · exact (List.take_eq_nil_iff.mp (List.isEmpty_iff.mp hempty)).resolve_left
            (Nat.ne_of_gt hc)
      simp only [if_pos hskip]
      obtain ⟨hnone, hrest⟩ | ⟨noise, p, d, rest, rfl, hp, hs, hd, hc, hgo⟩ := ih (some q)
      · exact .inl ⟨hnone, fun hc => (segments_cons_noise (hnoise hc)).trans (hrest hc)⟩
      · obtain rfl : q = p := Option.some.inj hp
        exact .inr ⟨(source, datagram) :: noise, q, d, rest, rfl, rfl,
          (segments_cons_noise (hnoise hc)).trans hs, hd, hc, hgo⟩
    · simp only [if_neg hskip]
      obtain ⟨hsource, hdata⟩ := not_or.mp hskip
      obtain rfl : source = q := not_not.mp hsource
      rw [List.isEmpty_iff, List.take_eq_nil_iff, not_or] at hdata
      exact .inr ⟨[], source, datagram, inbox, rfl, rfl, rfl, hdata.2, Nat.pos_of_ne_zero hdata.1,
        rfl⟩

lemma receive_cases (h : UdpHost) (capacity : Nat) :
    (h.receive capacity = none ∧ (0 < capacity → h.waiting = [])) ∨
      ∃ noise p d rest, h.socket.inbox = noise ++ (p, d) :: rest ∧ h.presumedPeer = some p ∧
        segments (some p) noise = [] ∧ d ≠ [] ∧ 0 < capacity ∧ h.receive capacity =
          some (.ok (d.take capacity), { h with peer := some p, socket.inbox := rest }) :=
  go_cases h capacity h.peer h.socket.inbox

lemma waiting_eq {noise rest : List (SocketAddress × Bytes)} {p : SocketAddress} {d : Bytes}
    (hi : h.socket.inbox = noise ++ (p, d) :: rest) (hp : h.presumedPeer = some p)
    (hn : segments (some p) noise = []) (hd : d ≠ []) :
    h.waiting = d :: segments (some p) rest := by
  rw [waiting, hp, hi, segments_append, hn, segments_cons rfl hd]
  rfl

lemma receive_of_waiting (hw : h.waiting = []) (capacity : Nat) : h.receive capacity = none := by
  obtain ⟨hnone, -⟩ | ⟨noise, p, d, rest, hi, hp, hn, hd, -⟩ := h.receive_cases capacity
  · exact hnone
  · rw [waiting_eq hi hp hn hd] at hw
    cases hw

lemma receive_zero (h : UdpHost) : h.receive 0 = none := by
  obtain ⟨hnone, -⟩ | ⟨noise, p, d, rest, -, -, -, -, hc, -⟩ := h.receive_cases 0
  · exact hnone
  · cases hc

lemma receive_eq_none_iff (hc : 0 < capacity) : h.receive capacity = none ↔ h.waiting = [] := by
  refine ⟨fun hnone => ?_, fun hw => receive_of_waiting hw capacity⟩
  obtain ⟨-, hw⟩ | ⟨noise, p, d, rest, -, -, -, -, -, hr⟩ := h.receive_cases capacity
  · exact hw hc
  · rw [hr] at hnone
    cases hnone

lemma send_cases (header payload : Bytes) (h : UdpHost) :
    (h.peer = none ∧ h.send header payload = (.error .peerUnknown, h)) ∨
      ∃ p, h.peer = some p ∧ ((∃ cause, h.send header payload = (.error cause, h)) ∨
        ∃ answers later, h.send header payload = (.ok (), { h with
          socket.inbox := h.socket.inbox ++ answers
          socket.outbox := (p, header ++ payload) :: h.socket.outbox
          socket.replies := later })) := by
  rw [send]
  cases hp : h.peer with
  | none => exact .inl ⟨rfl, rfl⟩
  | some p =>
    refine .inr ⟨p, rfl, ?_⟩
    cases hc : Socket.carry h.socket.hasRoute (header ++ payload) with
    | error cause => exact .inl ⟨cause, by simp only [Socket.send, hc, Except.map]⟩
    | ok u => exact .inr ⟨_, _, by simp only [Socket.send, hc, Except.map]; rfl⟩

lemma send_refused {header payload : Bytes} {cause : IoError}
    (hs : h.send header payload = (.error cause, h')) :
    h' = h := by
  obtain ⟨-, hunknown⟩ | ⟨p, -, ⟨cause, hfailed⟩ | ⟨answers, later, hsent⟩⟩ :=
    h.send_cases header payload
  · exact congrArg Prod.snd (hs.symm.trans hunknown)
  · exact congrArg Prod.snd (hs.symm.trans hfailed)
  · cases hsent.symm.trans hs

lemma send_ok {header payload : Bytes} (hs : h.send header payload = (.ok (), h')) :
    ∃ p answers later, h.peer = some p ∧ h' = { h with
      socket.inbox := h.socket.inbox ++ answers
      socket.outbox := (p, header ++ payload) :: h.socket.outbox
      socket.replies := later } := by
  obtain ⟨-, hunknown⟩ | ⟨p, hp, ⟨cause, hfailed⟩ | ⟨answers, later, hsent⟩⟩ :=
    h.send_cases header payload
  · cases hunknown.symm.trans hs
  · cases hfailed.symm.trans hs
  · exact ⟨p, answers, later, hp, congrArg Prod.snd (hs.symm.trans hsent)⟩

lemma waiting_send {header payload : Bytes} (hs : h.send header payload = (.ok (), h')) :
    ∃ more, h'.waiting = h.waiting ++ more := by
  obtain ⟨p, answers, later, hp, rfl⟩ := send_ok hs
  refine ⟨segments (some p) answers, ?_⟩
  simp only [waiting, presumedPeer, hp, Option.some_or, segments_append]

structure SameNetwork (h h' : UdpHost) : Prop where
  peer : h'.peer = h.peer
  socket : h'.socket = h.socket

lemma fill_network (h : UdpHost) : h.SameNetwork h.fill.2 := by
  rw [fill]
  split
  · exact ⟨rfl, rfl⟩
  · exact ⟨rfl, rfl⟩

lemma SameNetwork.waiting (hs : h.SameNetwork h') : h'.waiting = h.waiting := by
  rw [UdpHost.waiting, UdpHost.waiting, presumedPeer, presumedPeer, hs.peer, hs.socket]

lemma look_cases (interest : Signals) (h : UdpHost) : h.SameNetwork (h.look interest).2 ∧
    ∀ ready, (h.look interest).1 = .ok ready → ready = (h.look interest).2.known interest := by
  rw [look]
  split_ifs
  · have hfill := h.fill_network
    split
    · next hf =>
      rw [hf] at hfill
      exact ⟨hfill, nofun⟩
    · next hf =>
      rw [hf] at hfill
      exact ⟨hfill, fun ready hr => (Except.ok.inj hr).symm⟩
  · exact ⟨⟨rfl, rfl⟩, fun ready hr => (Except.ok.inj hr).symm⟩

lemma wait_cases {interest : Signals} {deadline : Option Millis} {outcome : Except IoError Signals}
    (hw : h.wait interest deadline = some (outcome, h')) :
    h.SameNetwork h' ∧ ∀ ready, outcome = .ok ready → ready = h'.known interest := by
  obtain ⟨hsame, hknown⟩ := look_cases interest h
  rw [wait] at hw
  split at hw
  · next hlook =>
    cases hw
    rw [hlook] at hsame
    exact ⟨hsame, nofun⟩
  · next hlook =>
    rw [hlook] at hsame hknown
    split_ifs at hw
    · cases hw
      exact ⟨hsame, hknown⟩
    · cases hw
      exact ⟨hsame, nofun⟩

lemma call_cases {events : Trace} (hc : host.Call h events h') :
    (∃ header payload, h.send header payload = (.ok (), h') ∧ events.receipts = [] ∧
        events.datagrams = [header ++ payload]) ∨
      (∃ capacity outcome, h.receive capacity = some (outcome, h') ∧
        events.receipts = [(capacity, outcome)] ∧ events.datagrams = []) ∨
      h.SameNetwork h' ∧ events.receipts = [] ∧ events.datagrams = [] := by
  cases hc with
  | sent header payload hs hr hd => exact .inl ⟨header, payload, hs, hr, hd⟩
  | refused header payload cause hs hr hd =>
    refine .inr (.inr ⟨?_, hr, hd⟩)
    rw [send_refused hs]
    exact ⟨rfl, rfl⟩
  | received capacity outcome hs hr hd => exact .inr (.inl ⟨capacity, outcome, hs, hr, hd⟩)
  | waited interest deadline outcome hw hr hd => exact .inr (.inr ⟨(wait_cases hw).1, hr, hd⟩)
  | read limit hs hr hd | write data hs hr hd =>
    subst hs
    exact .inr (.inr ⟨⟨rfl, rfl⟩, hr, hd⟩)
  | unblock hs hr hd | peerClosed hs hr hd | elsewhere hs hr hd =>
    subst hs
    exact .inr (.inr ⟨⟨rfl, rfl⟩, hr, hd⟩)

end UdpHost

end DatagramStream
