import DatagramStream.Proofs.Runs
import DatagramStream.Proofs.Udp.Receiving
import Mathlib.Data.List.Forall2

/-! A host on a socket has one peer, and neither loses nor repeats any of its segments. -/

namespace DatagramStream

namespace UdpHost

/-- What has become of a host: what has arrived at its socket, what it has received into buffers of
which capacity, what it has sent, and how it is now. -/
inductive History (start : UdpHost) : List (SocketAddress × Bytes) →
    List (Nat × Except IoError Bytes) → List Bytes → UdpHost → Prop
  | start : History start [] [] [] start
  | arrive {arrived : List (SocketAddress × Bytes)} {log : List (Nat × Except IoError Bytes)}
      {posted : List Bytes} {h : UdpHost} (datagrams : List (SocketAddress × Bytes)) :
      History start arrived log posted h →
      History start (arrived ++ datagrams) log posted (h.arrived datagrams)
  | receive {arrived : List (SocketAddress × Bytes)} {log : List (Nat × Except IoError Bytes)}
      {posted : List Bytes} {h h' : UdpHost} {capacity : Nat} {outcome : Except IoError Bytes} :
      History start arrived log posted h → h.receive capacity = some (outcome, h') →
        History start arrived (log ++ [(capacity, outcome)]) posted h'
  | send {arrived answers : List (SocketAddress × Bytes)} {log : List (Nat × Except IoError Bytes)}
      {posted : List Bytes} {h h' : UdpHost} {header payload : Bytes} :
      History start arrived log posted h → h.send header payload = (.ok (), h') →
        h'.socket.inbox = h.socket.inbox ++ answers →
          History start (arrived ++ answers) log (posted ++ [header ++ payload]) h'
  | refused {arrived : List (SocketAddress × Bytes)} {log : List (Nat × Except IoError Bytes)}
      {posted : List Bytes} {h h' : UdpHost} {header payload : Bytes} {cause : IoError} :
      History start arrived log posted h → h.send header payload = (.error cause, h') →
        History start arrived log posted h'
  | aside {arrived : List (SocketAddress × Bytes)} {log : List (Nat × Except IoError Bytes)}
      {posted : List Bytes} {h : UdpHost} (h' : UdpHost) :
      History start arrived log posted h → h.SameNetwork h' → History start arrived log posted h'

/-- What has been taken off the socket says who the peer is and what has been received. -/
structure Accounts (start : UdpHost) (arrived : List (SocketAddress × Bytes))
    (log : List (Nat × Except IoError Bytes)) (posted : List Bytes) (h : UdpHost)
    (taken : List (SocketAddress × Bytes)) : Prop where
  conserved : start.socket.inbox ++ arrived = taken ++ h.socket.inbox
  peer : h.peer = start.peer.or (taken.head?.map Prod.fst)
  received : List.Forall₂ (fun call d => call.2 = .ok (d.take call.1)) log (segments h.peer taken)
  sent : ∃ out, h.socket.outbox = out ++ start.socket.outbox ∧ out.reverse.map Prod.snd = posted ∧
    ∀ o ∈ out, h.peer = some o.1

variable {start h h' : UdpHost} {arrived taken : List (SocketAddress × Bytes)}
  {log : List (Nat × Except IoError Bytes)} {posted : List Bytes}

lemma peer_eq {p : SocketAddress} (hp : h.presumedPeer = some p) (hk : h.peer ≠ none) :
    h.peer = some p := by
  rw [UdpHost.presumedPeer] at hp
  cases hpeer : h.peer with
  | none => exact absurd hpeer hk
  | some q => rwa [hpeer] at hp

namespace Accounts

lemma presumedPeer (ha : start.Accounts arrived log posted h taken) :
    h.presumedPeer = start.peer.or ((taken ++ h.socket.inbox).head?.map Prod.fst) := by
  rw [UdpHost.presumedPeer, ha.peer, List.head?_append, Option.or_assoc, Option.map_or]

lemma segments_taken {p : SocketAddress} (ha : start.Accounts arrived log posted h taken)
    (hp : h.presumedPeer = some p) : segments (some p) taken = segments h.peer taken := by
  cases taken with
  | nil => rfl
  | cons first taken =>
    have hknown : h.peer ≠ none := by
      rw [ha.peer]
      cases start.peer with
      | none => exact nofun
      | some q => exact nofun
    rw [peer_eq hp hknown]

lemma receive {capacity : Nat} {outcome : Except IoError Bytes}
    (ha : start.Accounts arrived log posted h taken)
    (hr : h.receive capacity = some (outcome, h')) :
    ∃ taken, start.Accounts arrived (log ++ [(capacity, outcome)]) posted h' taken := by
  obtain ⟨hnone, -⟩ | ⟨noise, p, d, rest, hi, hp, hn, hd, -, hreceive⟩ := h.receive_cases capacity
  · rw [hnone] at hr
    cases hr
  · cases hreceive.symm.trans hr
    obtain ⟨out, hout, hposted, hpeer⟩ := ha.sent
    refine ⟨taken ++ (noise ++ [(p, d)]), ?_, ?_, ?_, out, hout, hposted, fun o ho => ?_⟩
    · rw [ha.conserved, hi]
      simp only [List.append_assoc, List.singleton_append]
    · rw [← hp, ha.presumedPeer, hi]
      simp only [List.head?_append, List.head?_cons, Option.or_some]
    · have hreceived :
          segments (some p) (taken ++ (noise ++ [(p, d)])) = segments h.peer taken ++ [d] := by
        rw [segments_append, segments_append, hn, segments_cons rfl hd, ha.segments_taken hp]
        rfl
      rw [hreceived]
      exact List.rel_append ha.received (.cons rfl .nil)
    · -- Nothing is sent before the peer is known, so it does not become another one here.
      have hknown := hpeer o ho
      rw [← peer_eq hp (by rw [hknown]; exact nofun), hknown]

lemma send {answers : List (SocketAddress × Bytes)} {header payload : Bytes}
    (ha : start.Accounts arrived log posted h taken) (hs : h.send header payload = (.ok (), h'))
    (hi : h'.socket.inbox = h.socket.inbox ++ answers) :
    start.Accounts (arrived ++ answers) log (posted ++ [header ++ payload]) h' taken := by
  obtain ⟨p, told, later, hp, rfl⟩ := send_ok hs
  obtain rfl : answers = told := (List.append_cancel_left hi).symm
  obtain ⟨out, hout, hposted, hpeer⟩ := ha.sent
  refine ⟨?_, ha.peer, ha.received, (p, header ++ payload) :: out, ?_, ?_, ?_⟩
  · rw [← List.append_assoc, ha.conserved, List.append_assoc]
  · rw [hout, List.cons_append]
  · rw [List.reverse_cons, List.map_append, hposted]
    rfl
  · rintro o (_ | ⟨_, ho⟩)
    · exact hp
    · exact hpeer o ho

lemma aside (ha : start.Accounts arrived log posted h taken) (hs : h.SameNetwork h') :
    start.Accounts arrived log posted h' taken := by
  obtain ⟨hconserved, hpeer, hreceived, hsent⟩ := ha
  rw [← hs.socket] at hconserved hsent
  rw [← hs.peer] at hpeer hreceived hsent
  exact ⟨hconserved, hpeer, hreceived, hsent⟩

end Accounts

lemma History.accounts (hh : History start arrived log posted h) :
    ∃ taken, start.Accounts arrived log posted h taken := by
  induction hh with
  | start => exact ⟨[], by simp, by simp, .nil, [], rfl, rfl, nofun⟩
  | arrive datagrams _ ih =>
    obtain ⟨taken, hconserved, hpeer, hreceived, hsent⟩ := ih
    refine ⟨taken, ?_, hpeer, hreceived, hsent⟩
    rw [← List.append_assoc, hconserved, List.append_assoc]
    rfl
  | receive _ hr ih =>
    obtain ⟨taken, ha⟩ := ih
    exact ha.receive hr
  | send _ hs hi ih =>
    obtain ⟨taken, ha⟩ := ih
    exact ⟨taken, ha.send hs hi⟩
  | refused _ hs ih =>
    rw [send_refused hs]
    exact ih
  | aside h' _ hs ih =>
    obtain ⟨taken, ha⟩ := ih
    exact ⟨taken, ha.aside hs⟩

lemma History.runs {π : Type} {P : Policy π} {m m' : Machine π UdpHost} {t : Trace}
    (hr : m.Runs P host t m') (hh : History start arrived log posted m.host) :
    ∃ answers,
      History start (arrived ++ answers) (log ++ t.receipts) (posted ++ t.datagrams) m'.host := by
  induction hr generalizing arrived log posted with
  | refl m => exact ⟨[], by simpa [Trace.receipts, Trace.datagrams] using hh⟩
  | @step m m₁ m₂ events t hs _ ih =>
    rw [Trace.receipts_append, Trace.datagrams_append, ← List.append_assoc, ← List.append_assoc]
    obtain ⟨header, payload, hsend, hreceipts, hdatagrams⟩ |
      ⟨capacity, outcome, hreceive, hreceipts, hdatagrams⟩ |
      ⟨hsame, hreceipts, hdatagrams⟩ := call_cases (Machine.step_call hs)
    · rw [hreceipts, hdatagrams, List.append_nil]
      obtain ⟨p, answers, later, -, hsent⟩ := send_ok hsend
      obtain ⟨more, hrest⟩ := ih (hh.send hsend (congrArg (fun h => h.socket.inbox) hsent))
      rw [List.append_assoc] at hrest
      exact ⟨answers ++ more, hrest⟩
    · rw [hreceipts, hdatagrams, List.append_nil]
      exact ih (hh.receive hreceive)
    · rw [hreceipts, hdatagrams, List.append_nil, List.append_nil]
      exact ih (hh.aside _ hsame)

/-- The peer is the configured one or the source of the first datagram taken off the socket; what
has been received is what it has sent, in the order of arrival and cut to the buffers, and all that
went out went to it. -/
theorem one_peer (hh : History start arrived log posted h) :
    (∃ taken, start.Accounts arrived log posted h taken) ∧
      (∀ capacity, h.receive capacity = none ↔ capacity = 0 ∨ h.waiting = []) ∧
      (∀ header payload,
        (h.peer = none → ∃ cause, cause.kind = .notConnected ∧
          h.send header payload = (.error cause, h)) ∧
        (∀ cause h', h.send header payload = (.error cause, h') → h' = h) ∧
        ∀ h', h.send header payload = (.ok (), h') → ∃ p, h.peer = some p ∧ h'.peer = some p ∧
          h'.socket.outbox = (p, header ++ payload) :: h.socket.outbox) ∧
      ∀ (π : Type) (P : Policy π) (m m' : Machine π UdpHost) (t : Trace), m.host = h →
        m.Runs P host t m' →
          ∃ answers, History start (arrived ++ answers) (log ++ t.receipts) (posted ++ t.datagrams)
            m'.host := by
  refine ⟨hh.accounts, fun capacity => ?_, fun header payload => ?_, ?_⟩
  · cases capacity with
    | zero => exact iff_of_true h.receive_zero (.inl rfl)
    | succ room => rw [receive_eq_none_iff room.succ_pos, or_iff_right room.succ_ne_zero]
  · refine ⟨fun hnone => ?_, fun cause h' hs => send_refused hs, fun h' hs => ?_⟩
    · obtain ⟨-, hunknown⟩ | ⟨p, hp, -⟩ := h.send_cases header payload
      · exact ⟨_, rfl, hunknown⟩
      · rw [hp] at hnone
        cases hnone
    · obtain ⟨p, answers, later, hp, rfl⟩ := send_ok hs
      exact ⟨p, hp, hp, rfl⟩
  · rintro π P m m' t rfl hr
    exact hh.runs hr

theorem one_peer_learned :
    ∃ (peer stranger : SocketAddress) (arrived : List (SocketAddress × Bytes)) (h : UdpHost),
      arrived = [(peer, []), (stranger, [9]), (peer, [1, 2, 3])] ∧ peer ≠ stranger ∧
        History { mss := 4 } arrived [(2, .ok [1, 2])] [[5, 6]] h ∧ h.peer = some peer ∧
          h.socket.outbox = [(peer, [5, 6])] ∧ h.receive 8 = none ∧
            ∃ taken, Accounts { mss := 4 } arrived [(2, .ok [1, 2])] [[5, 6]] h taken := by
  let peer : SocketAddress := .loopback 1
  let stranger : SocketAddress := .loopback 2
  let listening : UdpHost := { mss := 4 }
  have hrefused : listening.send [5] [6] = (.error .peerUnknown, listening) := rfl
  have harrived :=
    (History.start.refused hrefused).arrive [(peer, []), (stranger, [9]), (peer, [1, 2, 3])]
  let learned : UdpHost := { mss := 4, peer := peer }
  have hcut : (listening.arrived [(peer, []), (stranger, [9]), (peer, [1, 2, 3])]).receive 2 =
      some (.ok [1, 2], learned) := rfl
  have hanswered :
      learned.send [5] [6] = (.ok (), { learned with socket.outbox := [(peer, [5, 6])] }) := rfl
  have hsent := (harrived.receive hcut).send hanswered (List.append_nil []).symm
  obtain ⟨haccounts, hreceive, -⟩ := one_peer hsent
  exact ⟨peer, stranger, _, _, rfl, by decide, hsent, rfl, rfl, (hreceive 8).mpr (.inr rfl),
    haccounts⟩

end UdpHost

end DatagramStream
