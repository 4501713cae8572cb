import DatagramStream.Proofs.Runs
import DatagramStream.Proofs.Udp.Receiving

/-! What a host on a socket takes for a sign of a segment: anything that has arrived. -/

namespace DatagramStream

lemma Engine.room_of_request {e : Engine} {capacity : Nat} {next : Except IoError Bytes → Engine}
    (h : e.request = .receive capacity next) : 0 < capacity := by
  have hroom : 0 < e.config.receiveCapacity := Nat.succ_pos _
  obtain ⟨config, ctx, thenLoop, point⟩ := e
  cases point with
  | awaitSynAck | awaitSyn | awaitFirstAck | receive =>
    obtain ⟨rfl, -⟩ := Request.receive.inj h
    exact hroom
  | _ => cases h

lemma Machine.waiting_runs {π : Type} {P : Policy π} {m m' : Machine π UdpHost} {t : Trace}
    (hr : m.Runs P UdpHost.host t m') (hn : t.receipts = []) :
    ∃ more, m'.host.waiting = m.host.waiting ++ more := by
  induction hr with
  | refl m => exact ⟨[], (List.append_nil _).symm⟩
  | @step m m₁ m₂ events t hs _ ih =>
    rw [Trace.receipts_append, List.append_eq_nil_iff] at hn
    obtain ⟨more, hmore⟩ := ih hn.2
    obtain ⟨header, payload, hsend, -⟩ | ⟨capacity, outcome, -, hone, -⟩ | ⟨hsame, -⟩ :=
      UdpHost.call_cases (step_call hs)
    · obtain ⟨arrived, hsent⟩ := UdpHost.waiting_send hsend
      exact ⟨arrived ++ more, by rw [hmore, hsent, List.append_assoc]⟩
    · rw [hone] at hn
      cases hn.1
    · exact ⟨more, by rw [hmore, hsame.waiting]⟩

namespace UdpHost

variable {π : Type} {h h' : UdpHost}

/-- The network is reported as soon as anything at all lies in the socket, but the next receive
returns the first segment, and waits on without one. -/
theorem network_reported (P : Policy π) {interest ready : Signals} {deadline : Option Millis}
    (hw : h.wait interest deadline = some (.ok ready, h')) :
    h.SameNetwork h' ∧
      (ready.networkData = true ↔ interest.networkData = true ∧ h'.socket.inbox ≠ []) ∧
      (∀ capacity, 0 < capacity →
        h'.waiting = [] ∧ h'.receive capacity = none ∨
          ∃ d more next, h'.waiting = d :: more ∧ d ≠ [] ∧
            h'.receive capacity = some (.ok (d.take capacity), next) ∧
            next.waiting = more) ∧
      ∀ (m m' : Machine π UdpHost) (t : Trace), m.host = h' → m.Runs P host t m' → t.receipts = [] →
        (∃ more, m'.host.waiting = h'.waiting ++ more) ∧
          ∀ capacity next, m'.engine.request = .receive capacity next →
            (m'.step P host = none ↔ m'.host.waiting = []) := by
  obtain ⟨hsame, hknown⟩ := wait_cases hw
  obtain rfl := hknown ready rfl
  refine ⟨hsame, ?_, fun capacity hc => ?_, ?_⟩
  · simp [known]
  · obtain ⟨hnone, hwaiting⟩ | ⟨noise, p, d, rest, hi, hp, hn, hd, -, hr⟩ :=
      h'.receive_cases capacity
    · exact .inl ⟨hwaiting hc, hnone⟩
    · exact .inr ⟨d, _, _, waiting_eq hi hp hn hd, hd, hr, rfl⟩
  · rintro m m' t rfl hr hn
    refine ⟨Machine.waiting_runs hr hn, fun capacity next hrequest => ?_⟩
    rw [Machine.step, hrequest]
    dsimp only
    rw [Option.map_eq_none_iff]
    exact receive_eq_none_iff (Engine.room_of_request hrequest)

theorem network_reported_amid_noise :
    ∃ h h' : UdpHost, h.wait .all none = some (.ok ⟨true, true, false⟩, h') ∧
      h'.waiting = [[5, 6]] ∧
      (∃ next, h'.receive 8 = some (.ok [5, 6], next) ∧ next.waiting = []) ∧
      ∀ (m m' : Machine Unit UdpHost) (t : Trace), m.host = h' → m.Runs Policy.inert host t m' →
        t.receipts = [] →
        ∀ capacity next, m'.engine.request = .receive capacity next →
          m'.step Policy.inert host ≠ none := by
  let peer : SocketAddress := .loopback 1
  let stranger : SocketAddress := .loopback 2
  let h : UdpHost :=
    { mss := 4, peer := peer, input := { typed := [7] }
      socket := { inbox := [(stranger, [9]), (peer, []), (peer, [5, 6])] } }
  have hw : h.wait .all none = some (.ok ⟨true, true, false⟩, h.fill.2) := rfl
  have hwaiting : h.fill.2.waiting = [[5, 6]] := by decide
  obtain ⟨-, -, hreceive, hruns⟩ := network_reported Policy.inert hw
  refine ⟨h, _, hw, hwaiting, ?_, fun m m' t hm hr hn capacity next hrequest hstuck => ?_⟩
  · obtain ⟨hnone, -⟩ | ⟨d, more, next, hsome, -, hr, hrest⟩ := hreceive 8 (by decide)
    · rw [hwaiting] at hnone
      cases hnone
    · rw [hwaiting] at hsome
      obtain ⟨rfl, rfl⟩ := List.cons.inj hsome
      exact ⟨next, hr, hrest⟩
  · obtain ⟨⟨more, hmore⟩, hstep⟩ := hruns m m' t hm hr hn
    rw [(hstep capacity next hrequest).mp hstuck, hwaiting] at hmore
    cases hmore

/-- A stranger's datagram is reported as well. No receive returns then, and a connection that turns
to it is stuck, although its application has more to say. -/
theorem network_reported_without_segment :
    ∃ h h' : UdpHost, h.wait .network (some 0) = some (.ok .network, h) ∧
      h.wait .all none = some (.ok ⟨true, true, false⟩, h') ∧
        (∀ capacity, h'.receive capacity = none) ∧
      ∃ m : Machine Unit UdpHost,
        m = (Machine.run Policy.inert host 3
            ⟨.loop {} { Context.new 1 with state := .established }, (), h⟩).1 ∧
          m.step Policy.inert host = none ∧ m.engine.result? = none ∧ m.host.input.typed = [8] := by
  let peer : SocketAddress := .loopback 1
  let stranger : SocketAddress := .loopback 2
  let h : UdpHost :=
    { mss := 1, peer := peer, input := { typed := [7, 8] },
      socket := { inbox := [(stranger, [9])] } }
  have hwaiting : h.fill.2.waiting = [] := by decide
  refine ⟨h, _, rfl, rfl, receive_of_waiting hwaiting, _, rfl, ?_, ?_, ?_⟩
  · rfl
  · rfl
  · rfl

end UdpHost

end DatagramStream
