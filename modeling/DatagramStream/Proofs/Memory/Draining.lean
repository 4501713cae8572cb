import DatagramStream.Proofs.Memory.Serving
import DatagramStream.Proofs.Session.Numbering
import DatagramStream.Proofs.Session.Teardown

/-! On a host in memory, a connection sends all that is staged before it closes and before it takes
notice of a link that has closed. -/

namespace DatagramStream

structure Cut (size : Nat) (b : Bytes) (pieces : List Bytes) : Prop where
  joined : pieces.flatten = b
  some : ∀ p ∈ pieces, p ≠ []
  short : ∀ p ∈ pieces, p.length ≤ size
  full : ∀ p ∈ pieces.dropLast, p.length = size

namespace Cut

variable {size : Nat} {b : Bytes} {pieces : List Bytes}

lemma nil : Cut size [] [] :=
  ⟨rfl, by simp, by simp, by simp⟩

lemma cons (h : Cut size (b.drop size) pieces) (hs : 0 < size) (hb : b ≠ []) :
    Cut size b (b.take size :: pieces) := by
  have hfirst : (b.take size).length = min size b.length := List.length_take
  have hlength : 0 < b.length := List.length_pos_iff.mpr hb
  refine ⟨?_, ?_, ?_, ?_⟩
  · rw [List.flatten_cons, h.joined, List.take_append_drop]
  · intro p hp
    rcases List.mem_cons.mp hp with rfl | hp
    · apply List.length_pos_iff.mp
      omega
    · exact h.some p hp
  · intro p hp
    rcases List.mem_cons.mp hp with rfl | hp
    · omega
    · exact h.short p hp
  · intro p hp
    cases pieces with
    | nil => cases hp
    | cons q more =>
      rw [List.dropLast_cons_cons] at hp
      rcases List.mem_cons.mp hp with rfl | hp
      · -- More is left after the first piece.
        have hrest : b.drop size ≠ [] := by
          intro hnone
          have hjoined := h.joined
          rw [hnone, List.flatten_cons, List.append_eq_nil_iff] at hjoined
          exact h.some q List.mem_cons_self hjoined.1
        have hlong : size < b.length := by
          by_contra hshort
          exact hrest (List.drop_eq_nil_of_le (by omega))
        omega
      · exact h.full p hp

end Cut

namespace Trace

def pieces (t : Trace) : List Bytes :=
  (t.map Event.sentBytes).filter fun payload => !payload.isEmpty

variable {t u : Trace}

@[simp] lemma pieces_append (t u : Trace) : pieces (t ++ u) = pieces t ++ pieces u := by
  simp [pieces]

lemma flatten_pieces (t : Trace) : t.pieces.flatten = t.sent := by
  rw [sent, List.flatMap_def, pieces]
  induction t.map Event.sentBytes with
  | nil => rfl
  | cons payload more ih =>
    cases payload with
    | nil => simpa using ih
    | cons x payload => simp [ih]

lemma pieces_transmitted (g : Segment) :
    pieces g.transmitted = if g.payload = [] then [] else [g.payload] := by
  cases hp : g.payload <;> simp [pieces, Segment.transmitted, Event.sentBytes, hp]

end Trace

def Owed.pieces (o : Owed) : List Bytes :=
  if o.bytes = [] then [] else [o.bytes]

namespace Engine

variable {e e' : Engine} {t : Trace} {events : List Event} {staged : Bytes} {h h' : MemoryHost}

def Unhurried (e : Engine) (a : MemoryApp) : Prop :=
  match e.point with
  | .read rest | .sendData _ rest | .noteAck _ rest | .ackFin rest => rest.Unhurried a
  | .tellPeerClosed rest | .deliver _ rest | .ackData rest => rest.Unhurried a
  | .receive rest => (a.pending.isSome = true ∨ a.outbound = []) ∧ rest.Unhurried a
  | .sendFin | .ended (.ok ()) | .ended (.error .channelClosed) => a.outbound = []
  | _ => True

variable {a : MemoryApp} {rest : Signals}

lemma unhurried_react (h : rest.Unhurried a) : (e.react rest).Unhurried a := by
  rw [react]
  split_ifs with ha hn hc
  · exact ⟨h.networkData, h.closeRequested⟩
  · exact ⟨h.networkData hn, ⟨fun hf => (by cases hf), h.closeRequested⟩⟩
  · exact h.closeRequested hc.1
  · exact trivial

lemma unhurried_onContent {g : Segment} (h : rest.Unhurried a) :
    (e.onContent g rest).Unhurried a := by
  rw [onContent]
  split_ifs
  · exact h
  · exact h
  · exact unhurried_react h

lemma unhurried_onSegment {g : Segment} (h : rest.Unhurried a) :
    (e.onSegment g rest).Unhurried a := by
  rw [onSegment]
  split_ifs
  · exact h
  · exact unhurried_onContent h

lemma unhurried_onFinAnswered (h : rest.Unhurried a) : (e.onFinAnswered rest).Unhurried a := by
  rw [onFinAnswered]
  split_ifs
  · exact unhurried_react h
  · exact h

lemma unhurried_resending (hd : e.ctx.done = true → a.outbound = []) (datagrams : List Bytes) :
    (e.resending datagrams).Unhurried a := by
  cases datagrams with
  | nil =>
    rw [resending, turn]
    split_ifs with hdone
    · exact hd hdone
    · exact trivial
  | cons datagram more => exact trivial

lemma unhurried_step (hu : e.Unhurried h.app) (hs : e.Sound) (hf : h.Filled)
    (hclosed : e.ctx.state.finSent = true → h.app.outbound = []) (he : e.Step events e')
    (hv : h.Serves events h') : e'.Unhurried h'.app := by
  have shrinks (hn : h.app.outbound = []) : h'.app.outbound = [] := by
    have hout := hv.outbound hf
    rw [hn] at hout
    exact (List.append_eq_nil_iff.mp hout.symm).2
  have emptied (hl : e.ctx.Linked e.config.teardown) (hd : e.ctx.done = true) :
      h'.app.outbound = [] := by
    apply shrinks (hclosed _)
    rw [State.finSent_eq, State.finAcked_of_isOver (hl.done.symm.trans hd), Bool.or_true]
  cases hs.loopStep he with
  | wait e deadline ready =>
    obtain ⟨-, hw⟩ := hv
    have hi : e.interest.appData = true ∨ h.app.outbound = [] := by
      cases hc : e.ctx.state.canSend with
      | true =>
        left
        rw [interest, if_pos hc]
        rfl
      | false => exact .inr (hclosed (hs.coherent.1.finSent_of_not_canSend hc))
    have hready := (MemoryHost.wait_keeps hf hw).2.2 hi ready rfl
    exact unhurried_react (hready.inter _)
  | readNone | readSome =>
    have hrest := Signals.Unhurried.keep hu shrinks fun _ => by rw [← (Prod.mk.inj hv).2]
    first | exact unhurried_react hrest | exact hrest
  | drop e rest some bad =>
    obtain ⟨-, -, hnone⟩ := hs.coherent
    exact unhurried_react (hu.2.keep shrinks fun hn => absurd hn (by simp [hnone]))
  | hear e rest good =>
    obtain ⟨-, -, hnone⟩ := hs.coherent
    exact unhurried_onSegment (hu.2.keep shrinks fun hn => absurd hn (by simp [hnone]))
  | sendData | ackData | tellPeerClosed =>
    exact unhurried_react (Signals.Unhurried.keep hu shrinks fun _ => hv.2.1)
  | noteAck => exact unhurried_onContent (Signals.Unhurried.keep hu shrinks fun _ => hv.2.1)
  | ackFin => exact unhurried_onFinAnswered (Signals.Unhurried.keep hu shrinks fun _ => hv.2.1)
  | deliver => exact Signals.Unhurried.keep hu shrinks fun _ => hv.2.1
  | refuse => exact trivial
  | sendFin e => exact ⟨.inr (shrinks hu), ⟨fun hn => (by cases hn), fun hc => (by cases hc)⟩⟩
  | collectDue | resend => exact unhurried_resending (emptied hs.coherent) _
  | @fail e p c cause may failure =>
    obtain ⟨-, io, -, rfl⟩ | ⟨rest, rfl, rfl⟩ := failure_cases may failure he
    · exact trivial
    · have hnone : h.app.pending = none :=
        (MemoryHost.receive_keeps hf hv).2.2
          (Nat.zero_lt_of_lt e.config.headerLength_lt_receiveCapacity) rfl
      have hempty : h.app.outbound = [] := hu.1.resolve_left (by simp [hnone])
      cases cause <;> first | exact shrinks hempty | exact trivial

lemma pieces_step (hs : e.Sound) (hl : e.Loaded) (he : e.Step events e') :
    (∃ payload, payload ≠ [] ∧ events = [.read e.config.payloadLimit (.ok payload)] ∧
      e.owed.pieces = [] ∧ e'.owed.pieces = [payload]) ∨
    (Trace.read events = [] ∧ Trace.pieces events ++ e'.owed.pieces = e.owed.pieces) ∨
    ∃ io, e'.result? = some (.error (.io io)) := by
  cases hs.loopStep he with
  | @readSome e rest payload some =>
    exact .inl ⟨payload, some, rfl, rfl, by simp [Owed.pieces, owed, goto, some]⟩
  | wait | readNone | drop | tellPeerClosed => exact .inr (.inl ⟨rfl, by rw [owed_react]; rfl⟩)
  | ackData => exact .inr (.inl ⟨rfl, by rw [owed_react, Trace.pieces_transmitted]; rfl⟩)
  | sendData e payload rest =>
    refine .inr (.inl ⟨rfl, ?_⟩)
    rw [owed_react, Trace.pieces_transmitted]
    exact List.append_nil _
  | hear => exact .inr (.inl ⟨rfl, by rw [owed_onSegment]; rfl⟩)
  | noteAck => exact .inr (.inl ⟨rfl, by rw [owed_onContent]; rfl⟩)
  | ackFin e rest =>
    have hnone : (e.onFinAnswered rest).owed.pieces = [] := if_pos (bytes_onFinAnswered e rest)
    exact .inr (.inl ⟨rfl, by rw [hnone, Trace.pieces_transmitted]; rfl⟩)
  | sendFin => exact .inr (.inl ⟨rfl, by rw [Trace.pieces_transmitted]; rfl⟩)
  | deliver => exact .inr (.inl ⟨rfl, rfl⟩)
  | refuse e payload rest cause => exact .inr (.inr ⟨cause, rfl⟩)
  | collectDue | resend => exact .inr (.inl ⟨rfl, by rw [owed_resending]; rfl⟩)
  | @fail e p c cause may failure =>
    obtain ⟨-, io, -, rfl⟩ | ⟨rest, rfl, rfl⟩ := failure_cases may failure he
    · exact .inr (.inr ⟨io, rfl⟩)
    · exact .inr (.inl ⟨rfl, rfl⟩)

lemma LoopStep.of_fin (he : e.LoopStep events e') (hf : 0 < Trace.finsSent events) :
    e.point = .sendFin ∧ events = (e.stamp .finOnly []).transmitted := by
  cases he with
  | sendFin => exact ⟨rfl, rfl⟩
  | sendData | ackData | ackFin =>
    rw [← Trace.length_fins, Trace.fins_transmitted_of_other (plain_stamp _ _ _) rfl] at hf
    cases hf
  | @fail e p c cause may failure =>
    rw [← Trace.length_fins, Trace.fins_of_failure failure] at hf
    cases hf
  | _ => cases hf

structure Drains (staged : Bytes) (t : Trace) (e : Engine) (h : MemoryHost) : Prop where
  filled : h.Filled
  loaded : e.Loaded
  unhurried : e.Unhurried h.app
  closed : e.ctx.state.finSent = true → h.app.outbound = []
  sent : e.ctx.sent = t.sent.length
  cut : (∀ io, e.result? ≠ some (.error (.io io))) → ∀ more,
    Cut e.config.payloadLimit h.app.outbound more →
      Cut e.config.payloadLimit staged (t.pieces ++ e.owed.pieces ++ more)
  fins : t.Each fun before c => c.sendsFin = true → Cut e.config.payloadLimit staged before.pieces

namespace Drains

lemma outbound_of_fin (hd : e.Drains staged t h) (hp : e.point = .sendFin) :
    h.app.outbound = [] := by
  have hu := hd.unhurried
  rw [Unhurried, hp] at hu
  exact hu

lemma each_step (hd : e.Drains staged t h) (he : e.LoopStep events e') :
    (t ++ events).Each fun before c =>
      c.sendsFin = true → Cut e.config.payloadLimit staged before.pieces := by
  rcases Nat.eq_zero_or_pos (Trace.finsSent events) with hn | hf
  · apply hd.fins.append
    intro before c hc hfin
    exact absurd hfin (List.countP_eq_zero.mp hn c hc)
  · obtain ⟨hp, rfl⟩ := he.of_fin hf
    have hcut := hd.cut (by simp [result?, hp]) [] (by rw [hd.outbound_of_fin hp]; exact .nil)
    rw [Owed.pieces, owed, hp] at hcut
    exact hd.fins.transmitted (fun _ => by simpa using hcut) (fun hfin => by cases hfin)

lemma step (hd : e.Drains staged t h) (hs : e.Sound) (hc : 0 < e.config.payloadLimit)
    (he : e.Step events e') (hv : h.Serves events h') : e'.Drains staged (t ++ events) h' := by
  have hl := hs.loopStep he
  have hout := hv.outbound hd.filled
  have hconfig := config_eq hl.fixed
  have hunfailed : ∀ io, e.result? ≠ some (.error (.io io)) := by
    intro io hr
    exact stage_ne_finished he (stage_of_result (by rw [hr]; rfl))
  refine ⟨hv.filled hd.filled, hl.loaded, unhurried_step hd.unhurried hs hd.filled hd.closed he hv,
    fun hsent => ?_, ?_, fun hok more hmore => ?_, ?_⟩
  · have hnone : h.app.outbound = [] := by
      rcases Nat.eq_zero_or_pos (Trace.finsSent events) with hn | hf
      · exact hd.closed ((finSent_of_finless hs.coherent he hn).symm.trans hsent)
      · exact hd.outbound_of_fin (hl.of_fin hf).1
    rw [hnone] at hout
    exact (List.append_eq_nil_iff.mp hout.symm).2
  · rw [hl.sent, hd.sent, Trace.sent_append, List.length_append]
  · rw [hconfig] at hmore ⊢
    obtain ⟨payload, hsome, rfl, howed, howed'⟩ | ⟨hread, hpieces⟩ | ⟨io, hfailed⟩ :=
      pieces_step hs hd.loaded he
    · -- What is read is the first piece of what was staged.
      obtain ⟨hpayload, hrest⟩ := Prod.mk.inj hv
      obtain rfl := Except.ok.inj hpayload
      rw [← hrest] at hmore
      have hcut := hd.cut hunfailed _
        (hmore.cons hc fun hnone => hsome (by rw [hnone, List.take_nil]))
      rw [howed, List.append_nil] at hcut
      rw [Trace.pieces_append, howed', show Trace.pieces [.read _ _] = [] from rfl, List.append_nil,
        List.append_assoc]
      exact hcut
    · rw [Trace.pieces_append, List.append_assoc t.pieces, hpieces]
      rw [hread] at hout
      exact hd.cut hunfailed more (by rwa [hout])
    · exact absurd hfailed (hok io)
  · rw [hconfig]
    exact hd.each_step hl

lemma perform {act : PeerAct} (hd : e.Drains staged t h) (ha : act.Filled) :
    e.Drains staged t (h.perform act) := by
  obtain ⟨hfilled, hloaded, hunhurried, hclosed, hsent, hcut, hfins⟩ := hd
  rw [← MemoryHost.app_perform act h] at hunhurried hclosed hcut
  exact ⟨hfilled.perform ha, hloaded, hunhurried, hclosed, hsent, hcut, hfins⟩

lemma of_established {peer isn : SeqNum} (hctx : e.ctx = .established isn peer)
    (hp : e.point = .wait) (hf : h.Filled) : e.Drains h.app.outbound [] h := by
  obtain ⟨config, ctx, thenLoop, point⟩ := e
  obtain rfl : ctx = .established isn peer := hctx
  obtain rfl : point = .wait := hp
  exact ⟨hf, trivial, trivial, fun hsent => (by cases hsent), rfl, fun _ more hmore => hmore,
    Trace.each_nil⟩

lemma drained (hd : e.Drains staged t h)
    (hr : e.result? = some (.ok ()) ∨ e.result? = some (.error .channelClosed)) :
    Cut e.config.payloadLimit staged t.pieces ∧ h.app.outbound = [] ∧
      e.ctx.sent = staged.length := by
  have hu := hd.unhurried
  obtain ⟨hnone, howed, hok⟩ : h.app.outbound = [] ∧ e.owed.pieces = [] ∧
      ∀ io, e.result? ≠ some (.error (.io io)) := by
    rcases hr with hr | hr
    · rw [Unhurried, point_of_result hr] at hu
      exact ⟨hu, by rw [owed, point_of_result hr]; rfl, by simp [hr]⟩
    · rw [Unhurried, point_of_result hr] at hu
      exact ⟨hu, by rw [owed, point_of_result hr]; rfl, by simp [hr]⟩
  have hcut : Cut e.config.payloadLimit staged t.pieces := by
    have hcut := hd.cut hok [] (by rw [hnone]; exact .nil)
    rwa [howed, List.append_nil, List.append_nil] at hcut
  exact ⟨hcut, hnone, by rw [hd.sent, ← Trace.flatten_pieces, hcut.joined]⟩

end Drains

end Engine

namespace Machine

/-- What a call on a host in memory has asked for up to some moment, while the peer acts between its
steps. -/
inductive Alongside (m : Machine Unit MemoryHost) : Trace → Machine Unit MemoryHost → Prop
  | refl : Alongside m [] m
  | step {t : Trace} {m' m'' : Machine Unit MemoryHost} {events : List Event} : Alongside m t m' →
      m'.step .inert MemoryHost.host = some (m'', events) → Alongside m (t ++ events) m''
  | peer {t : Trace} {m' : Machine Unit MemoryHost} (act : PeerAct) :
      Alongside m t m' → act.Filled →
        Alongside m t ⟨m'.engine, m'.policy, m'.host.perform act⟩

variable {m₀ m m' : Machine Unit MemoryHost} {opening t : Trace} {config : Config} {isn : SeqNum}
  {role : Role}

lemma Alongside.drains {staged : Bytes} (h : m.Alongside t m') (hs : m.engine.Sound)
    (hc : 0 < m.engine.config.payloadLimit) (hd : m.engine.Drains staged [] m.host) :
    m'.engine.Sound ∧ m'.engine.config = m.engine.config ∧ m'.engine.Drains staged t m'.host := by
  induction h with
  | refl => exact ⟨hs, rfl, hd⟩
  | step _ hstep ih =>
    obtain ⟨hs, hconfig, hd⟩ := ih
    have he := step_engine hstep
    exact ⟨hs.step he, (Engine.config_eq (hs.loopStep he).fixed).trans hconfig,
      hd.step hs (by rwa [hconfig]) he (serves hstep)⟩
  | peer act _ ha ih =>
    obtain ⟨hs, hconfig, hd⟩ := ih
    exact ⟨hs, hconfig, hd.perform ha⟩

/-- A control loop that ends well or finds the channel closed has sent all that was staged, in full
segments but for the last, and no FIN goes out earlier. -/
theorem loop_drains (h : m₀.Opened .inert MemoryHost.host config isn role opening)
    (hf : m₀.host.Filled) (hs : m₀.again.Alongside t m) :
    (∀ m' events, m.step .inert MemoryHost.host = some (m', events) → 0 < Trace.finsSent events →
      m.host.app.outbound = []) ∧
    (t.Each fun before c => c.sendsFin = true → Cut config.mss m₀.host.app.outbound before.pieces) ∧
    (m.engine.result? = some (.ok ()) ∨ m.engine.result? = some (.error .channelClosed) →
      Cut config.mss m₀.host.app.outbound t.pieces ∧ m.host.app.outbound = [] ∧
        m.engine.ctx.sent = m₀.host.app.outbound.length) := by
  obtain ⟨peer, hctx, -, hwait, hconfig, hsound⟩ := h.again
  obtain ⟨hm, -, -, hc, -⟩ := h.met
  obtain ⟨hlimit, hpos⟩ := Config.payloadLimit_of_valid (hc ▸ hm.valid)
  obtain ⟨hs, hconfig', hd⟩ := hs.drains hsound (by rw [hconfig, hlimit]; exact hpos)
    (.of_established hctx hwait hf)
  have hmss : m.engine.config.payloadLimit = config.mss := by
    rw [hconfig', hconfig, hlimit]
  rw [← hmss]
  refine ⟨fun m' events hstep hfin => ?_, hd.fins, hd.drained⟩
  exact hd.outbound_of_fin ((hs.loopStep (step_engine hstep)).of_fin hfin).1

lemma Alongside.iterate (h : m.Alongside t m') {past : List Event} (hp : past.reverse = t)
    (fuel : Nat) :
    m.Alongside (m'.iterate .inert MemoryHost.host fuel past).2.reverse
      (m'.iterate .inert MemoryHost.host fuel past).1 :=
  iterate_keeps .step h hp fuel

def leaving : MemoryHost where
  app := { outbound := [1, 2, 3] }
  agenda := [(0, .send (Segment.encode ⟨{ seq := 100, ack := 2, flags := .synAck }, []⟩))]

def leavingOpening : Machine Unit MemoryHost × Trace :=
  run .inert MemoryHost.host 20 ⟨.handshake { mss := 2 } (.new 1) .active, (), leaving⟩

def leavingStart : Machine Unit MemoryHost × List Event :=
  leavingOpening.1.again.iterate .inert MemoryHost.host 2 []

def leavingRest : Machine Unit MemoryHost × List Event :=
  iterate .inert MemoryHost.host 40 ⟨leavingStart.1.engine, (),
    leavingStart.1.host.perform .shutdown⟩
    leavingStart.2

theorem loop_drains_leaving :
    leavingOpening.1.Opened .inert MemoryHost.host { mss := 2 } 1 .active leavingOpening.2 ∧
      leavingOpening.1.host.Filled ∧
      leavingOpening.1.again.Alongside leavingRest.2.reverse leavingRest.1 ∧
      leavingRest.1.engine.result? = some (.error .channelClosed) ∧
      Cut 2 [1, 2, 3] (Trace.pieces leavingRest.2.reverse) ∧
      Trace.pieces leavingRest.2.reverse = [[1, 2], [3]] ∧ leavingRest.1.engine.ctx.sent = 3 := by
  have hopened :
      leavingOpening.1.Opened .inert MemoryHost.host { mss := 2 } 1 .active leavingOpening.2 :=
    ⟨⟨(), leaving, steps_run _ _ 20 _⟩, by rfl⟩
  have hfilled : leavingOpening.1.host.Filled := by
    refine ⟨?_, ?_, ?_⟩
    · rw [show leavingOpening.1.host.app.pending = none by rfl]
      simp
    · rw [show leavingOpening.1.host.link.toA.queue = [] by rfl]
      simp
    · rw [show leavingOpening.1.host.agenda = [] by rfl]
      simp
  have hstart : leavingOpening.1.again.Alongside leavingStart.2.reverse leavingStart.1 :=
    Alongside.refl.iterate rfl 2
  have hrest : leavingOpening.1.again.Alongside leavingRest.2.reverse leavingRest.1 :=
    (hstart.peer .shutdown trivial).iterate rfl 40
  have hended : leavingRest.1.engine.result? = some (.error .channelClosed) := by
    decide +kernel
  have hstaged : leavingOpening.1.host.app.outbound = [1, 2, 3] := by
    rfl
  obtain ⟨-, -, hdrained⟩ := loop_drains hopened hfilled hrest
  obtain ⟨hcut, -, hsent⟩ := hdrained (.inr hended)
  rw [hstaged] at hcut hsent
  exact ⟨hopened, hfilled, hrest, hended, hcut, by decide +kernel, hsent⟩

end Machine

end DatagramStream
