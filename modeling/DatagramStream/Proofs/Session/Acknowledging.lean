import DatagramStream.Proofs.Session.Intake
import DatagramStream.Proofs.Session.Opening

/-! A control loop acknowledges the bytes that it has handed over, up to a FIN, and then the FIN. -/

namespace DatagramStream

namespace Trace

variable {t u : Trace} {first : SeqNum}

def lastFin? (t : Trace) : Option SeqNum :=
  (t.arrived.filter fun g => g.header.flags.fin).getLast?.map fun g => g.header.seq

/-- What is acknowledged once a stream that starts at `first` has got this far: all that the
application has taken or, after a FIN, whatever the last FIN says. -/
def cursor (first : SeqNum) (t : Trace) : SeqNum :=
  match t.lastFin? with
  | none => first + UInt32.ofNat t.written.length
  | some fin => fin + 1

lemma lastFin?_append (h : u.arrived = []) : lastFin? (t ++ u) = lastFin? t := by
  rw [lastFin?, arrived_append, h, List.append_nil, lastFin?]

lemma lastFin?_hear {g : Segment} (h : u.arrived = [g]) :
    lastFin? (t ++ u) = if g.header.flags.fin then some g.header.seq else lastFin? t := by
  rw [lastFin?, arrived_append, h, List.filter_append]
  split_ifs with hf
  · simp [hf]
  · simp [hf, lastFin?]

lemma cursor_append (ha : u.arrived = []) (hw : u.written = []) :
    cursor first (t ++ u) = cursor first t := by
  rw [cursor, lastFin?_append ha, written_silent hw, cursor]

lemma cursor_hear {g : Segment} (ha : u.arrived = [g]) (hw : u.written = []) :
    cursor first (t ++ u) = if g.header.flags.fin then g.header.seq + 1 else cursor first t := by
  rw [cursor, lastFin?_hear ha, written_silent hw]
  split_ifs <;> rfl

lemma opening_unique {front v : Trace} (ht : Event.unblock ∉ t) (hf : Event.unblock ∉ front)
    (h : t ++ .unblock :: u = front ++ .unblock :: v) : t = front ∧ u = v := by
  rcases List.append_eq_append_iff.mp h with ⟨gap, rfl, htail⟩ | ⟨gap, rfl, htail⟩
  · cases gap with
    | nil => exact ⟨(List.append_nil t).symm, (List.cons.inj htail).2⟩
    | cons c gap =>
      rw [← (List.cons.inj htail).1] at hf
      simp at hf
  · cases gap with
    | nil => exact ⟨List.append_nil front, (List.cons.inj htail).2.symm⟩
    | cons c gap =>
      rw [← (List.cons.inj htail).1] at ht
      simp at ht

def Acknowledges (first : SeqNum) (before : Trace) : Event → Prop
  | .send header payload (.ok ()) =>
    ∃ g : Segment, g.encode = header ++ payload ∧ Segment.parse (header ++ payload) = .ok g ∧
      g.header.ack = before.cursor first
  | .write _ _ => before.lastFin? = none
  | .peerClosed => before.lastFin?.isSome
  | _ => True

def AcknowledgesInOrder (first : SeqNum) (before : Trace) : Event → Prop
  | .send header payload (.ok ()) =>
    ∀ g, Segment.parse (header ++ payload) = .ok g →
      g.header.ack = first + UInt32.ofNat before.written.length ∨
        g.header.ack = first + UInt32.ofNat before.written.length + 1
  | .peerClosed => before.lastFin? = some (first + UInt32.ofNat before.written.length)
  | _ => True

end Trace

namespace Engine

variable {e e' : Engine} {t : Trace} {events : List Event} {first : SeqNum}

def nextAck (e : Engine) : SeqNum :=
  match e.point with
  | .noteAck g _ => if g.header.flags.fin then g.header.seq + 1 else e.ctx.expected
  | _ => e.ctx.expected

lemma nextAck_of_idle (h : e.Idle) : e.nextAck = e.ctx.expected := by
  obtain ⟨config, ctx, thenLoop, point⟩ := e
  cases point <;> first | rfl | exact h.elim

lemma nextAck_onContent (e : Engine) (g : Segment) (rest : Signals) :
    (e.onContent g rest).nextAck =
      if g.header.flags.fin then g.header.seq + 1 else e.ctx.expected := by
  rw [onContent]
  split_ifs
  · rfl
  · rfl
  · rw [nextAck_of_idle (idle_react e rest), react_ctx]

lemma nextAck_onSegment (e : Engine) (g : Segment) (rest : Signals) :
    (e.onSegment g rest).nextAck =
      if g.header.flags.fin then g.header.seq + 1 else e.ctx.expected := by
  rw [onSegment]
  split_ifs with ha hf
  · simp [nextAck, goto, hf]
  · simp [nextAck, goto, hf]
  · simp [nextAck_onContent, *]
  · simp [nextAck_onContent, *]

lemma Sound.unheard_of_deliver {payload : Bytes} {rest : Signals}
    (hs : (e.goto (.deliver payload rest)).Sound) :
    (e.goto (.deliver payload rest)).heardFin = false := by
  obtain ⟨hl, hr, -⟩ := hs.coherent
  exact (Bool.or_false _).trans (hl.unseen_of_canReceive hr)

structure Tracks (first : SeqNum) (t : Trace) (e : Engine) : Prop where
  cursor : e.nextAck = t.cursor first
  received : e.ctx.received = t.written.length
  ended : e.heardFin = true → t.lastFin?.isSome
  heard : t.lastFin?.isSome → e.heardFin = true ∨ e.stage = .finished

namespace Tracks

lemma apart (h : e.Tracks first t) (hp : e.stage ≠ .finished) (hs : e.Apart events e') :
    e'.Tracks first (t ++ events) := by
  have hf : Trace.lastFin? (t ++ events) = t.lastFin? := Trace.lastFin?_append hs.arrived
  refine ⟨?_, ?_, fun hheard => ?_, fun hfin => ?_⟩
  · rw [Trace.cursor_append hs.arrived hs.written, ← h.cursor, nextAck_of_idle hs.after,
      nextAck_of_idle hs.before, hs.expected]
  · rw [hs.received, h.received, Trace.written_silent hs.written]
  · rw [hf]
    apply h.ended
    by_contra hn
    rw [hs.unheard (by simpa using hn)] at hheard
    cases hheard
  · rw [hf] at hfin
    exact hs.heard ((h.heard hfin).resolve_right hp)

lemma hear {d : Bytes} {g : Segment} {rest : Signals} (h : (e.goto (.receive rest)).Tracks first t)
    (good : Segment.ofBuffer e.config.receiveCapacity d = .ok g) :
    (e.onSegment g rest).Tracks first (t ++ [.receive e.config.receiveCapacity (.ok d)]) := by
  have ha := Trace.arrived_of_good good
  have hx : e.ctx.expected = t.cursor first := h.cursor
  have hseen : (e.goto (.receive rest)).heardFin = e.ctx.peerFinSeen := Bool.or_false _
  refine ⟨?_, ?_, fun hheard => ?_, fun hfin => .inl ?_⟩
  · rw [nextAck_onSegment, Trace.cursor_hear ha rfl, hx]
  · rw [ctx_onSegment, Trace.written_silent rfl]
    exact h.received
  · rw [Trace.lastFin?_hear ha]
    rw [heardFin_onSegment] at hheard
    split_ifs with hf
    · rfl
    · rw [Bool.or_eq_true, or_iff_left hf] at hheard
      exact h.ended (hseen.trans hheard)
  · rw [heardFin_onSegment]
    rw [Trace.lastFin?_hear ha] at hfin
    split_ifs at hfin with hf
    · rw [hf, Bool.or_true]
    · rw [← hseen, (h.heard hfin).resolve_right (by simp [stage, goto]), Bool.true_or]

lemma noteAck {g : Segment} {rest : Signals} (h : (e.goto (.noteAck g rest)).Tracks first t) :
    ((e.onAck g.header.ack).onContent g rest).Tracks first (t ++ [.onAck g.header.ack]) := by
  have hf : Trace.lastFin? (t ++ [.onAck g.header.ack]) = t.lastFin? := Trace.lastFin?_append rfl
  have hheard : ((e.onAck g.header.ack).onContent g rest).heardFin =
      (e.goto (.noteAck g rest)).heardFin := by
    rw [heardFin_onContent, peerFinSeen_onAck]
    rfl
  refine ⟨?_, ?_, fun hh => ?_, fun hfin => .inl ?_⟩
  · rw [Trace.cursor_append rfl rfl, ← h.cursor, nextAck_onContent, expected_onAck]
    rfl
  · rw [ctx_onContent, ctx_onAck, Trace.written_silent rfl]
    exact h.received
  · rw [hf]
    exact h.ended (hheard.symm.trans hh)
  · rw [hheard]
    exact (h.heard (hf ▸ hfin)).resolve_right (by simp [stage, goto])

lemma lastFin?_of_unheard (h : e.Tracks first t) (hp : e.stage ≠ .finished)
    (hf : e.heardFin = false) :
    t.lastFin? = none := by
  by_contra hn
  rcases h.heard (Option.isSome_iff_ne_none.mpr hn) with hheard | hended
  · rw [hf] at hheard
    cases hheard
  · exact hp hended

lemma expected_eq (h : e.Tracks first t) (hp : e.stage ≠ .finished) (hf : e.heardFin = false) :
    e.ctx.expected = first + UInt32.ofNat t.written.length := by
  have hcursor : e.nextAck = first + UInt32.ofNat t.written.length := by
    rw [h.cursor, Trace.cursor, h.lastFin?_of_unheard hp hf]
  rw [← hcursor]
  obtain ⟨config, ctx, thenLoop, point⟩ := e
  cases point with
  | noteAck g rest =>
    simp only [heardFin, Bool.or_eq_false_iff] at hf
    simp [nextAck, hf.2]
  | _ => rfl

lemma lastFin?_of_deliver {payload : Bytes} {rest : Signals}
    (h : (e.goto (.deliver payload rest)).Tracks first t)
    (hs : (e.goto (.deliver payload rest)).Sound) :
    t.lastFin? = none :=
  h.lastFin?_of_unheard (by simp [stage, goto]) hs.unheard_of_deliver

lemma deliver {payload : Bytes} {rest : Signals}
    (h : (e.goto (.deliver payload rest)).Tracks first t)
    (hs : (e.goto (.deliver payload rest)).Sound) :
    Tracks first (t ++ [.write payload (.ok ())])
      { e with ctx := e.ctx.recordDelivered payload.length, point := .ackData rest } := by
  have hnone : Trace.lastFin? (t ++ [.write payload (.ok ())]) = none :=
    (Trace.lastFin?_append rfl).trans (h.lastFin?_of_deliver hs)
  have hx : e.ctx.expected = first + UInt32.ofNat t.written.length :=
    h.expected_eq (by simp [stage, goto]) hs.unheard_of_deliver
  have hw : Trace.written (t ++ [.write payload (.ok ())]) = t.written ++ payload :=
    (Trace.written_append _ _).trans (congrArg (t.written ++ ·) (List.append_nil payload))
  refine ⟨?_, ?_, fun hheard => ?_, fun hfin => ?_⟩
  · rw [Trace.cursor, hnone, hw, List.length_append, ← SeqNum.add_ofNat_add, ← hx]
    rfl
  · rw [hw, List.length_append, ← h.received]
    rfl
  · cases hheard.symm.trans hs.unheard_of_deliver
  · rw [hnone] at hfin
    cases hfin

lemma refuse {payload : Bytes} {rest : Signals} {cause : IoError}
    (h : (e.goto (.deliver payload rest)).Tracks first t) :
    (e.fail (.io cause)).Tracks first (t ++ [.write payload (.error cause)]) := by
  have hf : Trace.lastFin? (t ++ [.write payload (.error cause)]) = t.lastFin? :=
    Trace.lastFin?_append rfl
  refine ⟨?_, ?_, fun hh => ?_, fun _ => .inr rfl⟩
  · rw [Trace.cursor_append rfl rfl]
    exact h.cursor
  · rw [Trace.written_silent rfl]
    exact h.received
  · rw [hf]
    exact h.ended hh

lemma step (h : e.Tracks first t) (hs : e.Sound) (he : e.Step events e') :
    e'.Tracks first (t ++ events) := by
  cases (hs.loopStep he).intake with
  | apart hq => exact h.apart (stage_ne_finished he) hq
  | hear e rest good => exact h.hear good
  | noteAck e g rest => exact h.noteAck
  | deliver e payload rest => exact h.deliver hs
  | refuse e payload rest cause => exact h.refuse

lemma acknowledges_stamp (h : e.Tracks first t) (hi : e.Idle) (flags : Flags) (payload : Bytes) :
    t.Acknowledges first (.send (e.stamp flags payload).header.encode payload (.ok ())) := by
  refine ⟨e.stamp flags payload, rfl, Segment.parse_encode (plain_stamp e flags payload), ?_⟩
  rw [← h.cursor, nextAck_of_idle hi]
  rfl

lemma each_step (h : e.Tracks first t) (hs : e.Sound) (ht : t.Each (Trace.Acknowledges first))
    (he : e.LoopStep events e') : (t ++ events).Each (Trace.Acknowledges first) := by
  cases he with
  | sendData | ackFin | ackData | sendFin =>
    exact ht.transmitted (h.acknowledges_stamp trivial _ _) trivial
  | deliver | refuse => exact ht.concat (h.lastFin?_of_deliver hs)
  | tellPeerClosed e rest =>
    refine ht.concat (h.ended ?_)
    rw [heardFin, hs.coherent.2.1]
    rfl
  | @fail e p c cause may failure =>
    apply ht.concat
    cases c with
    | send header payload outcome =>
      cases outcome with
      | ok u => cases failure
      | error cause => exact trivial
    | write | peerClosed => cases failure
    | _ => exact trivial
  | _ => exact ht.concat trivial

lemma of_established {isn peer : SeqNum} (hc : e.ctx = .established isn peer)
    (hp : e.point = .wait) :
    e.Tracks (peer + 1) [] := by
  obtain ⟨config, ctx, thenLoop, point⟩ := e
  obtain rfl : ctx = .established isn peer := hc
  obtain rfl : point = .wait := hp
  exact ⟨(UInt32.add_zero _).symm, rfl, fun hheard => (by cases hheard),
    fun hfin => (by cases hfin)⟩

end Tracks

end Engine

namespace Machine

variable {π σ : Type} {P : Policy π} {H : Host σ} {m m' : Machine π σ} {t : Trace} {first : SeqNum}

theorem Steps.tracks (h : m.Steps P H t m') (hs : m.engine.Sound) (ht : m.engine.Tracks first []) :
    m'.engine.Sound ∧ m'.engine.Tracks first t ∧ t.Each (Trace.Acknowledges first) := by
  apply h.keeps_loop (I := fun t e => e.Tracks first t ∧ t.Each (Trace.Acknowledges first)) hs
    ⟨ht, Trace.each_nil⟩
  rintro t e events e' hs ⟨ht, hq⟩ he
  exact ⟨ht.step hs he, ht.each_step hs hq (hs.loopStep he)⟩

variable {config : Config} {isn : SeqNum} {role : Role} {policy : π} {host : σ} {opening u : Trace}

/-- What a connection sends after its handshake acknowledges the SYN and the bytes that the
application has taken or, from its arrival on, the last FIN, wherever that belongs. -/
theorem run_acknowledges (h : Steps P H ⟨.run config (.new isn) role, policy, host⟩ t m)
    (ht : t = opening ++ .unblock :: u) (ho : Event.unblock ∉ opening) :
    u = [] ∨ ∃ syn more, opening.arrived = syn :: more ∧ syn.header.flags.syn = true ∧
      u.Each (Trace.Acknowledges (syn.header.seq + 1)) := by
  obtain ⟨hopening, hfixed⟩ := Engine.opening_run config isn role
  obtain ⟨-, hu, -⟩ | ⟨front, cause, htail, hu, -⟩ |
      ⟨front, v, m₀, htail, hu, -, -, hm, hf, hp, hv⟩ :=
    h.opening_cases hopening (Engine.coherent_run config isn role)
  · rw [ht] at hu
    simp at hu
  · left
    rw [ht] at htail
    exact (Trace.opening_unique ho hu htail).2
  · right
    rw [ht] at htail
    obtain ⟨rfl, rfl⟩ := Trace.opening_unique ho hu htail
    obtain ⟨syn, more, ha, hsyn, hctx⟩ := hm.met
    have hloop : m₀.engine.thenLoop = true := congrArg (fun f => f.2.1) (hf.trans hfixed)
    have hwait : m₀.engine.point = .wait := by
      rw [hp, hloop]
      rfl
    exact ⟨syn, more, ha, hsyn, (hv.tracks (hm.sound hp) (.of_established hctx hwait)).2.2⟩

def strayFin : Script where
  net := [Script.incoming .synAck 100 2 [], Script.incoming .ackOnly 101 2 [7],
    Script.incoming .finOnly 104 0 []]
  events := [.ok .network, .ok .network]

def strayRun : Machine Unit Script × Trace :=
  Machine.run .inert Script.host 30 ⟨.run {} (.new 1) .active, (), strayFin⟩

def strayOpening : Trace :=
  strayRun.2.take 5

def strayLoop : Trace :=
  strayRun.2.drop 6

lemma strayRun_eq : strayRun.2 = strayOpening ++ .unblock :: strayLoop := by
  rfl

lemma unblock_notMem_strayOpening : Event.unblock ∉ strayOpening := by
  rintro (_ | ⟨_, _ | ⟨_, _ | ⟨_, _ | ⟨_, _ | ⟨_, h⟩⟩⟩⟩⟩)
  cases h

lemma arrived_strayOpening :
    strayOpening.arrived = [⟨{ seq := 100, ack := 2, flags := .synAck }, []⟩] := by
  decide +kernel

theorem run_acknowledges_stray : ∃ m : Machine Unit Script,
    Steps .inert Script.host ⟨.run {} (.new 1) .active, (), strayFin⟩
        (strayOpening ++ .unblock :: strayLoop) m ∧
      strayLoop.written = [7] ∧ strayLoop.lastFin? = some 104 ∧
        strayLoop.Each (Trace.Acknowledges 101) := by
  have h : Steps .inert Script.host _ strayRun.2 strayRun.1 := steps_run .inert Script.host 30 _
  rw [strayRun_eq] at h
  refine ⟨_, h, by decide +kernel, by decide +kernel, ?_⟩
  obtain hnil | ⟨syn, more, ha, -, heach⟩ := run_acknowledges h rfl unblock_notMem_strayOpening
  · cases congrArg List.length hnil
  · rw [arrived_strayOpening] at ha
    obtain ⟨rfl, -⟩ := List.cons.inj ha
    exact heach

theorem stray_not_inOrder : ¬ ∀ (opening u : Trace) (m : Machine Unit Script),
    Steps .inert Script.host ⟨.run {} (.new 1) .active, (), strayFin⟩ (opening ++ .unblock :: u) m →
      Event.unblock ∉ opening → ∀ syn ∈ opening.arrived.head?,
        u.Each (Trace.AcknowledgesInOrder (syn.header.seq + 1)) := by
  intro hlaw
  have h : Steps .inert Script.host _ strayRun.2 strayRun.1 := steps_run .inert Script.host 30 _
  rw [strayRun_eq] at h
  let ack : Segment := ⟨{ seq := 2, ack := 105, flags := .ackOnly, window := 3072 }, []⟩
  have hsent : strayLoop = strayLoop.take 9 ++ .send ack.header.encode []
      (.ok ()) :: strayLoop.drop 10 := by
    simp only [ack]
    rfl
  have heach := hlaw _ _ _ h unblock_notMem_strayOpening _ (by rw [arrived_strayOpening]; rfl)
  rcases heach _ _ _ hsent ack (Segment.parse_encode rfl) with hack | hack
  · exact absurd hack (by decide +kernel)
  · exact absurd hack (by decide +kernel)

end Machine

end DatagramStream
