import DatagramStream.Proofs.Session.Marks

/-! The control loop numbers what it sends without a gap, whatever fails on the way. -/

namespace DatagramStream

namespace Trace

def nextNumber (isn : SeqNum) (t : Trace) : SeqNum :=
  isn + 1 + UInt32.ofNat t.sent.length + (if 0 < t.finsSent then 1 else 0)

def ReadsFit (t : Trace) : Prop :=
  ∀ limit data, Event.read limit (.ok data) ∈ t → data.length ≤ limit

def Follows (isn : SeqNum) (mss : Nat) (before : Trace) : Event → Prop
  | .send header payload (.ok ()) =>
    ∃ g : Segment, g.encode = header ++ payload ∧ Segment.parse (header ++ payload) = .ok g ∧
      g.payload = payload ∧ g.header.seq = before.nextNumber isn ∧
      (payload ≠ [] →
        g.header.flags = .ackOnly ∧ payload.length ≤ mss ∧ before.finsSent = 0 ∧
          before.getLast? = some (.read mss (.ok payload)))
  | _ => True

variable {t u : Trace}

lemma ReadsFit.append (ht : t.ReadsFit) (hu : u.ReadsFit) : ReadsFit (t ++ u) := by
  intro limit data h
  rcases List.mem_append.mp h with h | h
  · exact ht limit data h
  · exact hu limit data h

lemma ReadsFit.left (h : ReadsFit (t ++ u)) : t.ReadsFit := by
  intro limit data hm
  exact h limit data (List.mem_append_left u hm)

end Trace

lemma Event.isFailure_quiet {c : Event} (h : c.isFailure = true) :
    Trace.sent [c] = [] ∧ ∀ isn mss before, Trace.Follows isn mss before c := by
  cases c with
  | send header payload outcome =>
    cases outcome with
    | ok u => cases h
    | error cause => exact ⟨rfl, fun _ _ _ => trivial⟩
  | _ => exact ⟨rfl, fun _ _ _ => trivial⟩

namespace Engine

variable {e e' : Engine} {t : Trace} {events : List Event} {config : Config}

structure Counted (t : Trace) (e : Engine) : Prop where
  sent : e.ctx.sent = t.sent.length
  fins : t.finsSent = e.ctx.state.finSent.toNat
  owed : e.owed.bytes = [] ∨ t.getLast? = some (.read e.config.payloadLimit (.ok e.owed.bytes))
  each : t.Each (Trace.Follows e.ctx.isn e.config.payloadLimit)

lemma sent_transmitted (g : Segment) : Trace.sent g.transmitted = g.payload :=
  List.append_nil _

lemma LoopStep.sent (h : e.LoopStep events e') :
    e'.ctx.sent = e.ctx.sent + (Trace.sent events).length := by
  cases h with
  | wait | readNone | drop => rw [react_ctx]; rfl
  | ackData e rest => rw [react_ctx, sent_transmitted]; rfl
  | sendData e payload rest => rw [react_ctx, sent_transmitted]; rfl
  | hear e rest good => rw [ctx_onSegment]; rfl
  | noteAck e g rest => rw [ctx_onContent, ctx_onAck]; rfl
  | ackFin e rest => rw [sent_onFinAnswered, sent_transmitted]; rfl
  | tellPeerClosed e rest => rw [react_ctx, ctx_closeIfTimeWait]; rfl
  | collectDue e datagrams => rw [resending_ctx]; rfl
  | resend e datagram more => rw [resending_ctx]; rfl
  | fail e cause may failure => rw [(Event.isFailure_quiet failure).1]; rfl
  | readSome | deliver | refuse | sendFin => rfl

lemma bytes_onFinAnswered (e : Engine) (rest : Signals) :
    (e.onFinAnswered rest).owed.bytes = [] := by
  rw [onFinAnswered]
  split_ifs
  · rw [owed_react]
  · rfl

lemma LoopStep.owed (h : e.LoopStep events e') :
    e'.owed.bytes = [] ∨ events = [.read e'.config.payloadLimit (.ok e'.owed.bytes)] := by
  cases h with
  | readSome => exact .inr rfl
  | wait | readNone | drop | ackData | sendData | tellPeerClosed => left; rw [owed_react]
  | hear => left; rw [owed_onSegment]
  | noteAck => left; rw [owed_onContent]
  | ackFin e rest => exact .inl (bytes_onFinAnswered e rest)
  | collectDue | resend => left; rw [owed_resending]
  | deliver | refuse | sendFin | fail => exact .inl rfl

namespace Counted

lemma next_eq (h : e.Counted t) (hs : e.Sound) : e.ctx.next = t.nextNumber e.ctx.isn := by
  rw [hs.next_eq, Context.position, h.sent, Trace.nextNumber, h.fins, ← SeqNum.add_ofNat_add,
    ← SeqNum.add_ofNat_add]
  cases e.ctx.state.finSent <;> rfl

lemma follows_stamp (h : e.Counted t) (hs : e.Sound) {flags : Flags} {payload : Bytes}
    (hp : payload ≠ [] →
      flags = .ackOnly ∧ payload.length ≤ e.config.payloadLimit ∧ t.finsSent = 0 ∧
        t.getLast? = some (.read e.config.payloadLimit (.ok payload))) :
    t.Follows e.ctx.isn e.config.payloadLimit
      (.send (e.stamp flags payload).header.encode payload (.ok ())) :=
  ⟨e.stamp flags payload, rfl, Segment.parse_encode (plain_stamp e flags payload), rfl,
    h.next_eq hs, hp⟩

lemma each_step (h : e.Counted t) (hs : e.Sound) (hr : t.ReadsFit) (he : e.LoopStep events e') :
    Trace.Each (Trace.Follows e.ctx.isn e.config.payloadLimit) (t ++ events) := by
  cases he with
  | sendData e payload rest =>
    refine h.each.transmitted (h.follows_stamp hs fun hp => ?_) trivial
    -- Bytes on their way out were taken from the application by the step before.
    have hread : t.getLast? = some (.read e.config.payloadLimit (.ok payload)) :=
      h.owed.resolve_left hp
    have hsend : e.ctx.state.finSent = false := State.finSent_of_canSend hs.coherent.2.1
    refine ⟨rfl, hr _ _ (List.mem_of_getLast? hread), ?_, hread⟩
    rw [h.fins]
    exact congrArg Bool.toNat hsend
  | ackFin | ackData | sendFin =>
    exact h.each.transmitted (h.follows_stamp hs fun hp => absurd rfl hp) trivial
  | fail e cause may failure => exact h.each.concat ((Event.isFailure_quiet failure).2 _ _ t)
  | _ => exact h.each.concat trivial

lemma step (h : e.Counted t) (hs : e.Sound) (hr : Trace.ReadsFit (t ++ events))
    (he : e.Step events e') :
    e'.Counted (t ++ events) := by
  have hl := hs.loopStep he
  refine ⟨?_, ?_, ?_, ?_⟩
  · rw [hl.sent, h.sent, Trace.sent_append, List.length_append]
  · rw [Trace.finsSent_append, h.fins, Nat.add_comm]
    exact finsSent_step hs.coherent he
  · rcases hl.owed with hnone | rfl
    · exact .inl hnone
    · exact .inr List.getLast?_concat
  · rw [isn_eq hl.fixed, config_eq hl.fixed]
    exact h.each_step hs hr.left hl

lemma of_met (h : e.Met t) (hp : e.stage = .finished) : e.Counted [] := by
  obtain ⟨syn, more, -, -, hctx⟩ := h.met
  refine ⟨?_, ?_, .inl (by rw [owed_of_finished hp]), Trace.each_nil⟩
  · rw [hctx]
    rfl
  · rw [h.finSent]
    rfl

lemma again (h : e.Counted t) : (loop e.config e.ctx).Counted t := by
  obtain ⟨-, hconfig, hctx⟩ := stage_loop e.config e.ctx
  refine ⟨?_, ?_, .inl (by rw [owed_loop]), ?_⟩
  · rw [hctx, h.sent]
  · rw [hctx, h.fins]
  · rw [hctx, hconfig]
    exact h.each

end Counted

lemma LoopStep.ctx_of_unsent {header payload : Bytes} {cause : IoError}
    (h : e.LoopStep [.send header payload (.error cause)] e') : e'.ctx = e.ctx := by
  generalize hsent : [Event.send header payload (.error cause)] = events at h
  cases h with
  | fail => rfl
  | _ => cases hsent

end Engine

def Host.ReadsFit {σ : Type} (H : Host σ) : Prop :=
  ∀ limit s data, (H.read limit s).1 = .ok data → data.length ≤ limit

lemma Script.host_readsFit : Script.host.ReadsFit := by
  intro limit s data h
  change (s.read limit).1 = _ at h
  rw [read] at h
  split at h
  · cases h
    exact Nat.zero_le limit
  · cases h
  · cases h
    exact List.length_take_le limit _

namespace Machine

variable {π σ : Type} {P : Policy π} {H : Host σ} {m m' : Machine π σ} {t : Trace}
  {events : List Event}

lemma readsFit_step (hr : H.ReadsFit) (h : m.step P H = some (m', events)) :
    Trace.ReadsFit events := by
  have hs := step_engine h
  rw [Engine.Step] at hs
  intro limit data hm
  cases hq : m.engine.request with
  | read bound next =>
    rw [step, hq] at h
    simp only [Option.some.injEq, Prod.mk.injEq] at h
    obtain ⟨-, rfl⟩ := h
    obtain ⟨rfl, hdata⟩ := Event.read.inj (List.mem_singleton.mp hm)
    exact hr limit m.host data hdata.symm
  | transmit g next =>
    rw [hq] at hs
    obtain ⟨rfl, -⟩ | ⟨cause, rfl, -⟩ := hs <;> simp at hm
  | resend header payload next | receive capacity next | write data next | collectDue next =>
    rw [hq] at hs
    obtain ⟨outcome, rfl, -⟩ := hs
    simp at hm
  | wait interest next =>
    rw [hq] at hs
    obtain ⟨deadline, outcome, rfl, -⟩ := hs
    simp at hm
  | unblock next | peerClosed next | noteAck ack next =>
    rw [hq] at hs
    obtain ⟨rfl, -⟩ := hs
    simp at hm
  | finished result =>
    rw [hq] at hs
    exact hs.elim

lemma Steps.readsFit (hr : H.ReadsFit) (h : m.Steps P H t m') : t.ReadsFit := by
  induction h with
  | refl => simp [Trace.ReadsFit]
  | step _ hs ih => exact ih.append (readsFit_step hr hs)
  | surround policy host _ ih => exact ih

end Machine

namespace Session

variable {π σ : Type} {P : Policy π} {H : Host σ} {config : Config} {isn : SeqNum} {role : Role}
  {opening t : Trace} {m : Machine π σ}

lemma readsFit (hr : H.ReadsFit) (h : Session P H config isn role opening t m) : t.ReadsFit := by
  induction h with
  | opened ho => simp [Trace.ReadsFit]
  | loop _ _ hu ih => exact ih.append (hu.readsFit hr)

lemma valid (h : Session P H config isn role opening t m) : config.validate = .ok () := by
  induction h with
  | opened ho =>
    obtain ⟨hm, -, -, hc, -⟩ := ho.met
    rw [← hc]
    exact hm.valid
  | loop _ _ _ ih => exact ih

/-- The counters of a connection tell at every moment what its control loops have sent, each segment
has the number that they told, and what could not be sent has not moved them. -/
theorem numbered (hr : H.ReadsFit) (h : Session P H config isn role opening t m) :
    m.engine.ctx.sent = t.sent.length ∧ m.engine.ctx.next = t.nextNumber isn ∧
      t.Each (Trace.Follows isn config.mss) ∧
      ∀ m' header payload cause, m.step P H = some (m', [.send header payload (.error cause)]) →
        m'.engine.ctx = m.engine.ctx := by
  obtain ⟨hs, hc, hi, hcounted⟩ := h.keeps (I := fun t e => t.ReadsFit → e.Counted t)
    (fun hm hended _ => .of_met hm hended) (fun _ ht hfit => (ht hfit).again)
    (fun hs _ ht he hfit => (ht hfit.left).step hs hfit he)
  have hcounted := hcounted (h.readsFit hr)
  refine ⟨hcounted.sent, ?_, ?_, ?_⟩
  · rw [hcounted.next_eq hs, hi]
  · rw [← (Config.payloadLimit_of_valid h.valid).1, ← hc, ← hi]
    exact hcounted.each
  · intro m' header payload cause hstep
    exact (hs.loopStep (Machine.step_engine hstep)).ctx_of_unsent

def lossy : Script where
  net := [Script.incoming .synOnly 1 0 [], Script.incoming .ackOnly 2 0xFFFFFFFF [],
    Script.incoming .ackOnly 2 2 [9]]
  app := [.ok [1, 2, 3, 4]]
  events := [.ok { appData := true }, .ok .all]
  sendFaults := [none, some .networkUnreachable]

theorem numbered_lossy : ∃ opening t, ∃ m : Machine Unit Script,
    Session .inert Script.host { mss := 2 } 0xFFFFFFFE .passive opening t m ∧ t.sent = [3, 4] ∧
      t.finsSent = 1 ∧ m.engine.ctx.sent = 2 ∧ m.engine.ctx.next = 2 ∧
      t.Each (Trace.Follows 0xFFFFFFFE 2) := by
  let m₀ : Machine Unit Script := ⟨.handshake { mss := 2 } (.new 0xFFFFFFFE) .passive, (), lossy⟩
  have hresult : (m₀.run .inert Script.host 20).1.engine.result? = some (.ok ()) := by
    simp only [m₀]
    rfl
  have h₁ := Session.opened ⟨⟨(), lossy, Machine.steps_run _ _ 20 m₀⟩, hresult⟩
  have h₂ := h₁.loop (by decide +kernel) (Machine.steps_run _ _ 20 _)
  have h₃ := h₂.loop (by decide +kernel) (Machine.steps_run _ _ 20 _)
  obtain ⟨hsent, hnext, heach, -⟩ := numbered Script.host_readsFit h₃
  refine ⟨_, _, _, h₃, ?_, ?_, ?_, ?_, heach⟩
  · decide +kernel
  · decide +kernel
  · rw [hsent]
    decide +kernel
  · rw [hnext]
    decide +kernel

end Session

end DatagramStream
