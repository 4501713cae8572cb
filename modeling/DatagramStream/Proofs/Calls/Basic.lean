import DatagramStream.Proofs.Session.Opening

/-! A connection under any calls at all, in any order and with any results. -/

namespace DatagramStream

inductive Call where
  | handshake (role : Role)
  | loop
  | run (role : Role)

def Call.begin (config : Config) (ctx : Context) : Call → Engine
  | handshake role => .handshake config ctx role
  | loop => .loop config ctx
  | run role => .run config ctx role

structure Ended where
  call : Call
  trace : Trace
  result : Except ConnectionError Unit

/-- What the calls on a connection have left of it. Each finds surroundings of its own. -/
inductive Calls {π σ : Type} (P : Policy π) (H : Host σ) (config : Config) (isn : SeqNum) :
    List Ended → Context → Prop
  | fresh : Calls P H config isn [] (.new isn)
  | call {past : List Ended} {ctx : Context} {call : Call} {policy : π} {host : σ} {t : Trace}
      {m : Machine π σ} {result : Except ConnectionError Unit} :
      Calls P H config isn past ctx → Machine.Steps P H ⟨call.begin config ctx, policy, host⟩ t m →
        m.engine.result? = some result →
          Calls P H config isn (past ++ [⟨call, t, result⟩]) m.engine.ctx

namespace State

lemma canReceive_next {s : State} {t : Trigger} (h : s.canReceive = true) (ht : t ≠ .recvFin) :
    ((s.next? t).getD s).canReceive = true := by
  cases s <;> cases t <;> first | rfl | exact absurd rfl ht | cases h

lemma next_of_not_isSynchronized {s : State} (h : s.isSynchronized = false) (t : Trigger) :
    ((s.next? t).getD s).isSynchronized = false ∨ ((s.next? t).getD s).canReceive = true := by
  cases s <;> cases t <;> first | exact .inl rfl | exact .inr rfl | cases h

end State

namespace Context

def InUse (c : Context) : Prop :=
  c.peerFinSeen = true ∨ c.state.canReceive = true

def Untouched (c : Context) : Prop :=
  c.state.isSynchronized = false ∧ c.done = false ∧ c.sent = 0 ∧ c.received = 0

def Orderly (c : Context) : Prop :=
  c.InUse ∨ c.Untouched

variable {c : Context} {t : Trigger}

lemma InUse.transition (h : c.InUse) (ht : t ≠ .recvFin) : (c.transition t).InUse := by
  obtain hseen | hstate := h
  · exact .inl hseen
  · exact .inr (State.canReceive_next hstate ht)

lemma Untouched.transition (h : c.Untouched) (t : Trigger) : (c.transition t).Orderly := by
  obtain hstate | hstate := State.next_of_not_isSynchronized h.1 t
  · exact .inr ⟨hstate, h.2⟩
  · exact .inl (.inr hstate)

lemma Orderly.transition (h : c.Orderly) (ht : t ≠ .recvFin) : (c.transition t).Orderly := by
  obtain h | h := h
  · exact .inl (h.transition ht)
  · exact h.transition t

lemma Orderly.inUse (h : c.Orderly) (hs : c.state.isSynchronized = true) : c.InUse := by
  obtain h | h := h
  · exact h
  · rw [h.1] at hs
    cases hs

end Context

namespace Engine

def Orderly (e : Engine) : Prop :=
  e.ctx.Orderly ∧ (e.stage = .serving → e.ctx.InUse)

variable {e e' : Engine} {events : List Event}

lemma Orderly.of_inUse (h : e.ctx.InUse) : e.Orderly :=
  ⟨.inl h, fun _ => h⟩

lemma Orderly.aside (h : e.ctx.Orderly) (hp : e.stage ≠ .serving) : e.Orderly :=
  ⟨h, fun hs => absurd hs hp⟩

lemma inUse_onAck (h : e.ctx.InUse) (ack : SeqNum) : (e.onAck ack).ctx.InUse := by
  rw [onAck]
  split_ifs
  · exact h.transition (t := .recvAck) (by decide)
  · exact h

lemma inUse_onContent (h : e.ctx.InUse) (g : Segment) (rest : Signals) :
    (e.onContent g rest).ctx.InUse := by
  rw [ctx_onContent]
  exact h

lemma inUse_onFinAnswered (e : Engine) (rest : Signals) : (e.onFinAnswered rest).ctx.InUse := by
  rw [onFinAnswered]
  split_ifs with hseen
  · rw [react_ctx, ctx_closeIfTimeWait]
    exact .inl hseen
  · exact .inl rfl

lemma LoopStep.inUse (h : e.LoopStep events e') (hc : e.ctx.InUse) : e'.ctx.InUse := by
  cases h with
  | wait | readNone | drop | ackData =>
    rw [react_ctx]
    exact hc
  | sendData e payload rest =>
    rw [react_ctx]
    exact hc
  | hear e rest =>
    rw [ctx_onSegment]
    exact hc
  | noteAck e g rest => exact inUse_onContent (inUse_onAck (e := e) hc _) g rest
  | ackFin => exact inUse_onFinAnswered _ _
  | tellPeerClosed e rest =>
    rw [react_ctx, ctx_closeIfTimeWait]
    exact hc
  | sendFin => exact hc.transition (t := .sendFin) (by decide)
  | collectDue | resend =>
    rw [resending_ctx]
    exact hc
  | readSome | deliver | refuse | fail => exact hc

lemma Orderly.onOpening {next : Engine} (h : next.Orderly) (hc : e.ctx.Orderly)
    (outcome : Except IoError Unit) :
    (e.onOpening next outcome).Orderly := by
  cases outcome with
  | error cause => exact .aside hc (by simp [Engine.onOpening, broken, goto, stage])
  | ok u => exact h

lemma Orderly.onReply {onSegment : Engine → Segment → Engine} (h : e.ctx.Orderly)
    (hn : ∀ g, (onSegment e g).Orderly) (answer : Except IoError Bytes) :
    (e.onReply onSegment answer).Orderly := by
  rw [Engine.onReply]
  split
  · exact .aside h (by simp [broken, goto, stage])
  · exact .aside h (by simp [unresolved, goto, stage])
  · exact hn _

lemma Orderly.opened (h : e.ctx.Orderly) (outcome : Except ConnectionError Unit) :
    (e.opened outcome).Orderly := by
  cases outcome with
  | error cause => exact .aside h (by simp [Engine.opened, fail, goto, stage])
  | ok u =>
    rw [Engine.opened]
    split_ifs with hs
    · apply Orderly.of_inUse
      rw [turn_ctx]
      exact .inr (by rw [hs]; rfl)
    · exact .aside h (by simp [goto, stage])
    · exact .aside h (by simp [fail, goto, stage])

lemma Orderly.step_opening (h : e.ctx.Orderly) (hp : e.stage = .opening) (hs : e.Step events e') :
    e'.Orderly := by
  obtain ⟨config, ctx, thenLoop, point⟩ := e
  have waits {p : Point} {c : Context} (hc : c.Orderly)
      (hq : Engine.stage ⟨config, c, thenLoop, p⟩ = .opening) :
      Engine.Orderly ⟨config, c, thenLoop, p⟩ := .aside hc (by simp [hq])
  cases point with
  | sendSyn | sendSynAck =>
    obtain ⟨outcome, rfl⟩ := Request.Answered.of_transmit hs
    exact Orderly.onOpening (waits h rfl) h outcome
  | ackSynAck =>
    obtain ⟨outcome, rfl⟩ := Request.Answered.of_transmit hs
    exact Orderly.onOpening (waits (h.transition (by decide)) rfl) h outcome
  | awaitSynAck =>
    obtain ⟨outcome, -, rfl⟩ := hs
    refine Orderly.onReply h (fun g => ?_) outcome
    rw [onSynAck]
    split_ifs <;> exact waits h rfl
  | awaitSyn =>
    obtain ⟨outcome, -, rfl⟩ := hs
    refine Orderly.onReply h (fun g => ?_) outcome
    rw [onSyn]
    split_ifs
    · exact waits
        (Context.Orderly.transition (c := { ctx with expected := _, next := _ }) h (by decide)) rfl
    · exact waits h rfl
  | awaitFirstAck =>
    obtain ⟨outcome, -, rfl⟩ := hs
    refine Orderly.onReply h (fun g => ?_) outcome
    rw [onFirstAck]
    split_ifs
    · exact waits (Context.Orderly.transition (c := { ctx with next := _ }) h (by decide)) rfl
    · exact waits h rfl
  | unblock outcome =>
    obtain ⟨-, rfl⟩ := hs
    exact Orderly.opened h outcome
  | _ => cases hp

theorem Orderly.step (h : e.Orderly) (hs : e.Step events e') : e'.Orderly := by
  cases hp : e.stage with
  | opening => exact Orderly.step_opening h.1 hp hs
  | serving => exact .of_inUse ((loopStep_of_step hp hs).inUse (h.2 hp))
  | finished => exact absurd hp (stage_ne_finished hs)

lemma orderly_begin (config : Config) {ctx : Context} (h : ctx.Orderly) (call : Call) :
    (call.begin config ctx).Orderly := by
  have opens (role : Role) (thenLoop : Bool) :
      Engine.Orderly { handshake config ctx role with thenLoop := thenLoop } := by
    unfold handshake
    cases config.validate with
    | error cause => exact .aside h (by simp [stage])
    | ok u =>
      cases role with
      | active => exact .aside (h.transition (by decide)) (by simp [stage])
      | passive => exact .aside (h.transition (by decide)) (by simp [stage])
  cases call with
  | handshake role => exact opens role false
  | run role => exact opens role true
  | loop =>
    rw [Call.begin, loop]
    split_ifs with hs
    · apply Orderly.of_inUse
      rw [turn_ctx]
      exact h.inUse hs
    · exact .aside h (by simp [fail, goto, stage])

lemma fixed_handshake (config : Config) (ctx : Context) (role : Role) :
    (handshake config ctx role).fixed = (config, false, ctx.isn) := by
  unfold handshake
  cases config.validate with
  | error cause => rfl
  | ok u => cases role <;> rfl

lemma isn_begin (config : Config) (ctx : Context) (call : Call) :
    (call.begin config ctx).ctx.isn = ctx.isn := by
  cases call with
  | handshake role | run role => exact congrArg (fun f => f.2.2) (fixed_handshake config ctx role)
  | loop => rw [Call.begin, (stage_loop config ctx).2.2]

end Engine

lemma Machine.Steps.fixed {π σ : Type} {P : Policy π} {H : Host σ} {m m' : Machine π σ} {t : Trace}
    (h : m.Steps P H t m') : m'.engine.fixed = m.engine.fixed := by
  apply h.keeps (I := fun _ e => e.fixed = m.engine.fixed) rfl
  intro t e events e' he hs
  exact (Engine.fixed_step hs).trans he

namespace Calls

variable {π σ : Type} {P : Policy π} {H : Host σ} {config : Config} {isn : SeqNum}
  {past : List Ended} {ctx : Context}

theorem orderly (h : Calls P H config isn past ctx) : ctx.Orderly := by
  induction h with
  | fresh => exact .inr ⟨rfl, rfl, rfl, rfl⟩
  | call _ hsteps _ ih =>
    have hend := hsteps.keeps (I := fun _ e => e.Orderly) (Engine.orderly_begin _ ih _)
      fun h hs => h.step hs
    exact hend.1

theorem isn_eq (h : Calls P H config isn past ctx) : ctx.isn = isn := by
  induction h with
  | fresh => rfl
  | @call past ctx call policy host t m result _ hsteps _ ih =>
    rw [← ih, ← Engine.isn_begin config ctx call]
    exact Engine.isn_eq hsteps.fixed

end Calls

end DatagramStream
