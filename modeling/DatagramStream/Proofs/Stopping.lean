import DatagramStream.Proofs.Lockstep
import DatagramStream.Proofs.Scripted
import DatagramStream.Proofs.Session.Basic

/-! The teardown mode decides when a connection stops, and nothing else. -/

namespace DatagramStream

namespace State

lemma next_eq_finWait2 {s : State} {t : Trigger} (ht : t ≠ .recvFin)
    (hs : t = .recvAck → s ≠ .finWait1) :
    (s.next? t).getD s = .finWait2 ↔ s = .finWait2 := by
  cases s <;> cases t <;> simp_all [next?]

lemma recvFin_ne_finWait2 (s : State) : (s.next? .recvFin).getD s ≠ .finWait2 := by
  cases s <;> simp [next?]

end State

def Context.Agrees (c : Context) (done : Bool) : Prop :=
  if c.state = .finWait2 then c.done = true ∧ done = false else c.done = done

namespace Context.Agrees

variable {c : Context} {done : Bool}

lemma of_ne (h : c.Agrees done) (hs : c.state ≠ .finWait2) : c.done = done := by
  rwa [Agrees, if_neg hs] at h

lemma of_eq (h : c.Agrees done) (hs : c.state = .finWait2) : c.done = true ∧ done = false := by
  rwa [Agrees, if_pos hs] at h

lemma transition {t : Trigger} (h : c.Agrees done) (ht : t ≠ .recvFin)
    (hs : t = .recvAck → c.state ≠ .finWait1) :
    (c.transition t).Agrees done := by
  have hsame := State.next_eq_finWait2 ht hs
  rw [Agrees] at h ⊢
  simp only [Context.transition, hsame]
  exact h

lemma recvFin (h : c.Agrees done) (hs : c.state ≠ .finWait2) :
    (c.transition .recvFin).Agrees done := by
  -- FIN_WAIT_2, where the modes differ, is left with the peer's FIN, and never entered.
  have hover : (c.transition .recvFin).state ≠ .finWait2 := State.recvFin_ne_finWait2 c.state
  rw [Agrees, if_neg hover]
  exact h.of_ne hs

end Context.Agrees

namespace Engine

def patient (done : Bool) (e : Engine) : Engine :=
  { e with config.teardown := .fourWay, ctx.done := done }

inductive Beside : Engine → Engine → Prop
  | along {e : Engine} {done : Bool} : e.config.teardown = .awaitAck → e.ctx.Agrees done →
      Beside e (e.patient done)
  | telling {e : Engine} {done : Bool} (rest : Signals) : e.config.teardown = .awaitAck →
      e.point = .tellPeerClosed rest → (e.ctx.state ≠ .timeWait → e.ctx.Agrees done) →
        Beside e (e.patient done)
  | stopped {e : Engine} : e.ctx.state = .finWait2 → e.ctx.done = true →
      Beside (e.goto (.ended (.ok ()))) ((e.patient false).goto .wait)

variable {e : Engine} {done : Bool}

@[simp] lemma patient_state (done : Bool) (e : Engine) :
    (e.patient done).ctx.state = e.ctx.state :=
  rfl

@[simp] lemma patient_peerFinSeen (done : Bool) (e : Engine) :
    (e.patient done).ctx.peerFinSeen = e.ctx.peerFinSeen := rfl

@[simp] lemma patient_inOrder (done : Bool) (e : Engine) (seq : SeqNum) :
    (e.patient done).ctx.inOrder seq = e.ctx.inOrder seq := rfl

@[simp] lemma patient_thenLoop (done : Bool) (e : Engine) :
    (e.patient done).thenLoop = e.thenLoop := rfl

@[simp] lemma patient_arrival (done : Bool) (e : Engine) (answer : Except IoError Bytes) :
    (e.patient done).arrival answer = e.arrival answer := rfl

@[simp] lemma patient_acksSyn (done : Bool) (e : Engine) (g : Segment) :
    (e.patient done).acksSyn g = e.acksSyn g :=
  rfl

lemma beside_goto (hm : e.config.teardown = .awaitAck) (ha : e.ctx.Agrees done) (p : Point) :
    Beside (e.goto p) ((e.patient done).goto p) :=
  .along hm ha

lemma beside_turn (hm : e.config.teardown = .awaitAck) (ha : e.ctx.Agrees done) :
    Beside e.turn (e.patient done).turn := by
  rw [turn, turn]
  by_cases hs : e.ctx.state = .finWait2
  · obtain ⟨hd, rfl⟩ := ha.of_eq hs
    rw [if_pos hd]
    exact .stopped hs hd
  · obtain rfl := ha.of_ne hs
    exact beside_goto hm ha _

lemma beside_resending (hm : e.config.teardown = .awaitAck) (ha : e.ctx.Agrees done)
    (datagrams : List Bytes) :
    Beside (e.resending datagrams) ((e.patient done).resending datagrams) := by
  cases datagrams with
  | nil => exact beside_turn hm ha
  | cons datagram more => exact beside_goto hm ha _

lemma beside_react (hm : e.config.teardown = .awaitAck) (ha : e.ctx.Agrees done) (rest : Signals) :
    Beside (e.react rest) ((e.patient done).react rest) := by
  rw [react, react, patient_state]
  split_ifs <;> exact beside_goto hm ha _

lemma beside_opened (hm : e.config.teardown = .awaitAck) (ha : e.ctx.Agrees done)
    (outcome : Except ConnectionError Unit) :
    Beside (e.opened outcome) ((e.patient done).opened outcome) := by
  cases outcome with
  | error cause => exact beside_goto hm ha _
  | ok u =>
    rw [opened, opened, patient_state, patient_thenLoop]
    split_ifs
    · exact beside_turn hm ha
    · exact beside_goto hm ha _
    · exact beside_goto hm ha _

lemma beside_onSuccess {α : Type} {next next' : α → Engine} (hm : e.config.teardown = .awaitAck)
    (ha : e.ctx.Agrees done) (h : ∀ a, Beside (next a) (next' a)) (outcome : Except IoError α) :
    Beside (e.onSuccess next outcome) ((e.patient done).onSuccess next' outcome) :=
  related_onSuccess (fun _ => beside_goto hm ha _) h outcome

lemma beside_onOpening {next next' : Engine} (hm : e.config.teardown = .awaitAck)
    (ha : e.ctx.Agrees done) (h : Beside next next') (outcome : Except IoError Unit) :
    Beside (e.onOpening next outcome) ((e.patient done).onOpening next' outcome) := by
  cases outcome with
  | error cause => exact beside_goto hm ha _
  | ok u => exact h

lemma beside_onReply {onSegment : Engine → Segment → Engine} (hm : e.config.teardown = .awaitAck)
    (ha : e.ctx.Agrees done) (h : ∀ g, Beside (onSegment e g) (onSegment (e.patient done) g))
    (answer : Except IoError Bytes) :
    Beside (e.onReply onSegment answer) ((e.patient done).onReply onSegment answer) := by
  rw [onReply, onReply, patient_arrival]
  cases e.arrival answer with
  | error cause => exact beside_goto hm ha _
  | ok found =>
    cases found with
    | none => exact beside_goto hm ha _
    | some g => exact h g

lemma onFinAcked_patient (hm : e.config.teardown = .awaitAck) (ha : e.ctx.Agrees done)
    (hl : e.ctx.Linked e.config.teardown) (hs : e.ctx.state.awaitsFinAck = true) :
    ∃ done', (e.patient done).onFinAcked = e.onFinAcked.patient done' ∧
      e.onFinAcked.ctx.Agrees done' := by
  have hd := hl.done
  obtain ⟨config, ⟨state, isn, next, expected, mark, seen, sent, received⟩, thenLoop, point⟩ := e
  simp only at hm hd hs
  subst hd
  cases state with
  | finWait1 =>
    obtain rfl := ha.of_ne (by simp)
    refine ⟨false, rfl, ?_, rfl⟩
    show (false || config.teardown == .awaitAck) = true
    rw [hm]
    rfl
  | closing | lastAck => exact ⟨true, rfl, rfl⟩
  | _ => cases hs

lemma onAck_patient (hm : e.config.teardown = .awaitAck) (ha : e.ctx.Agrees done)
    (hl : e.ctx.Linked e.config.teardown) (ack : SeqNum) :
    ∃ done', (e.patient done).onAck ack = (e.onAck ack).patient done' ∧
      (e.onAck ack).ctx.Agrees done' := by
  have hcheck : (e.patient done).config.acks.accepts ack (e.patient done).ctx.next =
      e.config.acks.accepts ack e.ctx.next := rfl
  rw [onAck, onAck, hcheck, patient_state]
  split_ifs with hacked
  · simp only [Bool.and_eq_true] at hacked
    exact onFinAcked_patient hm ha hl hacked.1
  · exact ⟨done, rfl, ha⟩

lemma beside_onContent (hm : e.config.teardown = .awaitAck) (ha : e.ctx.Agrees done) (g : Segment)
    (rest : Signals) : Beside (e.onContent g rest) ((e.patient done).onContent g rest) := by
  rw [onContent, onContent, patient_inOrder, patient_state]
  split_ifs
  · exact .along
      (e := { e with ctx := { e.ctx with expected := g.header.seq + 1 }, point := .ackFin rest })
      hm ha
  · exact beside_goto hm ha _
  · exact beside_react hm ha rest

lemma beside_onSegment (hm : e.config.teardown = .awaitAck) (ha : e.ctx.Agrees done) (g : Segment)
    (rest : Signals) : Beside (e.onSegment g rest) ((e.patient done).onSegment g rest) := by
  rw [onSegment, onSegment]
  split_ifs
  · exact beside_goto hm ha _
  · exact beside_onContent hm ha g rest

lemma closeIfTimeWait_patient (ha : e.ctx.state ≠ .timeWait → e.ctx.Agrees done) :
    ∃ done', (e.patient done).closeIfTimeWait = e.closeIfTimeWait.patient done' ∧
      e.closeIfTimeWait.ctx.Agrees done' := by
  rw [closeIfTimeWait, closeIfTimeWait, patient_state]
  split_ifs with hs
  · refine ⟨true, rfl, ?_⟩
    rw [Context.Agrees, if_neg (by simp [hs])]
  · exact ⟨done, rfl, ha hs⟩

lemma beside_closed (hm : e.config.teardown = .awaitAck)
    (ha : e.ctx.state ≠ .timeWait → e.ctx.Agrees done) (rest : Signals) :
    Beside (e.closeIfTimeWait.react rest) ((e.patient done).closeIfTimeWait.react rest) := by
  obtain ⟨done', hsame, ha'⟩ := closeIfTimeWait_patient ha
  rw [hsame]
  exact beside_react (by rwa [closeIfTimeWait_config]) ha' rest

lemma beside_onFinAnswered (hm : e.config.teardown = .awaitAck) (ha : e.ctx.Agrees done)
    (rest : Signals) :
    Beside (e.onFinAnswered rest) ((e.patient done).onFinAnswered rest) := by
  rw [onFinAnswered, onFinAnswered, patient_peerFinSeen]
  split_ifs
  · exact beside_closed hm (fun _ => ha) rest
  · refine .telling (e := { e with
      ctx := { e.ctx with peerFinSeen := true }.transition .recvFin,
        point := .tellPeerClosed rest })
      rest hm rfl fun hs => ?_
    refine Context.Agrees.recvFin (c := { e.ctx with peerFinSeen := true }) ha fun hhalf => hs ?_
    simp only [Context.transition]
    rw [hhalf]
    rfl

theorem request_beside (hm : e.config.teardown = .awaitAck) (ha : e.ctx.Agrees done)
    (hc : e.Coherent) :
    Request.Alike Beside e.request (e.patient done).request := by
  obtain ⟨config, ctx, thenLoop, point⟩ := e
  cases point with
  | sendSyn | sendSynAck => exact .transmit (beside_onOpening hm ha (beside_goto hm ha _))
  | ackSynAck =>
    apply Request.Alike.transmit
    apply beside_onOpening hm ha
    exact .along (e := ⟨config, ctx.transition .recvSynAck, thenLoop, .unblock (.ok ())⟩) hm
      (ha.transition (by decide) (by simp))
  | awaitSynAck =>
    refine .receive (beside_onReply hm ha fun g => ?_)
    rw [onSynAck, onSynAck, patient_acksSyn]
    split_ifs
    · exact .along
        (e := ⟨config, { ctx with expected := g.header.seq + 1, next := ctx.isn + 1 }, thenLoop,
          .ackSynAck⟩)
        hm ha
    · exact beside_goto hm ha _
  | awaitSyn =>
    refine .receive (beside_onReply hm ha fun g => ?_)
    rw [onSyn, onSyn]
    split_ifs
    · exact .along
        (e := ⟨config,
          { ctx with expected := g.header.seq + 1, next := ctx.isn }.transition .recvSyn,
          thenLoop, .sendSynAck⟩)
        hm
        (Context.Agrees.transition
          (c := { ctx with expected := g.header.seq + 1, next := ctx.isn })
          ha (by decide) (by simp))
    · exact beside_goto hm ha _
  | awaitFirstAck =>
    obtain ⟨peer, hctx⟩ := hc
    have hstate : ctx.state = .synReceived := by
      simp only at hctx
      rw [hctx]
    refine .receive (beside_onReply hm ha fun g => ?_)
    rw [onFirstAck, onFirstAck, patient_acksSyn]
    split_ifs
    · exact .along
        (e := ⟨config, { ctx with next := ctx.isn + 1 }.transition .recvAck, thenLoop,
          .unblock (.ok ())⟩)
        hm
        (Context.Agrees.transition (c := { ctx with next := ctx.isn + 1 })
          ha (by decide) (by simp [hstate]))
    · exact beside_goto hm ha _
  | unblock outcome => exact .unblock (beside_opened hm ha outcome)
  | wait => exact .wait (beside_onSuccess hm ha fun ready => beside_react hm ha _)
  | read rest =>
    refine .read (beside_onSuccess hm ha fun data => ?_)
    split_ifs
    · exact beside_react hm ha rest
    · exact beside_goto hm ha _
  | sendData payload rest =>
    refine .transmit (beside_onSuccess hm ha fun _ => ?_)
    exact beside_react
      (e := ⟨config, ctx.recordSent .ackOnly payload.length, thenLoop, .sendData payload rest⟩)
      hm ha rest
  | receive rest =>
    apply Request.Alike.receive
    intro answer
    rw [patient_arrival]
    cases arrival _ answer with
    | error cause => exact beside_goto hm ha _
    | ok found =>
      cases found with
      | none => exact beside_react hm ha rest
      | some g => exact beside_onSegment hm ha g rest
  | noteAck g rest =>
    apply Request.Alike.noteAck
    obtain ⟨done', hsame, ha'⟩ := onAck_patient hm ha hc.1 g.header.ack
    rw [hsame]
    exact beside_onContent (by rwa [config_onAck]) ha' g rest
  | ackFin rest => exact .transmit (beside_onSuccess hm ha fun _ => beside_onFinAnswered hm ha rest)
  | tellPeerClosed rest => exact .peerClosed (beside_closed hm (fun _ => ha) rest)
  | deliver payload rest =>
    refine .write (beside_onSuccess hm ha fun _ => ?_)
    exact .along (e := ⟨config, ctx.recordDelivered payload.length, thenLoop, .ackData rest⟩) hm ha
  | ackData rest => exact .transmit (beside_onSuccess hm ha fun _ => beside_react hm ha rest)
  | sendFin =>
    refine .transmit (beside_onSuccess hm ha fun _ => ?_)
    exact .along
      (e := ⟨config, (ctx.recordSent .finOnly 0).transition .sendFin, thenLoop, .receive .empty⟩)
      hm (Context.Agrees.transition (c := ctx.recordSent .finOnly 0) ha (by decide) (by simp))
  | collectDue => exact .collectDue (beside_resending hm ha)
  | resend datagram more =>
    exact .resend (beside_onSuccess hm ha fun _ => beside_resending hm ha more)
  | ended result => exact .finished result

lemma Beside.request_alike {e' : Engine} (h : e.Beside e') (hc : e.Coherent)
    (hr : e.result? = none) :
    Request.Alike Beside e.request e'.request := by
  cases h with
  | along hm ha => exact request_beside hm ha hc
  | telling rest hm hp ha =>
    obtain ⟨config, ctx, thenLoop, point⟩ := e
    obtain rfl : point = .tellPeerClosed rest := hp
    exact .peerClosed (beside_closed hm ha rest)
  | stopped => cases hr

lemma Beside.of_ne {e' : Engine} (h : e.Beside e') (hr : e.result?.isSome)
    (hs : e.ctx.state ≠ .finWait2) :
    e'.result? = e.result? ∧ e'.ctx = e.ctx := by
  cases h with
  | along hm ha =>
    obtain rfl := ha.of_ne hs
    exact ⟨rfl, rfl⟩
  | telling rest hm hp ha =>
    rw [result?, hp] at hr
    cases hr
  | stopped hhalf hd => exact absurd hhalf hs

lemma Beside.of_eq {e' : Engine} (h : e.Beside e') (hs : e.ctx.state = .finWait2) :
    e'.ctx.done = false ∧ e.ctx = { e'.ctx with done := true } := by
  cases h with
  | along hm ha =>
    obtain ⟨hd, rfl⟩ := ha.of_eq hs
    exact ⟨rfl, by rw [← hd]; rfl⟩
  | telling rest hm hp ha =>
    obtain ⟨hd, rfl⟩ := (ha (by rw [hs]; decide)).of_eq hs
    exact ⟨rfl, by rw [← hd]; rfl⟩
  | @stopped e₀ hhalf hd =>
    refine ⟨rfl, ?_⟩
    show e₀.ctx = { e₀.ctx with done := true }
    rw [← hd]

lemma beside_run (config : Config) (isn : SeqNum) (role : Role) :
    Beside (run { config with teardown := .awaitAck } (.new isn) role)
      (run { config with teardown := .fourWay } (.new isn) role) := by
  have hvalid (teardown : Teardown) :
      Config.validate { config with teardown := teardown } = config.validate := rfl
  unfold run handshake
  rw [hvalid .awaitAck, hvalid .fourWay]
  cases config.validate with
  | error cause =>
    exact .along
      (e := ⟨{ config with teardown := .awaitAck }, .new isn, true, .unblock (.error cause)⟩)
      rfl rfl
  | ok u =>
    cases role with
    | active =>
      exact .along
        (e := ⟨{ config with teardown := .awaitAck }, (Context.new isn).transition .sendSyn, true,
          .sendSyn⟩)
        rfl rfl
    | passive =>
      exact .along
        (e := ⟨{ config with teardown := .awaitAck }, (Context.new isn).transition .listen, true,
          .awaitSyn⟩)
        rfl rfl

end Engine

namespace Machine

variable {π σ : Type} {P : Policy π} {H : Host σ} {m m₁ : Machine π σ} {t : Trace}

lemma Runs.beside (h : Runs P H m t m₁) {e' : Engine} (hb : m.engine.Beside e')
    (hc : m.engine.Coherent) :
    ∃ e₁, Runs P H ⟨e', m.policy, m.host⟩ t ⟨e₁, m₁.policy, m₁.host⟩ ∧ m₁.engine.Beside e₁ := by
  induction h generalizing e' with
  | refl m => exact ⟨e', .refl _, hb⟩
  | @step m m' m'' events t hs _ ih =>
    have hr : m.engine.result? = none := by
      by_contra hend
      rw [step_ended (Option.isSome_iff_ne_none.mpr hend)] at hs
      cases hs
    have hw (interest : Signals) (next : Except IoError Signals → Engine)
        (_ : m.engine.request = .wait interest next) (deadline : Option Millis) :
        H.wait interest deadline (id m.host) = (H.wait interest deadline m.host).map
          (Prod.map id id) := by
      rw [Prod.map_id, Option.map_id]
      rfl
    obtain ⟨e₁, hs', hb₁⟩ := step_alike H.ignores_id (hb.request_alike hc hr) hw hs
    obtain ⟨e₂, hruns, hb₂⟩ := ih hb₁ (Engine.coherent_step hc (step_engine hs))
    exact ⟨e₂, .step hs' hruns, hb₂⟩

/-- A call that stops once its FIN is acknowledged makes the same calls as one that waits for the
peer's FIN, as far as it goes, and the other one goes on only where it ends with its own direction
closed. -/
theorem run_teardown (P : Policy π) (policy : π) (config : Config) (isn : SeqNum) (role : Role)
    (s : Script) :
    ∃ enough, ∀ fuel ≥ enough, ∀ longer ≥ enough, ∃ result result',
      let early := run P Script.host fuel
        ⟨.run { config with teardown := .awaitAck } (.new isn) role, policy, s⟩
      let start : Machine π Script :=
        ⟨.run { config with teardown := .fourWay } (.new isn) role, policy, s⟩
      let full := run P Script.host longer start
      early.1.engine.result? = some result ∧ full.1.engine.result? = some result' ∧
        early.2 <+: full.2 ∧
        (early.1.engine.ctx.state ≠ .finWait2 →
          full.2 = early.2 ∧ result' = result ∧ full.1.engine.ctx = early.1.engine.ctx) ∧
        (early.1.engine.ctx.state = .finWait2 → ∃ part,
          let there := run P Script.host part start
          there.2 = early.2 ∧ there.1.engine.ctx.done = false ∧
            early.1.engine.ctx = { there.1.engine.ctx with done := true }) := by
  have hbeside := Engine.beside_run config isn role
  have hcoherent := Engine.coherent_run { config with teardown := .awaitAck } isn role
  generalize Engine.run { config with teardown := .awaitAck } (.new isn) role = e at *
  generalize Engine.run { config with teardown := .fourWay } (.new isn) role = e' at *
  obtain ⟨t, m, hruns, hend⟩ := exists_ended_of_policy P ⟨e, policy, s⟩
  obtain ⟨e₁, hstart, hb⟩ := hruns.beside hbeside hcoherent
  obtain ⟨u, m', hrest, hend'⟩ := exists_ended_of_policy P ⟨e₁, m.policy, m.host⟩
  obtain ⟨part, hpart⟩ := hstart.exists_fuel
  obtain ⟨enough, hrun⟩ := hruns.exists_run hend
  obtain ⟨enough', hrun'⟩ := (hstart.trans hrest).exists_run hend'
  obtain ⟨result, hresult⟩ := Option.isSome_iff_exists.mp hend
  obtain ⟨result', hresult'⟩ := Option.isSome_iff_exists.mp hend'
  refine ⟨max enough enough', fun fuel hfuel longer hlonger => ⟨result, result', ?_⟩⟩
  intro early start full
  have hearly : early = (m, t) := hrun fuel (Nat.le_trans (Nat.le_max_left _ _) hfuel)
  have hfull : full = (m', t ++ u) := hrun' longer (Nat.le_trans (Nat.le_max_right _ _) hlonger)
  rw [hearly, hfull]
  refine ⟨hresult, hresult', List.prefix_append t u, fun hs => ?_, fun hs => ⟨part, ?_⟩⟩
  · obtain ⟨hsame, hctx⟩ := hb.of_ne hend hs
    obtain ⟨rfl, rfl⟩ := hrest.of_ended (by rwa [hsame])
    refine ⟨List.append_nil t, ?_, hctx⟩
    rwa [hsame, hresult, Option.some.injEq, eq_comm] at hresult'
  · obtain ⟨hdone, hctx⟩ := hb.of_eq hs
    have hthere : run P Script.host part start = (⟨e₁, m.policy, m.host⟩, t) := hpart
    rw [hthere]
    exact ⟨rfl, hdone, hctx⟩

def parting : Script where
  net := [Script.incoming .synAck 100 2 [], Script.incoming .ackOnly 101 3 [],
    Script.incoming .finOnly 101 3 []]
  events := [.ok { closeRequested := true }, .ok .network]

example :
    let early := run .inert Script.host 20
      ⟨.run { teardown := .awaitAck } (.new 1) .active, (), parting⟩
    let full := run .inert Script.host 20
      ⟨.run { teardown := .fourWay } (.new 1) .active, (), parting⟩
    early.1.engine.ctx.state = .finWait2 ∧ full.1.engine.ctx.state = .timeWait ∧
      early.2.length + 6 = full.2.length := by
  decide +kernel

end Machine

end DatagramStream
