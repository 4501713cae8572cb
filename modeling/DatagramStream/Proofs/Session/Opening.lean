import DatagramStream.Proofs.Session.Basic

/-! What a handshake on a fresh connection leaves when it succeeds. -/

namespace DatagramStream

namespace Engine

def Greeted (t : Trace) (e : Engine) : Prop :=
  ∃ syn more, t.arrived = syn :: more ∧ syn.header.flags.syn = true ∧
    e.ctx.expected = syn.header.seq + 1

def Opening (t : Trace) (e : Engine) : Prop :=
  match e.point with
  | .sendSyn | .awaitSynAck | .awaitSyn => e.config.validate = .ok () ∧ t.arrived = []
  | .ackSynAck | .sendSynAck | .awaitFirstAck => e.config.validate = .ok () ∧ e.Greeted t
  | .unblock (.ok ()) =>
    e.config.validate = .ok () ∧ (e.ctx.state = .established → e.Greeted t)
  | .unblock (.error _) => True
  | _ => False

structure Met (opening : Trace) (e : Engine) : Prop where
  valid : e.config.validate = .ok ()
  met : ∃ syn more, opening.arrived = syn :: more ∧ syn.header.flags.syn = true ∧
    e.ctx = .established e.ctx.isn syn.header.seq

variable {e e' : Engine} {t : Trace} {events : List Event}

lemma arrived_of_arrival {answer : Except IoError Bytes} {found : Option Segment}
    (h : e.arrival answer = .ok found) :
    Trace.arrived [.receive e.config.receiveCapacity answer] = found.toList := by
  cases answer with
  | error cause => cases h
  | ok d =>
    obtain ⟨rfl, ha⟩ | ⟨cause, -, hb, ha⟩ | ⟨g, hb, ha⟩ := arrival_cases e d
    · rw [ha] at h
      cases h
    · rw [ha] at h
      cases h
      exact Trace.arrived_of_bad hb
    · rw [ha] at h
      cases h
      exact Trace.arrived_of_good hb

lemma Greeted.append (h : e.Greeted t) (hx : e'.ctx.expected = e.ctx.expected) (u : Trace) :
    e'.Greeted (t ++ u) := by
  obtain ⟨syn, more, ha, hs, he⟩ := h
  refine ⟨syn, more ++ u.arrived, ?_, hs, hx.trans he⟩
  rw [Trace.arrived_append, ha, List.cons_append]

lemma Greeted.met (h : e.Greeted t)
    (hc : e.ctx.state = .established → ∃ peer, e.ctx = .established e.ctx.isn peer)
    (hs : e.ctx.state = .established) :
    (∃ syn more, t.arrived = syn :: more ∧ syn.header.flags.syn = true ∧
      e.ctx = .established e.ctx.isn syn.header.seq) ∧ e.ctx.done = false := by
  obtain ⟨syn, more, ha, hsyn, hx⟩ := h
  obtain ⟨peer, hctx⟩ := hc hs
  have hp : peer + 1 = syn.header.seq + 1 := by
    rw [← hx, hctx]
    rfl
  refine ⟨⟨syn, more, ha, hsyn, ?_⟩, by rw [hctx]; rfl⟩
  rw [Context.established, ← hp]
  exact hctx

lemma opened_of_established (hs : e.ctx.state = .established) (hd : e.ctx.done = false) :
    e.opened (.ok ()) = e.goto (if e.thenLoop then .wait else .ended (.ok ())) := by
  simp only [opened, if_pos hs, turn, hd, Bool.false_eq_true, if_false]
  split_ifs <;> rfl

lemma opening_transmit {g : Segment} {next : Except IoError Unit → Engine}
    (hs : (Request.transmit g next).Answered events e') :
    Event.unblock ∉ events ∧ Trace.closings events = 0 ∧ Trace.arrived events = [] ∧
      ∃ outcome, e' = next outcome := by
  obtain ⟨rfl, rfl⟩ | ⟨cause, rfl, rfl⟩ := hs
  · exact ⟨by simp, rfl, rfl, .ok (), rfl⟩
  · exact ⟨by simp, rfl, rfl, .error cause, rfl⟩

namespace Opening

lemma onOpening {next : Engine} {outcome : Except IoError Unit} (h : next.Opening t) :
    (e.onOpening next outcome).Opening t := by
  cases outcome with
  | error cause => exact trivial
  | ok u => exact h

lemma onReply {onSegment : Engine → Segment → Engine} {answer : Except IoError Bytes}
    (hv : e.config.validate = .ok ()) (hs : e.ctx.state ≠ .established)
    (hn : ∀ g, Trace.arrived [.receive e.config.receiveCapacity answer] = [g] →
      (onSegment e g).Opening (t ++ [.receive e.config.receiveCapacity answer])) :
    (e.onReply onSegment answer).Opening (t ++ [.receive e.config.receiveCapacity answer]) := by
  rw [Engine.onReply]
  cases ha : e.arrival answer with
  | error cause => exact trivial
  | ok found =>
    have hf := arrived_of_arrival ha
    cases found with
    | none => exact ⟨hv, fun hc => absurd hc hs⟩
    | some g => exact hn g hf

lemma unresolved (hv : e.config.validate = .ok ()) (hs : e.ctx.state ≠ .established) :
    e.unresolved.Opening t :=
  ⟨hv, fun hc => absurd hc hs⟩

theorem step (h : e.Opening t) (hc : e.Coherent) (hs : e.Step events e') :
    Trace.closings events = 0 ∧
      (e'.Opening (t ++ events) ∧ Event.unblock ∉ events ∨
        events = [.unblock] ∧ ((∃ cause, e' = e.fail cause) ∨
          e'.Met t ∧ e'.point = if e.thenLoop then .wait else .ended (.ok ()))) := by
  obtain ⟨config, ctx, thenLoop, point⟩ := e
  cases point with
  | sendSyn =>
    obtain ⟨hu, hn, ha, outcome, rfl⟩ := opening_transmit hs
    refine ⟨hn, .inl ⟨onOpening ⟨h.1, ?_⟩, hu⟩⟩
    rw [Trace.arrived_append, h.2, ha, List.append_nil]
  | awaitSynAck =>
    obtain ⟨outcome, rfl, rfl⟩ := hs
    change ctx = _ at hc
    have hst : ctx.state ≠ .established := by
      rw [hc]
      simp
    refine ⟨rfl, .inl ⟨onReply h.1 hst fun g hg => ?_, by simp⟩⟩
    rw [onSynAck]
    split_ifs with hsyn
    · simp only [Bool.and_eq_true] at hsyn
      refine ⟨h.1, g, [], ?_, hsyn.1, rfl⟩
      rw [Trace.arrived_append, h.2, hg, List.nil_append]
    · exact unresolved h.1 hst
  | ackSynAck =>
    obtain ⟨hu, hn, -, outcome, rfl⟩ := opening_transmit hs
    exact ⟨hn, .inl ⟨onOpening ⟨h.1, fun _ => h.2.append rfl _⟩, hu⟩⟩
  | awaitSyn =>
    obtain ⟨outcome, rfl, rfl⟩ := hs
    change ctx = _ at hc
    have hst : ctx.state ≠ .established := by
      rw [hc]
      simp
    refine ⟨rfl, .inl ⟨onReply h.1 hst fun g hg => ?_, by simp⟩⟩
    rw [onSyn]
    split_ifs with hsyn
    · refine ⟨h.1, g, [], ?_, hsyn, rfl⟩
      rw [Trace.arrived_append, h.2, hg, List.nil_append]
    · exact unresolved h.1 hst
  | sendSynAck =>
    obtain ⟨hu, hn, -, outcome, rfl⟩ := opening_transmit hs
    exact ⟨hn, .inl ⟨onOpening ⟨h.1, h.2.append rfl _⟩, hu⟩⟩
  | awaitFirstAck =>
    obtain ⟨outcome, rfl, rfl⟩ := hs
    obtain ⟨peer, hc⟩ := hc
    have hst : ctx.state ≠ .established := by
      rw [show ctx = _ from hc]
      simp
    refine ⟨rfl, .inl ⟨onReply h.1 hst fun g hg => ?_, by simp⟩⟩
    rw [onFirstAck]
    split_ifs
    · exact ⟨h.1, fun _ => h.2.append rfl _⟩
    · exact unresolved h.1 hst
  | unblock outcome =>
    obtain ⟨rfl, rfl⟩ := hs
    refine ⟨rfl, .inr ⟨rfl, ?_⟩⟩
    cases outcome with
    | error cause => exact .inl ⟨cause, rfl⟩
    | ok u =>
      obtain ⟨hv, hg⟩ := h
      by_cases hst : ctx.state = .established
      · obtain ⟨hm, hd⟩ := hg hst |>.met hc hst
        right
        rw [opened_of_established hst hd]
        exact ⟨⟨hv, hm⟩, rfl⟩
      · left
        simp only [opened, if_neg hst]
        exact ⟨_, rfl⟩
  | _ => exact h.elim

end Opening

lemma Opening.stage_eq (h : e.Opening t) : e.stage = .opening := by
  obtain ⟨config, ctx, thenLoop, point⟩ := e
  cases point <;> first | rfl | exact h.elim

lemma fixed_step (hs : e.Step events e') : e'.fixed = e.fixed := by
  obtain ⟨config, ctx, thenLoop, point⟩ := e
  have reply {p : Point} {onSegment : Engine → Segment → Engine} {answer : Except IoError Bytes}
      (hn : ∀ g, (onSegment ⟨config, ctx, thenLoop, p⟩ g).fixed = (config, thenLoop, ctx.isn)) :
      (Engine.onReply ⟨config, ctx, thenLoop, p⟩ onSegment answer).fixed =
        (config, thenLoop, ctx.isn) := by
    rw [Engine.onReply]
    split
    · rfl
    · rfl
    · exact hn _
  cases point with
  | sendSyn | ackSynAck | sendSynAck =>
    obtain ⟨-, -, -, outcome, rfl⟩ := opening_transmit hs
    cases outcome <;> rfl
  | awaitSynAck | awaitSyn | awaitFirstAck =>
    obtain ⟨outcome, rfl, rfl⟩ := hs
    apply reply
    intro g
    simp only [onSynAck, onSyn, onFirstAck]
    split_ifs <;> rfl
  | unblock outcome =>
    obtain ⟨-, rfl⟩ := hs
    unfold opened
    split
    · rfl
    · split_ifs <;> rfl
  | ended result => exact hs.elim
  | _ => exact (loopStep_of_step rfl hs).fixed

lemma opening_handshake (config : Config) (isn : SeqNum) (role : Role) :
    (handshake config (.new isn) role).Opening [] ∧ (handshake config (.new isn) role).Coherent ∧
      (handshake config (.new isn) role).fixed = (config, false, isn) := by
  unfold handshake
  cases hv : config.validate with
  | error cause => exact ⟨trivial, trivial, rfl⟩
  | ok u => cases role <;> exact ⟨⟨hv, rfl⟩, rfl, rfl⟩

lemma opening_run (config : Config) (isn : SeqNum) (role : Role) :
    (run config (.new isn) role).Opening [] ∧
      (run config (.new isn) role).fixed = (config, true, isn) := by
  unfold run handshake
  cases hv : config.validate with
  | error cause => exact ⟨trivial, rfl⟩
  | ok u => cases role <;> exact ⟨⟨hv, rfl⟩, rfl⟩

lemma finSent_handshake {config : Config} {isn : SeqNum} {role : Role}
    (hv : config.validate = .ok ()) :
    (handshake config (.new isn) role).ctx.state.finSent = false := by
  simp only [handshake, hv]
  cases role <;> rfl

lemma Met.finSent (h : e.Met t) : e.ctx.state.finSent = false := by
  obtain ⟨syn, more, -, -, hctx⟩ := h.met
  rw [hctx]
  rfl

lemma Met.concat_unblock (h : e.Met t) : e.Met (t ++ [.unblock]) := by
  obtain ⟨hv, syn, more, ha, hsyn, hctx⟩ := h
  refine ⟨hv, syn, more, ?_, hsyn, hctx⟩
  rw [Trace.arrived_append, ha]
  exact List.append_nil _

lemma Met.sound (h : e.Met t) (hp : e.point = if e.thenLoop then .wait else .ended (.ok ())) :
    e.Sound := by
  obtain ⟨syn, more, -, -, hctx⟩ := h.met
  have hl : e.ctx.Linked e.config.teardown := by
    rw [hctx]
    exact Context.linked_established _ _ _
  have hd : e.ctx.done = false := by
    rw [hctx]
    rfl
  obtain ⟨config, ctx, thenLoop, point⟩ := e
  cases thenLoop with
  | true =>
    obtain rfl : point = .wait := hp
    exact ⟨by simp [stage], ⟨hl, hd⟩, fun _ => hl⟩
  | false =>
    obtain rfl : point = .ended (.ok ()) := hp
    exact ⟨by simp [stage], ⟨hl, by simp⟩, fun _ => hl⟩

end Engine

namespace Machine

variable {π σ : Type} {P : Policy π} {H : Host σ} {m m' : Machine π σ} {t : Trace}

theorem Steps.opening_cases (h : m.Steps P H t m') (ho : m.engine.Opening [])
    (hc : m.engine.Coherent) :
    (m'.engine.Opening t ∧ Event.unblock ∉ t ∧ t.closings = 0 ∧ m'.engine.fixed = m.engine.fixed) ∨
      (∃ opening cause, t = opening ++ [.unblock] ∧ Event.unblock ∉ opening ∧
        m'.engine.point = .ended (.error cause)) ∨
      ∃ opening u m₀, t = opening ++ .unblock :: u ∧ Event.unblock ∉ opening ∧
        opening.closings = 0 ∧
        m.Steps P H (opening ++ [.unblock]) m₀ ∧ m₀.engine.Met opening ∧
        m₀.engine.fixed = m.engine.fixed ∧
        (m₀.engine.point = if m₀.engine.thenLoop then .wait else .ended (.ok ())) ∧
        m₀.Steps P H u m' := by
  induction h with
  | refl => exact .inl ⟨ho, by simp, rfl, rfl⟩
  | @step t m' m'' events hsteps hs ih =>
    have he := step_engine hs
    obtain ⟨ho, hu, hn, hf⟩ | ⟨opening, cause, rfl, hu, hp⟩ |
      ⟨opening, u, m₀, rfl, hu, hn, h₀, hm, hf, hp, hsteps⟩ := ih
    · have hcoherent : m'.engine.Coherent :=
        hsteps.keeps (I := fun _ e => e.Coherent) hc fun hc hs => Engine.coherent_step hc hs
      obtain ⟨hnew, ⟨hnext, hunew⟩ | ⟨rfl, ⟨cause, hfail⟩ | ⟨hm, hp⟩⟩⟩ := ho.step hcoherent he
      · refine .inl ⟨hnext, ?_, ?_, (Engine.fixed_step he).trans hf⟩
        · simp [hu, hunew]
        · rw [Trace.closings_append, hn, hnew]
      · exact .inr (.inl ⟨t, cause, rfl, hu, by rw [hfail]; rfl⟩)
      · refine .inr (.inr ⟨t, [], m'', rfl, hu, hn, hsteps.step hs, hm,
          (Engine.fixed_step he).trans hf, ?_, .refl⟩)
        rw [hp, show m''.engine.thenLoop = m'.engine.thenLoop from
          congrArg (fun f => f.2.1) (Engine.fixed_step he)]
    · exact absurd (show m'.engine.stage = .finished by rw [Engine.stage, hp])
        (Engine.stage_ne_finished he)
    · refine .inr (.inr ⟨opening, u ++ events, m₀, ?_, hu, hn, h₀, hm, hf, hp, hsteps.step hs⟩)
      rw [List.append_assoc, List.cons_append]
  | surround policy host _ ih =>
    obtain hopening | hfailed | ⟨opening, u, m₀, ht, hu, hn, h₀, hm, hf, hp, hsteps⟩ := ih
    · exact .inl hopening
    · exact .inr (.inl hfailed)
    · exact .inr (.inr ⟨opening, u, m₀, ht, hu, hn, h₀, hm, hf, hp, hsteps.surround policy host⟩)

lemma Steps.finsSent (h : m.Steps P H t m') (hc : m.engine.Coherent) :
    t.finsSent + m.engine.ctx.state.finSent.toNat = m'.engine.ctx.state.finSent.toNat := by
  have hkept : m'.engine.Coherent ∧
      t.finsSent + m.engine.ctx.state.finSent.toNat = m'.engine.ctx.state.finSent.toNat := by
    apply h.keeps (I := fun t e =>
      e.Coherent ∧ t.finsSent + m.engine.ctx.state.finSent.toNat = e.ctx.state.finSent.toNat)
    · exact ⟨hc, Nat.zero_add _⟩
    · rintro t e events e' ⟨hc, hn⟩ hs
      refine ⟨Engine.coherent_step hc hs, ?_⟩
      rw [← Engine.finsSent_step hc hs, ← hn, Trace.finsSent_append]
      omega
  exact hkept.2

lemma Steps.of_finished (h : m.Steps P H t m') (hp : m.engine.stage = .finished) :
    t = [] ∧ m'.engine = m.engine := by
  apply h.keeps (I := fun t e => t = [] ∧ e = m.engine) ⟨rfl, rfl⟩
  rintro t e events e' ⟨-, rfl⟩ hs
  exact absurd hp (Engine.stage_ne_finished hs)

variable {config : Config} {isn : SeqNum} {role : Role} {opening : Trace}

theorem Opened.met (h : m.Opened P H config isn role opening) :
    m.engine.Met opening ∧ m.engine.Sound ∧ m.engine.stage = .finished ∧ m.engine.config = config ∧
      m.engine.ctx.isn = isn ∧ opening.closings = 0 ∧ opening.finsSent = 0 := by
  obtain ⟨⟨policy, host, hsteps⟩, hresult⟩ := h
  obtain ⟨hopening, hcoherent, hfixed⟩ := Engine.opening_handshake config isn role
  obtain ⟨ho, -⟩ | ⟨front, cause, rfl, -, hp⟩ | ⟨front, u, m₀, rfl, -, hn, h₀, hm, hf, hp, hu⟩ :=
    hsteps.opening_cases hopening hcoherent
  · have hs := ho.stage_eq
    rw [Engine.result?] at hresult
    rw [Engine.stage] at hs
    split at hresult
    · rename_i result hp
      simp [hp] at hs
    · cases hresult
  · rw [Engine.result?, hp] at hresult
    cases hresult
  · have hl : m₀.engine.thenLoop = false := congrArg (fun f => f.2.1) (hf.trans hfixed)
    have hc : m₀.engine.config = config := congrArg Prod.fst (hf.trans hfixed)
    have hi : m₀.engine.ctx.isn = isn := congrArg (fun f => f.2.2) (hf.trans hfixed)
    have hs : m₀.engine.Sound := hm.sound hp
    have hended : m₀.engine.stage = .finished := by
      rw [hl] at hp
      rw [Engine.stage, hp]
      rfl
    have hfins := h₀.finsSent hcoherent
    rw [Engine.finSent_handshake (hc ▸ hm.valid), hm.finSent] at hfins
    obtain ⟨rfl, he⟩ := hu.of_finished hended
    rw [he]
    exact ⟨hm.concat_unblock, hs, hended, hc, hi, by rw [Trace.closings_append, hn]; rfl, hfins⟩

lemma Opened.again (h : m.Opened P H config isn role opening) :
    ∃ peer, m.again.engine.ctx = .established isn peer ∧ m.engine.ctx = .established isn peer ∧
      m.again.engine.point = .wait ∧ m.again.engine.config = config ∧ m.again.engine.Sound := by
  obtain ⟨hm, hs, hended, hc, hi, -⟩ := h.met
  obtain ⟨syn, more, -, -, hctx⟩ := hm.met
  obtain ⟨-, hconfig, hagain⟩ := Engine.stage_loop m.engine.config m.engine.ctx
  rw [hi] at hctx
  refine ⟨syn.header.seq, hagain.trans hctx, hctx, ?_, hconfig.trans hc, hs.again hended⟩
  rw [Machine.again, hctx]
  rfl

end Machine

theorem Session.keeps {π σ : Type} {P : Policy π} {H : Host σ} {config : Config} {isn : SeqNum}
    {role : Role} {opening t : Trace} {m : Machine π σ}
    (h : Session P H config isn role opening t m) {I : Trace → Engine → Prop}
    (start : ∀ {e}, e.Met opening → e.stage = .finished → I [] e)
    (again : ∀ {t e}, e.stage = .finished → I t e → I t (.loop e.config e.ctx))
    (step : ∀ {t e events e'}, e.Sound → e.config = config → I t e → e.Step events e' →
      I (t ++ events) e') :
    m.engine.Sound ∧ m.engine.config = config ∧ m.engine.ctx.isn = isn ∧ I t m.engine := by
  induction h with
  | opened ho =>
    obtain ⟨hm, hs, hp, hc, hi, -⟩ := ho.met
    exact ⟨hs, hc, hi, start hm hp⟩
  | @loop t u m m' _ hended hu ih =>
    obtain ⟨hs, hc, hi, ht⟩ := ih
    obtain ⟨-, hconfig, hctx⟩ := Engine.stage_loop m.engine.config m.engine.ctx
    have hall := hu.keeps_loop
      (I := fun u e => e.config = config ∧ e.ctx.isn = isn ∧ I (t ++ u) e) (hs.again hended)
      ⟨hconfig.trans hc, by rw [Machine.again, hctx]; exact hi, by
        rw [List.append_nil]
        exact again hended ht⟩
    apply hall
    rintro u e events e' hs ⟨hc, hi, ht⟩ he
    have hf := (hs.loopStep he).fixed
    refine ⟨(Engine.config_eq hf).trans hc, (Engine.isn_eq hf).trans hi, ?_⟩
    rw [← List.append_assoc]
    exact step hs hc ht he

end DatagramStream
