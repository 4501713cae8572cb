import DatagramStream.Proofs.Resending.Turns
import DatagramStream.Proofs.Scripted

/-! A policy puts datagrams back on the channel, and changes nothing else. -/

namespace DatagramStream

def Event.undisturbed? : Event → Option Event
  | resend _ _ _ => none
  | wait interest _ outcome => some (wait interest none outcome)
  | due _ => some (due [])
  | c => some c

namespace Trace

def undisturbed (t : Trace) : Trace :=
  t.filterMap Event.undisturbed?

lemma undisturbed_append (t u : Trace) : undisturbed (t ++ u) = t.undisturbed ++ u.undisturbed :=
  List.filterMap_append

end Trace

namespace Script

def Faultless (s : Script) : Prop :=
  ∀ fault ∈ s.sendFaults, fault = none

def Alike (s s' : Script) : Prop :=
  s.Faultless ∧ ∃ faults, (∀ fault ∈ faults, fault = none) ∧ s' = { s with sendFaults := faults }

variable {s s' : Script}

lemma Faultless.alike (h : s.Faultless) : s.Alike s :=
  ⟨h, s.sendFaults, h, rfl⟩

lemma Faultless.send (h : s.Faultless) : ∃ s', s.send = (.ok (), s') ∧ s.Alike s' := by
  obtain ⟨net, app, events, _ | ⟨fault, faults⟩, writeFaults⟩ := s
  · exact ⟨_, rfl, h.alike⟩
  · obtain rfl := h fault List.mem_cons_self
    exact ⟨_, rfl, h, faults, fun fault hf => h fault (List.mem_cons_of_mem _ hf), rfl⟩

namespace Alike

lemma faultless (h : s.Alike s') : s'.Faultless := by
  obtain ⟨-, faults, hf, rfl⟩ := h
  exact hf

lemma symm (h : s.Alike s') : s'.Alike s := by
  obtain ⟨hs, faults, hf, rfl⟩ := h
  exact ⟨hf, s.sendFaults, hs, rfl⟩

lemma trans {s'' : Script} (h : s.Alike s') (h' : s'.Alike s'') : s.Alike s'' := by
  obtain ⟨hs, faults, hf, rfl⟩ := h
  obtain ⟨-, faults', hf', rfl⟩ := h'
  exact ⟨hs, faults', hf', rfl⟩

lemma send (h : s.Alike s') :
    ∃ t t', s.send = (.ok (), t) ∧ s'.send = (.ok (), t') ∧ t.Alike t' := by
  obtain ⟨t, hs, ht⟩ := h.1.send
  obtain ⟨t', hs', ht'⟩ := h.faultless.send
  exact ⟨t, t', hs, hs', ht.symm.trans (h.trans ht')⟩

lemma receive (h : s.Alike s') (capacity : Nat) :
    ∃ outcome t t', s.receive capacity = (outcome, t) ∧ s'.receive capacity = (outcome, t') ∧
      t.Alike t' := by
  obtain ⟨hs, faults, hf, rfl⟩ := h
  rcases s with ⟨_ | ⟨_ | datagram, net⟩, app, events, sendFaults, writeFaults⟩ <;>
    exact ⟨_, _, _, rfl, rfl, hs, faults, hf, rfl⟩

lemma read (h : s.Alike s') (limit : Nat) :
    ∃ outcome t t', s.read limit = (outcome, t) ∧ s'.read limit = (outcome, t') ∧ t.Alike t' := by
  obtain ⟨hs, faults, hf, rfl⟩ := h
  rcases s with ⟨net, _ | ⟨_ | data, app⟩, events, sendFaults, writeFaults⟩ <;>
    exact ⟨_, _, _, rfl, rfl, hs, faults, hf, rfl⟩

lemma write (h : s.Alike s') :
    ∃ outcome t t', s.write = (outcome, t) ∧ s'.write = (outcome, t') ∧ t.Alike t' := by
  obtain ⟨hs, faults, hf, rfl⟩ := h
  exact ⟨_, _, _, rfl, rfl, hs, faults, hf, rfl⟩

lemma wait (h : s.Alike s') :
    ∃ outcome t t', s.wait = (outcome, t) ∧ s'.wait = (outcome, t') ∧ t.Alike t' := by
  obtain ⟨hs, faults, hf, rfl⟩ := h
  rcases s with ⟨net, app, _ | ⟨answer, events⟩, sendFaults, writeFaults⟩ <;>
    exact ⟨_, _, _, rfl, rfl, hs, faults, hf, rfl⟩

end Alike

end Script

namespace Engine

lemma eq_resending_of_request {e : Engine} {next : List Bytes → Engine}
    (h : e.request = .collectDue next) :
    next = e.resending := by
  obtain ⟨config, ctx, thenLoop, point⟩ := e
  cases point <;> cases h
  rfl

lemma resending_goto (e : Engine) (p : Point) (datagrams : List Bytes) :
    (e.goto p).resending datagrams = e.resending datagrams := by
  cases datagrams <;> rfl

end Engine

namespace Machine

variable {π : Type} {P : Policy π}

def Abreast (m : Machine Unit Script) (p : Machine π Script) : Prop :=
  m.engine = p.engine ∧ m.host.Alike p.host

lemma step_resend (e : Engine) (datagram : Bytes) (more : List Bytes) (policy : π) {s s' : Script}
    (hs : s.send = (.ok (), s')) : step P Script.host ⟨e.resending (datagram :: more), policy, s⟩ =
      some (⟨e.resending more, policy, s'⟩,
        [.resend (datagram.take headerLength) (datagram.drop headerLength) (.ok ())]) := by
  simp only [step, Engine.resending, Engine.request, Engine.goto, Script.host, hs, Engine.onSuccess]
  exact congrArg (fun e => some ((⟨e, policy, s'⟩ : Machine π Script), _))
    (e.resending_goto (.resend datagram more) more)

lemma runs_resending (P : Policy π) (e : Engine) (datagrams : List Bytes) (policy : π) {s : Script}
    (hs : s.Faultless) :
    ∃ t s', Runs P Script.host ⟨e.resending datagrams, policy, s⟩ t ⟨e.turn, policy, s'⟩ ∧
      s.Alike s' ∧ t.undisturbed = [] ∧ t.SentAgain := by
  induction datagrams generalizing s with
  | nil => exact ⟨[], s, .refl _, hs.alike, rfl, Trace.sentAgain_nil⟩
  | cons datagram more ih =>
    obtain ⟨s', hsent, halike⟩ := hs.send
    obtain ⟨t, s'', hruns, halike', ht, hok⟩ := ih halike.faultless
    refine ⟨_, s'', .step (step_resend e datagram more policy hsent) hruns, halike.trans halike',
      ht, ?_⟩
    exact Trace.SentAgain.append (by simp [Trace.SentAgain]) hok

def Follows (P : Policy π) (p : Machine π Script) (events : List Event)
    (m : Machine Unit Script) : Prop :=
  ∃ t p', Runs P Script.host p t p' ∧ m.Abreast p' ∧ t.undisturbed = Trace.undisturbed events ∧
    t.SentAgain

variable {m m' : Machine Unit Script} {p p' : Machine π Script} {t : Trace} {events : List Event}

lemma Follows.single {u : List Event} (hs : p.step P Script.host = some (p', u)) (h : m.Abreast p')
    (hu : Trace.undisturbed u = Trace.undisturbed events) (hok : Trace.SentAgain u) :
    Follows P p events m :=
  ⟨u, p', .single hs, h, hu, hok⟩

lemma Abreast.step (h : m.Abreast p) (hs : m.step .inert Script.host = some (m', events)) :
    Follows P p events m' := by
  obtain ⟨e, policy, s⟩ := m
  obtain ⟨e', policy', s'⟩ := p
  obtain ⟨rfl, halike⟩ := h
  cases hr : e.request with
  | transmit g next =>
    obtain ⟨t, t', hsent, hsent', ht⟩ := halike.send
    simp only [Machine.step, hr, Script.host, hsent, Option.some.injEq, Prod.mk.injEq] at hs
    obtain ⟨rfl, rfl⟩ := hs
    have hstep : Machine.step P Script.host ⟨e, policy', s'⟩ =
        some (⟨next (.ok ()), P.onSend g policy', t'⟩,
          [.send g.header.encode g.payload (.ok ()), .onSend g]) := by
      simp only [Machine.step, hr, Script.host, hsent']
    exact .single hstep ⟨rfl, ht⟩ rfl (by simp [Trace.SentAgain])
  | resend header payload next =>
    obtain ⟨t, t', hsent, hsent', ht⟩ := halike.send
    simp only [Machine.step, hr, Script.host, hsent, Option.some.injEq, Prod.mk.injEq] at hs
    obtain ⟨rfl, rfl⟩ := hs
    have hstep : Machine.step P Script.host ⟨e, policy', s'⟩ = some (⟨next (.ok ()), policy', t'⟩,
        [.resend header payload (.ok ())]) := by
      simp only [Machine.step, hr, Script.host, hsent']
    exact .single hstep ⟨rfl, ht⟩ rfl (by simp [Trace.SentAgain])
  | receive capacity next =>
    obtain ⟨outcome, t, t', hanswer, hanswer', ht⟩ := halike.receive capacity
    simp only [Machine.step, hr, Script.host, hanswer, Option.map_some, Option.some.injEq,
      Prod.mk.injEq] at hs
    obtain ⟨rfl, rfl⟩ := hs
    have hstep : Machine.step P Script.host ⟨e, policy', s'⟩ = some (⟨next outcome, policy', t'⟩,
        [.receive capacity outcome]) := by
      simp only [Machine.step, hr, Script.host, hanswer', Option.map_some]
    exact .single hstep ⟨rfl, ht⟩ rfl (by simp [Trace.SentAgain])
  | read limit next =>
    obtain ⟨outcome, t, t', hanswer, hanswer', ht⟩ := halike.read limit
    simp only [Machine.step, hr, Script.host, hanswer, Option.some.injEq, Prod.mk.injEq] at hs
    obtain ⟨rfl, rfl⟩ := hs
    have hstep : Machine.step P Script.host ⟨e, policy', s'⟩ = some (⟨next outcome, policy', t'⟩,
        [.read limit outcome]) := by
      simp only [Machine.step, hr, Script.host, hanswer']
    exact .single hstep ⟨rfl, ht⟩ rfl (by simp [Trace.SentAgain])
  | write data next =>
    obtain ⟨outcome, t, t', hanswer, hanswer', ht⟩ := halike.write
    simp only [Machine.step, hr, Script.host, hanswer, Option.some.injEq, Prod.mk.injEq] at hs
    obtain ⟨rfl, rfl⟩ := hs
    have hstep : Machine.step P Script.host ⟨e, policy', s'⟩ = some (⟨next outcome, policy', t'⟩,
        [.write data outcome]) := by
      simp only [Machine.step, hr, Script.host, hanswer']
    exact .single hstep ⟨rfl, ht⟩ rfl (by simp [Trace.SentAgain])
  | unblock next =>
    simp only [Machine.step, hr, Option.some.injEq, Prod.mk.injEq] at hs
    obtain ⟨rfl, rfl⟩ := hs
    have hstep : Machine.step P Script.host ⟨e, policy', s'⟩ =
        some (⟨next, policy', s'⟩, [.unblock]) := by
      simp only [Machine.step, hr, Script.host, id]
    exact .single hstep ⟨rfl, halike⟩ rfl (by simp [Trace.SentAgain])
  | peerClosed next =>
    simp only [Machine.step, hr, Option.some.injEq, Prod.mk.injEq] at hs
    obtain ⟨rfl, rfl⟩ := hs
    have hstep : Machine.step P Script.host ⟨e, policy', s'⟩ =
        some (⟨next, policy', s'⟩, [.peerClosed]) := by
      simp only [Machine.step, hr, Script.host, id]
    exact .single hstep ⟨rfl, halike⟩ rfl (by simp [Trace.SentAgain])
  | noteAck ack next =>
    simp only [Machine.step, hr, Option.some.injEq, Prod.mk.injEq] at hs
    obtain ⟨rfl, rfl⟩ := hs
    have hstep : Machine.step P Script.host ⟨e, policy', s'⟩ =
        some (⟨next, P.onAck ack policy', s'⟩, [.onAck ack]) := by
      simp only [Machine.step, hr]
    exact .single hstep ⟨rfl, halike⟩ rfl (by simp [Trace.SentAgain])
  | wait interest next =>
    obtain ⟨outcome, t, t', hanswer, hanswer', ht⟩ := halike.wait
    simp only [Machine.step, hr, Script.host, hanswer, Option.map_some, Option.some.injEq,
      Prod.mk.injEq] at hs
    obtain ⟨rfl, rfl⟩ := hs
    have hstep : Machine.step P Script.host ⟨e, policy', s'⟩ = some (⟨next outcome, policy', t'⟩,
        [.wait interest (P.deadline policy') outcome]) := by
      simp only [Machine.step, hr, Script.host, hanswer', Option.map_some]
    exact .single hstep ⟨rfl, ht⟩ rfl (by simp [Trace.SentAgain])
  | collectDue next =>
    -- The one step that the policy adds to: all that is due goes out before the next turn.
    obtain rfl := Engine.eq_resending_of_request hr
    simp only [Machine.step, hr, Option.some.injEq, Prod.mk.injEq] at hs
    obtain ⟨rfl, rfl⟩ := hs
    have hstep : Machine.step P Script.host ⟨e, policy', s'⟩ =
        some (⟨e.resending (P.due policy').1, (P.due policy').2, s'⟩,
          [.due (P.due policy').1]) := by
      simp only [Machine.step, hr]
    obtain ⟨t, t', hruns, ht, hnone, hok⟩ :=
      runs_resending P e (P.due policy').1 (P.due policy').2 halike.faultless
    refine ⟨_, _, .step hstep hruns, ⟨rfl, halike.trans ht⟩, ?_, ?_⟩
    · rw [Trace.undisturbed_append, hnone]
      rfl
    · exact Trace.SentAgain.append (by simp [Trace.SentAgain]) hok
  | finished result =>
    rw [Machine.step] at hs
    dsimp only at hs
    rw [hr] at hs
    cases hs

lemma Abreast.runs (h : m.Abreast p) (hr : Runs .inert Script.host m t m') : Follows P p t m' := by
  induction hr generalizing p with
  | refl => exact ⟨[], p, .refl p, h, rfl, Trace.sentAgain_nil⟩
  | step hs _ ih =>
    obtain ⟨u, q, hq, habreast, hu, hok⟩ := h.step hs
    obtain ⟨u', q', hq', habreast', hu', hok'⟩ := ih habreast
    refine ⟨u ++ u', q', hq.trans hq', habreast', ?_, hok.append hok'⟩
    rw [Trace.undisturbed_append, Trace.undisturbed_append, hu, hu']

/-- A policy makes no difference to a call but for what it puts back on the channel: after each turn
that has reacted, and all of that. -/
theorem run_undisturbed (P : Policy π) (policy : π) (config : Config) (ctx : Context) (role : Role)
    {s : Script} (hs : s.Faultless) :
    ∃ enough, ∀ fuel ≥ enough, ∀ alone ≥ enough, ∃ result,
      let r := run P Script.host fuel ⟨.run config ctx role, policy, s⟩
      let r' := run .inert Script.host alone ⟨.run config ctx role, (), s⟩
      r.1.engine.result? = some result ∧ r'.1.engine.result? = some result ∧
        r.1.engine.ctx = r'.1.engine.ctx ∧ Trace.undisturbed r.2 = Trace.undisturbed r'.2 ∧
        (Trace.Turned r.2 ∨ (∃ cause, result = .error cause) ∧ Trace.BrokenOff r.2) := by
  obtain ⟨t', m', hruns', hend'⟩ := exists_ended ⟨.run config ctx role, (), s⟩
  have hstart : Abreast ⟨.run config ctx role, (), s⟩ ⟨.run config ctx role, policy, s⟩ :=
    ⟨rfl, hs.alike⟩
  obtain ⟨t, m, hruns, ⟨hsame, -⟩, ht, hok⟩ := hstart.runs (P := P) hruns'
  have hend : m.engine.result?.isSome := hsame ▸ hend'
  obtain ⟨enough', hrun'⟩ := hruns'.exists_run hend'
  obtain ⟨enough, hrun⟩ := hruns.exists_run hend
  obtain ⟨result, hresult⟩ := Option.isSome_iff_exists.mp hend
  refine ⟨max enough enough', fun fuel hfuel alone halone => ⟨result, ?_⟩⟩
  have hrun := hrun fuel (Nat.le_trans (Nat.le_max_left _ _) hfuel)
  have hrun' := hrun' alone (Nat.le_trans (Nat.le_max_right _ _) halone)
  have hpaced : m.engine.Paced t := by
    have hsteps := steps_run P Script.host fuel ⟨.run config ctx role, policy, s⟩
    rw [hrun] at hsteps
    exact hsteps.paced (Engine.paced_run config ctx role) hok
  rw [hrun, hrun']
  exact ⟨hresult, hsame ▸ hresult, by rw [hsame], ht, turned_of_result hpaced hresult⟩

def conversing : Script where
  net := [Script.incoming .synAck 100 2 [], Script.incoming .ackOnly 101 3 [5],
    Script.incoming .ackOnly 102 4 []]
  app := [.ok [1]]
  events := [.ok { appData := true }, .ok .network, .ok { closeRequested := true }]
  sendFaults := [none]

def restless : ResendScript where
  hasDeadline := true
  due := [[[1, 2, 3]], [], [List.replicate 21 7, []]]

theorem run_undisturbed_restless :
    conversing.Faultless ∧
      ((Trace.datagrams (run ResendScript.policy Script.host 60
          ⟨.run {} (.new 1) .active, restless, conversing⟩).2).filter
            fun d => d.length ≠ headerLength) =
        [(Engine.stamp ⟨{}, .established 1 100, true, .wait⟩ .ackOnly [1]).encode, [1, 2, 3],
          List.replicate 21 7, []] ∧
      ∃ enough, ∀ fuel ≥ enough, ∀ alone ≥ enough, ∃ result,
        let r := run ResendScript.policy Script.host fuel
          ⟨.run {} (.new 1) .active, restless, conversing⟩
        let r' := run .inert Script.host alone ⟨.run {} (.new 1) .active, (), conversing⟩
        r.1.engine.result? = some result ∧ r'.1.engine.result? = some result ∧
          r.1.engine.ctx = r'.1.engine.ctx ∧ Trace.undisturbed r.2 = Trace.undisturbed r'.2 ∧
          (Trace.Turned r.2 ∨ (∃ cause, result = .error cause) ∧ Trace.BrokenOff r.2) := by
  have hs : conversing.Faultless := by
    intro fault hf
    exact List.mem_singleton.mp hf
  refine ⟨hs, by decide +kernel, ?_⟩
  exact run_undisturbed ResendScript.policy restless {} (.new 1) .active hs

end Machine

end DatagramStream
