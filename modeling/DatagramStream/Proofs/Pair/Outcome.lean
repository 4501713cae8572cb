import DatagramStream.Proofs.Pair.Progress

/-! What two sides have come to when a call has ended, and when both have. -/

namespace DatagramStream

def Setup.arriving (s : Setup) (c : Config) : Bytes :=
  if s.Fits c then s.staged else []

/-- A call that has ended well, with the peer's direction closed and all of it accounted for. -/
structure Party.Finished (s peer : Setup) (x : Party) : Prop where
  result : x.engine.result? = some (.ok ())
  ctx : x.engine.ctx = {
    state := x.engine.ctx.state
    isn := s.isn
    next := s.isn + UInt32.ofNat (s.staged.length + 2)
    expected := peer.isn + UInt32.ofNat (peer.staged.length + 2)
    done := true
    peerFinSeen := true
    sent := s.staged.length
    received := (peer.arriving s.config).length }
  delivered : x.app.delivered = peer.arriving s.config
  outbound : x.app.outbound = []
  unblocked : x.app.unblockCalls = 1
  told : x.app.peerClosedCalls = 1

lemma Party.Local.inHand_of_seen {s : Setup} {x : Party} (hl : x.Local s)
    (hs : x.engine.ctx.peerFinSeen = true) : x.engine.inHand = [] := by
  have hc := hl.coherent
  rw [Engine.Coherent] at hc
  rw [Engine.inHand]
  cases hp : x.engine.point with
  | deliver payload rest =>
    rw [hp] at hc
    rw [hc.1.unseen_of_canReceive hc.2.1] at hs
    cases hs
  | _ => rfl

namespace Running

variable {s : Role → Setup} {x : Role → Party} {w : Role → List Segment} {r : Role}

lemma given_of_seen (h : Running s x w) (hs : (x r.other).engine.ctx.peerFinSeen = true)
    (hshort : (s r).staged.length + 2 < 2 ^ 32) :
    (x r.other).engine.ctx.expected = (s r).finAck ∧
      (x r.other).engine.ctx.received = ((s r).arriving (s r.other).config).length ∧
      (x r.other).app.delivered = (s r).arriving (s r.other).config := by
  obtain ⟨p, hp, -⟩ := h.stream r
  have hc : p.closed = true := by simp [hp.closed, Engine.heardFin, hs]
  obtain ⟨h1, h2, h3, -⟩ := hp.exact hshort
  rw [hc, if_pos rfl] at h1
  rw [(h.own r.other).inHand_of_seen hs, hp.whole hc, (h.own r.other).config_eq] at h2
  rw [List.length_nil, Nat.add_zero] at h2
  refine ⟨h1, ?_, ?_⟩
  · rw [h2, Setup.arriving]
    split_ifs <;> rfl
  · rw [h3, h2, Setup.arriving]
    split_ifs
    · exact List.take_length
    · rfl

lemma finished (h : Running s x w) (hshort : ∀ r, (s r).staged.length + 2 < 2 ^ 32)
    (hw : ∀ r, (s r).AwaitsFin) (hd : (x r).Done) : (x r).Finished (s r) (s r.other) := by
  have hl := h.own r
  have hs := hd.seen hl (hw r)
  have hg := h.given_of_seen (r := r.other)
  rw [Role.other_other] at hg
  obtain ⟨h1, h2, h3⟩ := hg hs (hshort r.other)
  have hsent := hl.ledger.complete hd.finSent
  have hn := hd.linked.next
  rw [Context.position, hsent, hd.finSent, hl.isn_eq] at hn
  have hu := hl.ledger.unsent
  rw [hd.owed, hsent, List.drop_length] at hu
  have hb := hl.ledger.unblocked
  rw [hd.owed] at hb
  refine ⟨hd.result, ?_, h3, hu, hb, by rw [hl.told hd.owed, hs]; rfl⟩
  have hi := hl.isn_eq
  have hdone := hd.done
  cases hctx : (x r).engine.ctx
  simp only [hctx] at *
  congr 1
  rw [hn, Bool.toNat_true]
  congr 2
  omega

lemma states (h : Running s x w) (hw : ∀ r, (s r).AwaitsFin) (hd : ∀ r, (x r).Done) (r : Role) :
    (x r).engine.ctx.state = .timeWait ∨
      ((x r).engine.ctx.state = .closed ∧ (x r.other).engine.ctx.state = .timeWait) := by
  have hover {q : Role} : (x q).engine.ctx.state = .timeWait ∨
      (x q).engine.ctx.state = .closed := by
    have ho := (hd q).isOver
    have hs := (hd q).seen (h.own q) (hw q)
    rw [(hd q).linked.seen] at hs
    revert ho hs
    cases (x q).engine.ctx.state <;> simp [State.isOver, State.finSeen]
  obtain hr | hr := hover (q := r)
  · exact .inl hr
  · refine .inr ⟨hr, ?_⟩
    obtain ho | ho := hover (q := r.other)
    · exact ho
    · have hc := h.order r (by rw [hr]; rfl)
      rw [ho] at hc
      cases hc

end Running

namespace Pair

variable {s : Role → Setup} {q : Pair} {n : Nat} {r : Role}

lemma inbox_eq_nil (h : q.inbox r = []) : (q.party r).app.pending = none := by
  have hp := (List.append_eq_nil_iff.mp h).1
  cases hk : (q.party r).app.pending with
  | none => rfl
  | some d => simp [hk] at hp

lemma Reached.running_of_ended (h : Reached s n q) (he : (q.party r).engine.result?.isSome) :
    ∃ w, Running s q.party w ∨
      (r = .active ∧ Running s
        (Function.update q.party .passive ((s .passive).opened (s .active).isn)) w) := by
  obtain ⟨w, -, hph, -⟩ := h.phase
  have none_of {t : Setup} {c : Context} {p : Point} (hx : q.party r = t.side c p)
      (hp : (⟨t.config, c, true, p⟩ : Engine).result? = none) : False := by
    rw [hx] at he
    change (Engine.result? _).isSome = true at he
    rw [Setup.side, hp] at he
    cases he
  cases hph with
  | start ha hp | syn ha hp | heard ha hp | synAck ha hp | answering ha hp =>
    cases r
    · exact (none_of ha rfl).elim
    · exact (none_of hp rfl).elim
  | ahead hp hv running =>
    cases r
    · exact ⟨_, .inr ⟨rfl, running⟩⟩
    · exact (none_of hp rfl).elim
  | running running => exact ⟨w, .inl running⟩

lemma Reached.done_of_ended (h : Reached s n q) (he : (q.party r).engine.result?.isSome) :
    (q.party r).Local (s r) ∧ (q.party r).Done := by
  obtain ⟨w, hr | ⟨rfl, hr⟩⟩ := h.running_of_ended he
  · exact ⟨hr.own r, (hr.own r).done_of_ended he⟩
  · have hl := hr.own .active
    rw [Function.update_of_ne (by simp)] at hl
    exact ⟨hl, hl.done_of_ended he⟩

lemma Reached.seen_of_strict (h : Reached s n q) (he : (q.party r).engine.result?.isSome)
    (hstrict : (s r).config.acks = .strict) (hshort : (s r).staged.length + 2 < 2 ^ 32) :
    ∃ w, Running s q.party w ∧ (q.party r.other).engine.ctx.peerFinSeen = true := by
  have hf := (h.done_of_ended he).2.finAcked
  obtain ⟨w, hr | ⟨rfl, hr⟩⟩ := h.running_of_ended he
  · exact ⟨w, hr, (hr.acks r hshort).sure hstrict hf⟩
  · have hs := (hr.acks .active hshort).sure hstrict (by rwa [Function.update_of_ne (by simp)])
    simp [Role.other, Setup.opened, Setup.side, Context.established, Context.new] at hs

lemma Reached.running_of_stuck (h : Reached s n q) (hstuck : ∀ r, q.step r = none) :
    ∃ w, Running s q.party w ∧ ∀ r, (q.party r).Done ∨ ((q.party r).Idle ∧ w r = []) := by
  obtain ⟨w, hw, hph, -⟩ := h.phase
  have hnone := fun r => step_none h.isOpen (hstuck r)
  have sends {r : Role} {t : Setup} {c : Context} {p : Point} {g : Segment}
      {next : Except IoError Unit → Engine} (hx : q.party r = t.side c p)
      (hp : (⟨t.config, c, true, p⟩ : Engine).request = .transmit g next) : False := by
    have hr : (q.party r).engine.request = .transmit g next := by rw [hx]; exact hp
    have he : (q.party r).engine.result? = none := by
      revert hr
      rw [Engine.request, Engine.result?]
      cases (q.party r).engine.point <;> simp
    obtain hd | ⟨-, ⟨capacity, next, hk⟩ | ⟨interest, next, hk, -⟩⟩ := hnone r
    · rw [he] at hd
      cases hd
    · rw [hr] at hk
      cases hk
    · rw [hr] at hk
      cases hk
  have receives {r : Role} {t : Setup} {c : Context} {p : Point} {g : Segment} {v : List Segment}
      (hx : q.party r = t.side c p) (hp : (⟨t.config, c, true, p⟩ : Engine).result? = none)
      (hv : w r = g :: v) : False := by
    obtain hd | ⟨hi, -⟩ := hnone r
    · rw [hx, Setup.side, hp] at hd
      cases hd
    · rw [hw, hv] at hi
      cases hi
  cases hph with
  | start ha => exact (sends ha rfl).elim
  | syn _ hp _ hv => exact (receives hp rfl hv).elim
  | heard _ hp => exact (sends hp rfl).elim
  | synAck ha _ hv => exact (receives ha rfl hv).elim
  | answering ha => exact (sends ha rfl).elim
  | ahead hp hv => exact (receives hp rfl hv).elim
  | running running =>
    refine ⟨w, running, fun r => ?_⟩
    have hl := running.own r
    obtain hd | ⟨hi, hk⟩ := hnone r
    · exact .inl (hl.done_of_ended hd)
    · refine .inr ⟨hl.idle (inbox_eq_nil hi) hk, ?_⟩
      rw [hw] at hi
      exact List.map_eq_nil_iff.mp hi

end Pair

end DatagramStream
