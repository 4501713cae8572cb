import DatagramStream.Proofs.Pair.Cost

/-! The handshake of two sides, in which there is one thing at a time that either can do. -/

namespace DatagramStream

namespace Context

def synSent (isn : SeqNum) : Context :=
  { new isn with state := .synSent }

def listening (isn : SeqNum) : Context :=
  { new isn with state := .listen }

def answering (isn peer : SeqNum) : Context :=
  { established isn peer with state := .synSent }

def synReceived (isn peer : SeqNum) : Context :=
  { established isn peer with state := .synReceived, next := isn }

end Context

def Setup.side (t : Setup) (c : Context) (p : Point) : Party :=
  ⟨⟨t.config, c, true, p⟩, t.app⟩

def Setup.opened (t : Setup) (peer : SeqNum) : Party :=
  t.side (.established t.isn peer) (.unblock (.ok ()))

namespace Setup

def syn (a : Setup) : Segment :=
  Engine.stamp ⟨a.config, .synSent a.isn, true, .sendSyn⟩ .synOnly []

def synAck (a b : Setup) : Segment :=
  Engine.stamp ⟨b.config, .synReceived b.isn a.isn, true, .sendSynAck⟩ .synAck []

def firstAck (a b : Setup) : Segment :=
  Engine.stamp ⟨a.config, .answering a.isn b.isn, true, .ackSynAck⟩ .ackOnly []

end Setup

inductive Phase (s : Role → Setup) (x : Role → Party) (w : Role → List Segment) : Prop
  | start (ha : x .active = (s .active).side (.synSent (s .active).isn) .sendSyn)
      (hp : x .passive = (s .passive).side (.listening (s .passive).isn) .awaitSyn)
      (hw : w .active = []) (hv : w .passive = [])
  | syn (ha : x .active = (s .active).side (.synSent (s .active).isn) .awaitSynAck)
      (hp : x .passive = (s .passive).side (.listening (s .passive).isn) .awaitSyn)
      (hw : w .active = []) (hv : w .passive = [(s .active).syn])
  | heard (ha : x .active = (s .active).side (.synSent (s .active).isn) .awaitSynAck)
      (hp : x .passive =
        (s .passive).side (.synReceived (s .passive).isn (s .active).isn) .sendSynAck)
      (hw : w .active = []) (hv : w .passive = [])
  | synAck (ha : x .active = (s .active).side (.synSent (s .active).isn) .awaitSynAck)
      (hp : x .passive =
        (s .passive).side (.synReceived (s .passive).isn (s .active).isn) .awaitFirstAck)
      (hw : w .active = [(s .active).synAck (s .passive)]) (hv : w .passive = [])
  | answering (ha : x .active =
        (s .active).side (.answering (s .active).isn (s .passive).isn) .ackSynAck)
      (hp : x .passive =
        (s .passive).side (.synReceived (s .passive).isn (s .active).isn) .awaitFirstAck)
      (hw : w .active = []) (hv : w .passive = [])
  | ahead {v : List Segment}
      (hp : x .passive =
        (s .passive).side (.synReceived (s .passive).isn (s .active).isn) .awaitFirstAck)
      (hv : w .passive = (s .active).firstAck (s .passive) :: v)
      (running : Running s (Function.update x .passive ((s .passive).opened (s .active).isn))
        (Function.update w .passive v))
  | running (running : Running s x w)

variable {s : Role → Setup} {x x' : Role → Party} {w : Role → List Segment} {r : Role}
  {events : List Event} {inbox' out : List Bytes}

namespace Setup

lemma local_opened (t : Setup) (peer : SeqNum) : (t.opened peer).Local t := by
  refine ⟨rfl, fun _ => ⟨peer, rfl⟩, rfl, ?_⟩
  refine ⟨rfl, Nat.zero_le _, fun h => ?_, by simp [opened, side, app], rfl, fun h => ?_, rfl, rfl⟩
  · cases h
  · cases h

lemma hears_opened (t peer : Setup) : (t.opened peer.isn).Hears peer ⟨0, false⟩ := by
  refine ⟨rfl, Nat.zero_le _, fun h => ?_, by simp [opened, side, Engine.held], fun _ => ?_⟩
  · cases h
  · refine ⟨rfl, ?_, rfl, List.nil_prefix⟩
    change 0 = if peer.Fits t.config then 0 else 0
    rw [ite_self]

lemma acks_opened (t u : Setup) (isn peer : SeqNum) :
    Acks t (t.opened isn).engine (u.opened peer).engine [] := by
  refine ⟨fun g hg => ?_, fun h => ?_, fun _ h => ?_⟩
  · simp [opened, side, Engine.held] at hg
  · cases h
  · cases h

end Setup

lemma running_opened (s : Role → Setup) :
    Running s (fun r => (s r).opened (s r.other).isn) (fun _ => []) := by
  refine ⟨fun r => (s r).local_opened _, fun r => ⟨⟨0, false⟩, ?_, .nil _⟩,
    fun r _ => Setup.acks_opened _ _ _ _, fun r hs => ?_⟩
  · rw [Role.other_other]
    exact Setup.hears_opened _ _
  · cases hs

def cost (x : Role → Party) (w : Role → List Segment) : Nat :=
  (x .active).cost + (x .passive).cost + Segment.costs (w .active) + Segment.costs (w .passive)

lemma cost_eq (x : Role → Party) (w : Role → List Segment) (r : Role) :
    cost x w = (x r).cost + (x r.other).cost + Segment.costs (w r) + Segment.costs (w r.other) := by
  cases r with
  | active => rfl
  | passive =>
    simp only [cost, Role.other]
    omega

namespace Running

lemma turned (h : Running s x w) (hv : ∀ r, (s r).config.validate = .ok ())
    (hm : (x r).Moves ((w r).map Segment.encode) events (x' r) inbox' out)
    (ho : x' r.other = x r.other) :
    ∃ w' out', inbox' = (w' r).map Segment.encode ∧ out = out'.map Segment.encode ∧
      Turned r x w x' w' out' ∧ (x' r).engine.Coherent := by
  have hl := h.own r
  obtain ⟨v, out', rfl, rfl, ha⟩ :=
    Party.acts_of_moves (by rw [hl.config_eq]; exact hv r) hl.coherent
    hl.thenLoop_eq hl.poised (h.plain r) hm
  let w' := Function.update (Function.update w r v) r.other (w r.other ++ out')
  have hr : w' r = v := by
    simp [w', Function.update_of_ne (Role.other_ne r).symm]
  have hq : w' r.other = w r.other ++ out' := by simp [w']
  exact ⟨w', out', by rw [hr], rfl, ⟨hr ▸ ha, ho, hq⟩,
    Engine.coherent_step hl.coherent hm.engine_step⟩

end Running

lemma Turned.cost_lt {w' : Role → List Segment} {out : List Segment} (h : Turned r x w x' w' out)
    (hl : (x r).Local (s r)) : cost x' w' < cost x w := by
  have hc := h.acts.cost_lt hl
  rw [cost_eq x' w' r, cost_eq x w r, h.other, h.queue, Segment.costs_append]
  omega

namespace Setup

variable (t a b : Setup)

lemma cost_side {c : Context} (hc : c.state.finSent = false) (p : Point) :
    (t.side c p).cost = p.cost + 16 * t.staged.length + 14 := by
  simp only [side, Party.cost, State.finCost, hc, app]
  rfl

@[simp] lemma cost_syn : a.syn.cost = 5 := by
  simp [syn, Segment.cost, Engine.stamp, Flags.synOnly]

@[simp] lemma cost_synAck : (a.synAck b).cost = 5 := by
  simp [synAck, Segment.cost, Engine.stamp, Flags.synAck]

@[simp] lemma cost_firstAck : (a.firstAck b).cost = 5 := by
  simp [firstAck, Segment.cost, Engine.stamp, Flags.ackOnly]

lemma fits_of_pure {e : Engine} {g : Segment} (hg : g.payload = []) :
    g.encode.length < e.config.receiveCapacity := by
  rw [Segment.length_encode, hg]
  exact Config.headerLength_lt_receiveCapacity e.config

end Setup

lemma Party.Moves.of_reply {x x' : Party} {g : Segment} {v : List Bytes} {inbox' : List Bytes}
    {onSegment : Engine → Segment → Engine}
    (hr : x.engine.request = .receive x.engine.config.receiveCapacity (x.engine.onReply onSegment))
    (hp : g.Plain) (hb : g.payload = [])
    (h : x.Moves (g.encode :: v) events x' inbox' out) :
    x' = ⟨onSegment x.engine g, { x.app with pending := none }⟩ ∧ inbox' = v ∧ out = [] := by
  rw [Party.Moves] at h
  rw [hr] at h
  obtain ⟨d, hd, -, rfl, ho⟩ := h
  obtain ⟨rfl, rfl⟩ := List.cons.inj hd
  refine ⟨?_, rfl, ho⟩
  rw [Engine.onReply, Engine.arrival_encode x.engine hp (Setup.fits_of_pure hb)]

def Phase.Next (s : Role → Setup) (x : Role → Party) (w : Role → List Segment) (r : Role)
    (x' : Role → Party) (inbox' out : List Bytes) : Prop :=
  ∃ w', inbox' = (w' r).map Segment.encode ∧
    (w r.other).map Segment.encode ++ out = (w' r.other).map Segment.encode ∧
    Phase s x' w' ∧ cost x' w' < cost x w

namespace Phase

section

variable (hm : (x r).Moves ((w r).map Segment.encode) events (x' r) inbox' out)
  (ho : x' r.other = x r.other)

include hm ho

lemma next_of_start (ha : x .active = (s .active).side (.synSent (s .active).isn) .sendSyn)
    (hp : x .passive = (s .passive).side (.listening (s .passive).isn) .awaitSyn)
    (hw : w .active = []) (hv : w .passive = []) : Next s x w r x' inbox' out := by
  cases r with
  | active =>
    rw [ha, hw] at hm
    obtain ⟨-, hx, rfl, rfl⟩ := hm
    have hx : x' .active = (s .active).side (.synSent (s .active).isn) .awaitSynAck := hx
    have ho : x' .passive = _ := ho.trans hp
    refine ⟨Role.pick [] [(s .active).syn], rfl, ?_, .syn hx ho rfl rfl, ?_⟩
    · simp only [Role.other, hv]
      rfl
    · simp only [cost, hx, ho, ha, hp, hw, hv, Setup.cost_side _ (c := .synSent _) rfl,
        Role.pick_active, Role.pick_passive, Segment.costs_cons, Setup.cost_syn, Point.cost,
        Segment.costs_nil]
      omega
  | passive =>
    rw [hp, hv] at hm
    obtain ⟨d, hd, -⟩ := hm
    cases hd

lemma next_of_syn (ha : x .active = (s .active).side (.synSent (s .active).isn) .awaitSynAck)
    (hp : x .passive = (s .passive).side (.listening (s .passive).isn) .awaitSyn)
    (hw : w .active = []) (hv : w .passive = [(s .active).syn]) : Next s x w r x' inbox' out := by
  cases r with
  | active =>
    rw [ha, hw] at hm
    obtain ⟨d, hd, -⟩ := hm
    cases hd
  | passive =>
    rw [hp, hv] at hm
    obtain ⟨hx, rfl, rfl⟩ := hm.of_reply (g := (s .active).syn) rfl rfl rfl
    have hx : x' .passive =
        (s .passive).side (.synReceived (s .passive).isn (s .active).isn) .sendSynAck := hx
    have ho : x' .active = _ := ho.trans ha
    refine ⟨fun _ => [], rfl, ?_, .heard ho hx rfl rfl, ?_⟩
    · simp only [Role.other, hw]
      rfl
    · simp only [cost, hx, ho, ha, hp, hw, hv, Setup.cost_side _ (c := .synSent _) rfl,
        Setup.cost_side _ (c := .listening _) rfl, Setup.cost_side _ (c := .synReceived _ _) rfl,
        Segment.costs_cons, Setup.cost_syn, Point.cost, Segment.costs_nil]
      omega

lemma next_of_heard (ha : x .active = (s .active).side (.synSent (s .active).isn) .awaitSynAck)
    (hp : x .passive =
      (s .passive).side (.synReceived (s .passive).isn (s .active).isn) .sendSynAck)
    (hw : w .active = []) (hv : w .passive = []) : Next s x w r x' inbox' out := by
  cases r with
  | active =>
    rw [ha, hw] at hm
    obtain ⟨d, hd, -⟩ := hm
    cases hd
  | passive =>
    rw [hp, hv] at hm
    obtain ⟨-, hx, rfl, rfl⟩ := hm
    have hx : x' .passive =
        (s .passive).side (.synReceived (s .passive).isn (s .active).isn) .awaitFirstAck := hx
    have ho : x' .active = _ := ho.trans ha
    refine ⟨Role.pick [(s .active).synAck (s .passive)] [], rfl, ?_,
      .synAck ho hx rfl rfl, ?_⟩
    · simp only [Role.other, hw]
      rfl
    · simp only [cost, hx, ho, ha, hp, hw, hv, Setup.cost_side _ (c := .synReceived _ _) rfl,
        Role.pick_active, Role.pick_passive, Segment.costs_cons, Setup.cost_synAck, Point.cost,
        Segment.costs_nil]
      omega

lemma next_of_synAck (ha : x .active = (s .active).side (.synSent (s .active).isn) .awaitSynAck)
    (hp : x .passive =
      (s .passive).side (.synReceived (s .passive).isn (s .active).isn) .awaitFirstAck)
    (hw : w .active = [(s .active).synAck (s .passive)]) (hv : w .passive = []) :
    Next s x w r x' inbox' out := by
  cases r with
  | active =>
    rw [ha, hw] at hm
    obtain ⟨hx, rfl, rfl⟩ := hm.of_reply (g := (s .active).synAck (s .passive)) rfl rfl rfl
    have hx : x' .active =
        (s .active).side (.answering (s .active).isn (s .passive).isn) .ackSynAck := by
      rw [hx, Engine.onSynAck, if_pos]
      · rfl
      · exact AckCheck.accepts_self _ _
    have ho : x' .passive = _ := ho.trans hp
    refine ⟨fun _ => [], rfl, ?_, .answering hx ho rfl rfl, ?_⟩
    · simp only [Role.other, hv]
      rfl
    · simp only [cost, hx, ho, ha, hp, hw, hv, Setup.cost_side _ (c := .synSent _) rfl,
        Setup.cost_side _ (c := .answering _ _) rfl, Segment.costs_cons, Setup.cost_synAck,
        Point.cost, Segment.costs_nil]
      omega
  | passive =>
    rw [hp, hv] at hm
    obtain ⟨d, hd, -⟩ := hm
    cases hd

lemma next_of_answering
    (ha : x .active = (s .active).side (.answering (s .active).isn (s .passive).isn) .ackSynAck)
    (hp : x .passive =
      (s .passive).side (.synReceived (s .passive).isn (s .active).isn) .awaitFirstAck)
    (hw : w .active = []) (hv : w .passive = []) : Next s x w r x' inbox' out := by
  cases r with
  | active =>
    rw [ha, hw] at hm
    obtain ⟨-, hx, rfl, rfl⟩ := hm
    have hx : x' .active = (s .active).opened (s .passive).isn := hx
    have ho : x' .passive = _ := ho.trans hp
    have hk : Function.update x' .passive ((s .passive).opened (s .active).isn) =
        fun r => (s r).opened (s r.other).isn := by
      funext r
      cases r
      · rw [Function.update_of_ne (by simp), hx]
        rfl
      · rw [Function.update_self]
        rfl
    refine ⟨Role.pick [] [(s .active).firstAck (s .passive)], rfl, ?_,
      .ahead ho rfl (v := []) ?_, ?_⟩
    · simp only [Role.other, hv]
      rfl
    · rw [hk]
      have hn : Function.update (Role.pick [] [(s .active).firstAck (s .passive)]) .passive [] =
          fun _ => [] := by
        funext r
        cases r <;> rfl
      rw [hn]
      exact running_opened s
    · simp only [cost, hx, ho, ha, hp, hw, hv, Setup.opened,
        Setup.cost_side _ (c := .answering _ _) rfl, Setup.cost_side _ (c := .established _ _) rfl,
        Role.pick_active, Role.pick_passive,
        Segment.costs_cons, Setup.cost_firstAck, Point.cost, Segment.costs_nil]
      omega
  | passive =>
    rw [hp, hv] at hm
    obtain ⟨d, hd, -⟩ := hm
    cases hd

lemma next_of_ahead {v : List Segment} (hvalid : ∀ r, (s r).config.validate = .ok ())
    (hp : x .passive =
      (s .passive).side (.synReceived (s .passive).isn (s .active).isn) .awaitFirstAck)
    (hv : w .passive = (s .active).firstAck (s .passive) :: v)
    (running : Running s (Function.update x .passive ((s .passive).opened (s .active).isn))
      (Function.update w .passive v)) : Next s x w r x' inbox' out := by
  have hc : (x .passive).cost + 5 > ((s .passive).opened (s .active).isn).cost := by
    rw [hp, Setup.opened, Setup.cost_side _ rfl, Setup.cost_side _ rfl]
    simp only [Point.cost]
    omega
  cases r with
  | active =>
    -- The passive side takes no part in this, so the move is one of the pair that is ahead.
    have hn : Role.active ≠ .passive := by simp
    have hq : Function.update x' .passive ((s .passive).opened (s .active).isn) Role.active.other =
        Function.update x .passive ((s .passive).opened (s .active).isn) Role.active.other := by
      simp [Role.other]
    have hm : (Function.update x .passive ((s .passive).opened (s .active).isn) Role.active).Moves
        ((Function.update w .passive v Role.active).map Segment.encode) events
        (Function.update x' .passive ((s .passive).opened (s .active).isn) Role.active)
        inbox' out := by
      simpa [Function.update_of_ne hn] using hm
    obtain ⟨w', out', hi, rfl, ht, hcoherent⟩ := running.turned hvalid hm hq
    have hw : w' .passive = v ++ out' := by simpa [Role.other] using ht.queue
    have hlt := ht.cost_lt (running.own .active)
    have hr := running.step hvalid ht hcoherent
    refine ⟨Function.update w' .passive ((s .active).firstAck (s .passive) :: (v ++ out')),
      by simpa [Function.update_of_ne hn] using hi, by simp [Role.other, hv],
      .ahead (v := v ++ out') (ho.trans hp) (by simp) ?_, ?_⟩
    · rw [Function.update_idem, ← hw, Function.update_eq_self]
      exact hr
    · have ho : x' .passive = x .passive := ho
      simp only [cost, Function.update_self, Function.update_of_ne hn, hw] at hlt
      simp only [cost, Function.update_self, Function.update_of_ne hn, hv, ho, Segment.costs_cons]
      omega
  | passive =>
    rw [hp, hv] at hm
    obtain ⟨hx, rfl, rfl⟩ := hm.of_reply (g := (s .active).firstAck (s .passive)) rfl rfl rfl
    have hx : x' .passive = (s .passive).opened (s .active).isn := by
      rw [hx, Engine.onFirstAck, if_pos]
      · rfl
      · exact AckCheck.accepts_self _ _
    have ho : x' .active = x .active := ho
    have he : x' = Function.update x .passive ((s .passive).opened (s .active).isn) := by
      funext q
      cases q
      · rw [Function.update_of_ne (by simp), ho]
      · rw [Function.update_self, hx]
    refine
      ⟨Function.update w .passive v, by simp, by simp [Role.other], .running (he ▸ running), ?_⟩
    simp only [cost, hx, ho, hv, Function.update_self,
      Function.update_of_ne (by simp : Role.active ≠ .passive), Segment.costs_cons,
      Setup.cost_firstAck]
    omega

lemma next_of_running (hvalid : ∀ r, (s r).config.validate = .ok ()) (running : Running s x w) :
    Next s x w r x' inbox' out := by
  obtain ⟨w', out', hi, rfl, ht, hc⟩ := running.turned hvalid hm ho
  exact ⟨w', hi, by rw [ht.queue, List.map_append], .running (running.step hvalid ht hc),
    ht.cost_lt (running.own r)⟩

theorem next (h : Phase s x w) (hvalid : ∀ r, (s r).config.validate = .ok ()) :
    Next s x w r x' inbox' out := by
  cases h with
  | start ha hp hw hv => exact next_of_start hm ho ha hp hw hv
  | syn ha hp hw hv => exact next_of_syn hm ho ha hp hw hv
  | heard ha hp hw hv => exact next_of_heard hm ho ha hp hw hv
  | synAck ha hp hw hv => exact next_of_synAck hm ho ha hp hw hv
  | answering ha hp hw hv => exact next_of_answering hm ho ha hp hw hv
  | ahead hp hv running => exact next_of_ahead hm ho hvalid hp hv running
  | running running => exact next_of_running hm ho hvalid running

end

end Phase

namespace Pair

variable {p q : Pair} {t : List (Role × List Event)}

structure Reached (s : Role → Setup) (n : Nat) (q : Pair) : Prop where
  isOpen : q.IsOpen
  phase : ∃ w, (∀ r, q.inbox r = (w r).map Segment.encode) ∧ Phase s q.party w ∧
    n + cost q.party w ≤ 16 * ((s .active).staged.length + (s .passive).staged.length) + 46

theorem reached (hvalid : ∀ r, (s r).config.validate = .ok ()) (h : (start s).Run t q) :
    Reached s t.length q := by
  induction h with
  | start =>
    have ha : (start s).party .active = (s .active).side (.synSent (s .active).isn) .sendSyn := by
      simp only [party, start, Setup.party, Engine.run, Engine.handshake, hvalid .active]
      rfl
    have hp : (start s).party .passive =
        (s .passive).side (.listening (s .passive).isn) .awaitSyn := by
      simp only [party, start, Setup.party, Engine.run, Engine.handshake, hvalid .passive]
      rfl
    refine ⟨isOpen_start s, fun _ => [], fun r => by cases r <;> rfl, .start ha hp rfl rfl, ?_⟩
    simp only [cost, ha, hp, Setup.cost_side _ (c := .synSent _) rfl,
      Setup.cost_side _ (c := .listening _) rfl, Point.cost, Segment.costs_nil, List.length_nil]
    omega
  | @step t q q' r _ hs ih =>
    obtain ⟨ho, w, hw, hph, hc⟩ := ih
    obtain ⟨ho', hother, out, hm, hi⟩ := step_moves ho hs
    rw [hw r] at hm
    obtain ⟨w', h1, h2, hph', hlt⟩ := hph.next hm hother hvalid
    refine ⟨ho', w', fun u => ?_, hph', ?_⟩
    · obtain rfl | rfl := Role.eq_or_eq_other r u
      · exact h1
      · rw [hi, hw, h2]
    · rw [List.length_append, List.length_singleton]
      omega

end Pair

end DatagramStream
