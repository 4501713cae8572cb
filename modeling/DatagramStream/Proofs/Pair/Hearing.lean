import DatagramStream.Proofs.Pair.Stream

/-! What a side makes of the stream that reaches it: the place it has reached tells what its
application has been given. -/

namespace DatagramStream

structure Exact (s : Setup) (config : Config) (c : Context) (inHand delivered : Bytes) (p : Place) :
    Prop where
  expected : c.expected =
    s.isn + UInt32.ofNat (if p.closed then s.staged.length + 2 else 1 + c.received)
  count : c.received + inHand.length = if s.Fits config then p.offset else 0
  delivered : delivered = s.staged.take c.received
  inHand : inHand <+: s.staged.drop c.received

structure Party.Hears (s : Setup) (x : Party) (p : Place) : Prop where
  closed : p.closed = x.engine.heardFin
  within : p.offset ≤ s.staged.length
  whole : p.closed = true → p.offset = s.staged.length
  room : ∀ g ∈ x.engine.held, g.encode.length < x.engine.config.receiveCapacity
  exact : s.staged.length + 2 < 2 ^ 32 →
    Exact s x.engine.config x.engine.ctx x.engine.inHand x.app.delivered p

namespace Setup

variable {s : Setup} {p q : Place} {g : Segment}

lemma Carries.within (h : s.Carries p g q) (hp : p.offset ≤ s.staged.length) :
    q.offset ≤ s.staged.length := by
  cases h with
  | ack => exact hp
  | data _ _ _ hb _ =>
    have hl := congrArg List.length hb
    simp only [List.length_take, List.length_drop] at hl
    simp only at hp ⊢
    omega
  | fin => exact Nat.le_refl _

lemma Carries.closed_eq (h : s.Carries p g q) : q.closed = (p.closed || g.header.flags.fin) := by
  cases h with
  | ack _ hf => simp [hf, Flags.ackOnly]
  | data _ hf => simp [hf, Flags.ackOnly]
  | fin _ hf => simp [hf, Flags.finOnly]

lemma Carries.whole (h : s.Carries p g q) (hp : p.closed = true → p.offset = s.staged.length) :
    q.closed = true → q.offset = s.staged.length := by
  cases h with
  | ack => exact hp
  | data => simp
  | fin => exact fun _ => rfl

lemma Carries.fin_of_ack (h : s.Carries p g q) (ha : g.header.flags.ack = true) :
    g.header.flags.fin = false := by
  cases h with
  | ack _ hf => rw [hf]; rfl
  | data _ hf => rw [hf]; rfl
  | fin _ hf => rw [hf] at ha; cases ha

end Setup

lemma Config.receiveCapacity_of_valid {c : Config} (h : c.validate = .ok ()) :
    c.receiveCapacity = c.mss + 61 := by
  rw [receiveCapacity, (payloadLimit_of_valid h).1, maxHeaderLength]
  omega

lemma Setup.fits_iff {s : Setup} {c : Config} (hv : c.validate = .ok ()) {g : Segment}
    (hg : g.payload = s.staged.take s.config.mss) :
    s.Fits c ↔ g.encode.length < c.receiveCapacity := by
  rw [Segment.length_encode, Config.receiveCapacity_of_valid hv, hg, List.length_take, Setup.Fits,
    headerLength]
  omega

lemma Setup.fits_of_oversized {s : Setup} {c : Config} (hv : c.validate = .ok ()) {g : Segment}
    {n : Nat} (hg : g.payload = (s.staged.drop n).take s.config.mss)
    (hl : c.receiveCapacity ≤ g.encode.length) : ¬ s.Fits c := by
  rw [Segment.length_encode, Config.receiveCapacity_of_valid hv, hg, List.length_take,
    List.length_drop, headerLength] at hl
  rw [Setup.Fits]
  omega

namespace Engine

variable {e : Engine} {g : Segment}

lemma onContent_of_pure (rest : Signals) (hf : g.header.flags = .ackOnly) (hb : g.payload = []) :
    e.onContent g rest = e.react rest := by
  simp [onContent, hf, hb, Flags.ackOnly]

lemma onContent_of_data (rest : Signals) (hf : g.header.flags = .ackOnly) (hb : g.payload ≠ [])
    (hc : e.ctx.state.canReceive = true) :
    e.onContent g rest =
      if e.ctx.inOrder g.header.seq then e.goto (.deliver g.payload rest) else e.react rest := by
  simp [onContent, hf, hb, hc, Flags.ackOnly]

lemma onContent_of_fin (rest : Signals) (hf : g.header.flags = .finOnly) :
    e.onContent g rest =
      { e with ctx := { e.ctx with expected := g.header.seq + 1 }, point := .ackFin rest } := by
  simp [onContent, hf, Flags.finOnly]

end Engine

section Content

variable {s : Setup} {e : Engine} {g : Segment} {p q : Place} {delivered : Bytes} {rest : Signals}
  {t : Teardown}

lemma exact_onContent (hs : s.staged.length + 2 < 2 ^ 32) (hv : e.config.validate = .ok ())
    (hl : e.ctx.Linked t) (hc : p.closed = e.ctx.peerFinSeen) (hp : p.offset ≤ s.staged.length)
    (hg : s.Carries p g q) (hr : g.encode.length < e.config.receiveCapacity)
    (h : Exact s e.config e.ctx [] delivered p) :
    Exact s e.config (e.onContent g rest).ctx (e.onContent g rest).inHand delivered q := by
  have hn : e.ctx.received = if s.Fits e.config then p.offset else 0 := h.count
  cases hg with
  | ack _ hf hb =>
    rw [Engine.onContent_of_pure rest hf hb, Engine.react_ctx, Engine.inHand_react]
    exact h
  | @data n g _ hf hb hd hq =>
    simp only at hn hp
    have he : e.ctx.expected = s.isn + UInt32.ofNat (1 + e.ctx.received) := h.expected
    have ho : e.ctx.inOrder g.header.seq = true ↔ n = e.ctx.received := by
      rw [Context.inOrder, beq_iff_eq, hq, he,
        SeqNum.add_ofNat_inj _ (by omega) (by split_ifs at hn <;> omega)]
      omega
    rw [Engine.onContent_of_data rest hf hb (hl.canReceive_of_unseen hc.symm)]
    split_ifs with hi
    · have hi := ho.mp hi
      have hfits : s.Fits e.config := by
        by_contra hf
        rw [if_neg hf] at hn
        rw [hi, hn, List.drop_zero] at hd
        exact hf ((Setup.fits_iff hv hd).mpr hr)
      refine ⟨he, ?_, h.delivered, ?_⟩
      · rw [if_pos hfits]
        simp only [Engine.goto, Engine.inHand, ← hi]
      · change g.payload <+: s.staged.drop e.ctx.received
        rw [hd, hi]
        exact List.take_prefix _ _
    · rw [Engine.react_ctx, Engine.inHand_react]
      have hfits : ¬ s.Fits e.config := fun hf => by
        rw [if_pos hf] at hn
        exact hi (ho.mpr hn.symm)
      refine ⟨he, ?_, h.delivered, List.nil_prefix⟩
      rw [if_neg hfits] at hn ⊢
      exact hn
  | fin _ hf hb hq =>
    rw [Engine.onContent_of_fin rest hf]
    refine ⟨?_, h.count, h.delivered, List.nil_prefix⟩
    simp only [hq, if_true, SeqNum.add_ofNat_succ]
    congr 2
    omega

end Content

namespace Party

variable {s t : Setup} {x x' : Party} {p q r : Place} {w w' out : List Segment}

namespace Hears

lemma still (h : x.Hears s p) (hc : x'.engine.heardFin = x.engine.heardFin)
    (hf : x'.engine.config = x.engine.config) (hh : x'.engine.held = [])
    (hi : x'.engine.inHand = x.engine.inHand)
    (he : x'.engine.ctx.expected = x.engine.ctx.expected)
    (hr : x'.engine.ctx.received = x.engine.ctx.received)
    (hd : x'.app.delivered = x.app.delivered) : x'.Hears s p := by
  refine ⟨h.closed.trans hc.symm, h.within, h.whole, by simp [hh], fun hs => ?_⟩
  obtain ⟨h1, h2, h3, h4⟩ := h.exact hs
  exact ⟨by rw [he, hr, h1], by rw [hr, hi, hf, h2], by rw [hd, hr, h3], by rw [hi, hr]; exact h4⟩

variable {e : Engine} {a : MemoryApp} {g : Segment}

lemma content {u : Teardown} (h : Hears s ⟨e, a⟩ p) (hv : e.config.validate = .ok ())
    (hl : e.ctx.Linked u) (hc : e.heardFin = e.ctx.peerFinSeen) (hi : e.inHand = [])
    (hg : s.Carries p g q) (hr : g.encode.length < e.config.receiveCapacity)
    (a' : MemoryApp) (hd : a'.delivered = a.delivered) (rest : Signals) :
    Hears s ⟨e.onContent g rest, a'⟩ q := by
  have hp : p.closed = e.ctx.peerFinSeen := h.closed.trans hc
  have hf : (e.onContent g rest).config = e.config :=
    congrArg Prod.fst (Engine.fixed_onContent e g rest)
  refine ⟨?_, hg.within h.within, hg.whole h.whole, by simp, fun hs => ?_⟩
  · rw [Engine.heardFin_onContent, hg.closed_eq, hp]
  · have hx := h.exact hs
    simp only [hi] at hx
    simp only [hf, hd]
    exact exact_onContent hs hv hl hp h.within hg hr hx

lemma hold (h : Hears s ⟨e, a⟩ p) (hc : e.heardFin = e.ctx.peerFinSeen) (hi : e.inHand = [])
    (hg : g.header.flags.fin = false) (hr : g.encode.length < e.config.receiveCapacity)
    (a' : MemoryApp) (hd : a'.delivered = a.delivered) (rest : Signals) :
    Hears s ⟨e.goto (.noteAck g rest), a'⟩ p := by
  refine ⟨?_, h.within, h.whole, fun k hk => ?_, fun hs => ?_⟩
  · rw [h.closed, hc]
    simp [Engine.heardFin, Engine.goto, hg]
  · obtain rfl := List.mem_singleton.mp hk
    exact hr
  · have hx := h.exact hs
    simp only [hi] at hx
    simp only [hd]
    exact hx

lemma oversized (h : Hears s ⟨e, a⟩ p) (hv : e.config.validate = .ok ())
    (hc : e.heardFin = e.ctx.peerFinSeen) (hi : e.inHand = []) (hg : s.Carries p g q)
    (hr : e.config.receiveCapacity ≤ g.encode.length) (a' : MemoryApp)
    (hd : a'.delivered = a.delivered) (rest : Signals) : Hears s ⟨e.react rest, a'⟩ q := by
  have hp := Config.headerLength_lt_receiveCapacity e.config
  have hb : g.payload ≠ [] := fun hb => by
    rw [Segment.length_encode, hb, List.length_nil] at hr
    omega
  cases hg with
  | ack _ _ hb' => exact absurd hb' hb
  | fin _ _ hb' => exact absurd hb' hb
  | data pl fl _ hk hq =>
    have hg := Setup.Carries.data pl fl hb hk hq
    refine ⟨?_, hg.within h.within, by simp, by simp, fun hs => ?_⟩
    · rw [Engine.heardFin_react, ← hc]
      exact h.closed
    · have hf := Setup.fits_of_oversized hv hk hr
      obtain ⟨h1, h2, h3, h4⟩ := h.exact hs
      simp only [hi, Engine.react_ctx, Engine.react_config, Engine.inHand_react, hd] at *
      refine ⟨h1, ?_, h3, List.nil_prefix⟩
      rw [if_neg hf] at h2 ⊢
      exact h2

lemma written {payload : Bytes} {rest : Signals} (h : Hears s ⟨e.goto (.deliver payload rest), a⟩ p)
    (hc : e.ctx.peerFinSeen = false) :
    Hears s ⟨{ e with ctx := e.ctx.recordDelivered payload.length, point := .ackData rest },
      { a with writes := payload :: a.writes }⟩ p := by
  have hp : p.closed = false := h.closed.trans (by simp [Engine.heardFin, Engine.goto, hc])
  refine ⟨h.closed, h.within, h.whole, by simp [Engine.held], fun hs => ?_⟩
  obtain ⟨h1, h2, h3, h4⟩ := h.exact hs
  simp only [hp, Bool.false_eq_true, if_false] at h1
  refine ⟨?_, h2, ?_, List.nil_prefix⟩
  · have h1 : e.ctx.expected = s.isn + UInt32.ofNat (1 + e.ctx.received) := h1
    simp only [hp, Bool.false_eq_true, if_false, Context.recordDelivered, h1, SeqNum.add_ofNat_add,
      Nat.add_assoc]
  · have h3 : a.delivered = s.staged.take e.ctx.received := h3
    have h4 : payload = (s.staged.drop e.ctx.received).take payload.length :=
      List.prefix_iff_eq_take.mp h4
    have hd : ({ a with writes := payload :: a.writes } : MemoryApp).delivered =
        a.delivered ++ payload := by simp [MemoryApp.delivered]
    simp only [Context.recordDelivered]
    rw [hd, h3, List.take_add, ← h4]

end Hears

theorem Acts.hears (h : x.Acts w x' w' out) (hl : x.Local t) (hv : t.config.validate = .ok ())
    (hh : x.Hears s p) (hf : s.Flow p (x.engine.held ++ w) r) :
    ∃ q, x'.Hears s q ∧ s.Flow q (x'.engine.held ++ w') r := by
  rw [← hl.config_eq] at hv
  have hlocal := hl.coherent
  cases h with
  | unblock => exact ⟨p, hh.still rfl rfl rfl rfl rfl rfl rfl, hf⟩
  | wait w honest =>
    refine ⟨p, hh.still ?_ ?_ ?_ ?_ ?_ ?_ rfl, by rw [Engine.held_react]; exact hf⟩
    · rw [Engine.heardFin_react]
      exact (Bool.or_false _).symm
    all_goals simp <;> rfl
  | read => exact ⟨p, hh.still rfl rfl rfl rfl rfl rfl rfl, hf⟩
  | sendData e a w payload rest =>
    refine ⟨p, hh.still ?_ ?_ ?_ ?_ ?_ ?_ rfl, by rw [Engine.held_react]; exact hf⟩
    · rw [Engine.heardFin_react]
      exact (Bool.or_false _).symm
    all_goals simp <;> rfl
  | @oversized e a g w rest large =>
    cases hf with
    | cons hg hf =>
      have hk := hh.oversized hv (Bool.or_false _) rfl hg large { a with pending := none } rfl rest
      exact ⟨_, hk, by rw [Engine.held_react]; exact hf⟩
  | @receive e a g w rest fits =>
    cases hf with
    | cons hg hf =>
      rw [Engine.onSegment]
      split_ifs with ha
      · have hk := hh.hold (Bool.or_false _) rfl (hg.fin_of_ack ha) fits { a with pending := none }
          rfl rest
        exact ⟨p, hk, .cons hg hf⟩
      · have hk := hh.content hv hlocal.1 (Bool.or_false _) rfl hg fits { a with pending := none }
          rfl rest
        exact ⟨_, hk, by rw [Engine.held_onContent]; exact hf⟩
  | noteAck e a w g rest =>
    cases hf with
    | cons hg hf =>
      have hn : g.header.flags.fin = false := by
        by_contra hn
        rw [Bool.not_eq_false] at hn
        have hc : p.closed = true := by simp [hh.closed, Engine.heardFin, Engine.goto, hn]
        cases hg with
        | ack _ hk => simp [hk, Flags.ackOnly] at hn
        | data _ hk => simp [hk, Flags.ackOnly] at hn
        | fin => cases hc
      have hr : g.encode.length < e.config.receiveCapacity :=
        hh.room g (by simp [Engine.held, Engine.goto])
      have hk : Hears s ⟨(e.onAck g.header.ack).goto .wait, a⟩ p := by
        refine hh.still ?_ ?_ ?_ ?_ ?_ ?_ rfl
        · simp [Engine.heardFin, Engine.goto, hn]
        · exact e.config_onAck _
        · rfl
        · rfl
        · exact e.expected_onAck _
        · exact e.received_onAck _
      refine ⟨_, hk.content ?_ (Engine.linked_onAck (e := e) hlocal.1 g.header.ack)
        (Bool.or_false _) rfl hg ?_ a rfl rest, by rw [Engine.held_onContent]; exact hf⟩
      · exact (congrArg Config.validate (e.config_onAck _)).trans hv
      · exact Nat.lt_of_lt_of_eq hr (congrArg Config.receiveCapacity (e.config_onAck _)).symm
  | ackFin e a w rest =>
    obtain ⟨h1, h2, h3, h4⟩ := e.onFinAnswered_keeps rest
    refine ⟨p, hh.still ?_ h2 ?_ ?_ h3 h4 rfl, by rw [Engine.held_onFinAnswered]; exact hf⟩
    · rw [h1]
      exact (Bool.or_true _).symm
    · simp
    · simp
      rfl
  | tellPeerClosed e a w rest =>
    obtain ⟨h1, h2⟩ := e.closeIfTimeWait_keeps
    refine ⟨p, hh.still ?_ ?_ ?_ ?_ ?_ ?_ rfl, by rw [Engine.held_react]; exact hf⟩
    · rw [Engine.heardFin_react, Engine.closeIfTimeWait_seen]
      exact (Bool.or_false _).symm
    · simp
      rfl
    · simp
    · simp
      rfl
    · rw [Engine.react_ctx, h1]
      rfl
    · rw [Engine.react_ctx, h2]
      rfl
  | deliver e a w payload rest =>
    obtain ⟨hk, hc, -⟩ := hlocal
    exact ⟨p, hh.written (hk.unseen_of_canReceive hc), hf⟩
  | ackData e a w rest =>
    refine ⟨p, hh.still ?_ ?_ ?_ ?_ ?_ ?_ rfl, by rw [Engine.held_react]; exact hf⟩
    · rw [Engine.heardFin_react]
      exact (Bool.or_false _).symm
    all_goals simp <;> rfl
  | sendFin => exact ⟨p, hh.still rfl rfl rfl rfl rfl rfl rfl, hf⟩
  | collectDue e a w =>
    refine ⟨p, hh.still ?_ rfl ?_ ?_ rfl rfl rfl, by rw [Engine.held_turn]; exact hf⟩
    · exact (Engine.heardFin_resending e []).trans (Bool.or_false _).symm
    · exact Engine.held_turn e
    · exact Engine.inHand_turn e

end Party

end DatagramStream
