import DatagramStream.Proofs.Session.Acknowledging

/-! The application is handed what a scan of the segments that have come in yields, and nothing
else. -/

namespace DatagramStream

namespace Trace

/-- The stream after a payload has been offered to the application. An answer that is still to come
counts as its consent, and a failure leaves the stream as it is for good. -/
def offer (stream payload : Bytes) (next : Bytes → List (Except IoError Unit) → Bytes) :
    List (Except IoError Unit) → Bytes
  | [] => next (stream ++ payload) []
  | .ok () :: answers => next (stream ++ payload) answers
  | .error _ :: _ => stream

/-- The stream that segments arriving one after the other amount to: the payload of each that lies
where the stream has got to, up to a FIN. -/
def scan (first : SeqNum) (stream : Bytes) : List Segment → List (Except IoError Unit) → Bytes
  | [], _ => stream
  | g :: more, answers =>
    if g.header.flags.fin then
      stream
    else if g.payload ≠ [] ∧ g.header.seq = first + UInt32.ofNat stream.length then
      offer stream g.payload (fun stream answers => scan first stream more answers) answers
    else
      scan first stream more answers

variable {first : SeqNum} {stream : Bytes} {g : Segment} {more : List Segment}
  {answers : List (Except IoError Unit)}

lemma scan_fin (h : g.header.flags.fin = true) :
    scan first stream (g :: more) answers = stream := by
  rw [scan, if_pos h]

lemma scan_skip (hf : g.header.flags.fin = false)
    (h : ¬(g.payload ≠ [] ∧ g.header.seq = first + UInt32.ofNat stream.length)) :
    scan first stream (g :: more) answers = scan first stream more answers := by
  rw [scan, if_neg (by simp [hf]), if_neg h]

lemma scan_offer (hf : g.header.flags.fin = false)
    (h : g.payload ≠ [] ∧ g.header.seq = first + UInt32.ofNat stream.length) :
    scan first stream (g :: more) answers =
      offer stream g.payload (scan first · more ·) answers := by
  rw [scan, if_neg (by simp [hf]), if_pos h]

variable {t u : Trace}

def onward (first : SeqNum) (t : Trace) (more : List Segment)
    (answers : List (Except IoError Unit)) : Bytes :=
  scan first [] (t.arrived ++ more) (t.answers ++ answers)

lemma onward_apart (ha : u.arrived = []) (hn : u.answers = []) :
    onward first (t ++ u) = onward first t := by
  funext more answers
  rw [onward, arrived_append, ha, answers_append, hn, List.append_nil, List.append_nil, onward]

lemma onward_hear (ha : u.arrived = [g]) (hn : u.answers = []) :
    onward first (t ++ u) more answers = onward first t (g :: more) answers := by
  rw [onward, arrived_append, ha, answers_append, hn, List.append_nil, List.append_assoc,
    List.singleton_append, onward]

lemma onward_answer {answer : Except IoError Unit} (ha : u.arrived = [])
    (hn : u.answers = [answer]) :
    onward first (t ++ u) more answers = onward first t more (answer :: answers) := by
  rw [onward, arrived_append, ha, answers_append, hn, List.append_nil, List.append_assoc,
    List.singleton_append, onward]

end Trace

namespace Engine

variable {e e' : Engine} {t : Trace} {events : List Event} {first : SeqNum}

def resume (first : SeqNum) (e : Engine) (stream : Bytes) (more : List Segment) :
    List (Except IoError Unit) → Bytes :=
  match e.point with
  | .noteAck g _ => Trace.scan first stream (g :: more)
  | .deliver payload _ => Trace.offer stream payload (Trace.scan first · more ·)
  | _ => Trace.scan first stream more

lemma resume_of_idle (h : e.Idle) (stream : Bytes) (more : List Segment) :
    e.resume first stream more = Trace.scan first stream more := by
  obtain ⟨config, ctx, thenLoop, point⟩ := e
  cases point <;> first | rfl | exact h.elim

lemma resume_onContent {g : Segment} {rest : Signals} {stream : Bytes}
    (hf : g.header.flags.fin = false) (hx : e.ctx.expected = first + UInt32.ofNat stream.length)
    (hr : e.ctx.state.canReceive = true)
    (more : List Segment) (answers : List (Except IoError Unit)) :
    (e.onContent g rest).resume first stream more answers =
      Trace.scan first stream (g :: more) answers := by
  have hd : (!g.payload.isEmpty && e.ctx.inOrder g.header.seq && e.ctx.state.canReceive) = true ↔
      g.payload ≠ [] ∧ g.header.seq = first + UInt32.ofNat stream.length := by
    simp [hr, Context.inOrder, hx]
  rw [onContent, if_neg (by simp [hf])]
  by_cases h : g.payload ≠ [] ∧ g.header.seq = first + UInt32.ofNat stream.length
  · rw [if_pos (hd.mpr h), Trace.scan_offer hf h]
    rfl
  · rw [if_neg (mt hd.mp h), resume_of_idle (idle_react e rest), Trace.scan_skip hf h]

lemma resume_onSegment {g : Segment} {rest : Signals} {stream : Bytes}
    (hf : g.header.flags.fin = false) (hx : e.ctx.expected = first + UInt32.ofNat stream.length)
    (hr : e.ctx.state.canReceive = true)
    (more : List Segment) (answers : List (Except IoError Unit)) :
    (e.onSegment g rest).resume first stream more answers =
      Trace.scan first stream (g :: more) answers := by
  rw [onSegment]
  split_ifs
  · rfl
  · exact resume_onContent hf hx hr more answers

inductive Delivers (first : SeqNum) (t : Trace) (e : Engine) : Prop
  | on (unheard : e.heardFin = false)
      (resumes : ∀ more answers,
        t.onward first more answers = e.resume first t.written more answers)
  | stopped (settled : e.heardFin = true ∨ e.stage = .finished)
      (stays : ∀ more answers, t.onward first more answers = t.written)

namespace Delivers

lemma apart (h : e.Delivers first t) (hp : e.stage ≠ .finished) (hs : e.Apart events e') :
    e'.Delivers first (t ++ events) := by
  have ho : Trace.onward first (t ++ events) = t.onward first :=
    Trace.onward_apart hs.arrived hs.answers
  have hw : Trace.written (t ++ events) = t.written := Trace.written_silent hs.written
  cases h with
  | on hf hr =>
    refine .on (hs.unheard hf) fun more answers => ?_
    rw [ho, hw, hr, resume_of_idle hs.before, resume_of_idle hs.after]
  | stopped hsettled hr =>
    refine .stopped (hs.heard (hsettled.resolve_right hp)) fun more answers => ?_
    rw [ho, hw, hr]

lemma hear {d : Bytes} {g : Segment} {rest : Signals}
    (h : (e.goto (.receive rest)).Delivers first t) (hs : (e.goto (.receive rest)).Sound)
    (ht : (e.goto (.receive rest)).Tracks first t)
    (good : Segment.ofBuffer e.config.receiveCapacity d = .ok g) :
    (e.onSegment g rest).Delivers first (t ++ [.receive e.config.receiveCapacity (.ok d)]) := by
  have ho (more : List Segment) (answers : List (Except IoError Unit)) :
      Trace.onward first (t ++ [.receive e.config.receiveCapacity (.ok d)]) more answers =
        t.onward first (g :: more) answers :=
    Trace.onward_hear (Trace.arrived_of_good good) rfl
  have hw : Trace.written (t ++ [.receive e.config.receiveCapacity (.ok d)]) = t.written :=
    Trace.written_silent rfl
  have hseen : (e.goto (.receive rest)).heardFin = e.ctx.peerFinSeen := Bool.or_false _
  have hserving : (e.goto (.receive rest)).stage ≠ .finished := by simp [stage, goto]
  cases h with
  | on hf hr =>
    have hunseen : e.ctx.peerFinSeen = false := hseen.symm.trans hf
    cases hfin : g.header.flags.fin with
    | true =>
      refine .stopped (.inl ?_) fun more answers => ?_
      · rw [heardFin_onSegment, hfin, Bool.or_true]
      · rw [ho, hw, hr]
        exact Trace.scan_fin hfin
    | false =>
      refine .on ?_ fun more answers => ?_
      · rw [heardFin_onSegment, hunseen, hfin, Bool.or_false]
      · have hx : e.ctx.expected = first + UInt32.ofNat t.written.length :=
          ht.expected_eq hserving hf
        rw [ho, hw, hr, resume_onSegment hfin hx (hs.coherent.1.canReceive_of_unseen hunseen)]
        rfl
  | stopped hsettled hr =>
    refine .stopped (.inl ?_) fun more answers => ?_
    · rw [heardFin_onSegment, ← hseen, hsettled.resolve_right hserving, Bool.true_or]
    · rw [ho, hw, hr]

lemma noteAck {g : Segment} {rest : Signals} (h : (e.goto (.noteAck g rest)).Delivers first t)
    (hs : (e.goto (.noteAck g rest)).Sound) (ht : (e.goto (.noteAck g rest)).Tracks first t) :
    ((e.onAck g.header.ack).onContent g rest).Delivers first (t ++ [.onAck g.header.ack]) := by
  have ho : Trace.onward first (t ++ [.onAck g.header.ack]) = t.onward first :=
    Trace.onward_apart rfl rfl
  have hw : Trace.written (t ++ [.onAck g.header.ack]) = t.written := Trace.written_silent rfl
  have hserving : (e.goto (.noteAck g rest)).stage ≠ .finished := by simp [stage, goto]
  have hheard : ((e.onAck g.header.ack).onContent g rest).heardFin =
      (e.goto (.noteAck g rest)).heardFin := by
    rw [heardFin_onContent, peerFinSeen_onAck]
    rfl
  cases h with
  | on hf hr =>
    obtain ⟨hunseen, hfin⟩ : e.ctx.peerFinSeen = false ∧ g.header.flags.fin = false := by
      simpa [heardFin, goto] using hf
    have hx : e.ctx.expected = first + UInt32.ofNat t.written.length := ht.expected_eq hserving hf
    -- The ACK may move the state on, but as long as no FIN has come in the peer's direction stays
    -- open.
    have hl : (e.onAck g.header.ack).ctx.Linked (e.onAck g.header.ack).config.teardown := by
      rw [config_onAck]
      exact linked_onAck (e := e) hs.coherent.1 g.header.ack
    have hreceive := hl.canReceive_of_unseen ((peerFinSeen_onAck e _).trans hunseen)
    refine .on (hheard.trans hf) fun more answers => ?_
    rw [ho, hw, hr, resume_onContent hfin ((expected_onAck e _).trans hx) hreceive]
    rfl
  | stopped hsettled hr =>
    refine .stopped (.inl (hheard.trans (hsettled.resolve_right hserving))) fun more answers => ?_
    rw [ho, hw, hr]

lemma offers {payload : Bytes} {rest : Signals}
    (h : (e.goto (.deliver payload rest)).Delivers first t)
    (hs : (e.goto (.deliver payload rest)).Sound) :
    (e.goto (.deliver payload rest)).heardFin = false ∧ ∀ more answers,
      t.onward first more answers =
        Trace.offer t.written payload (Trace.scan first · more ·) answers := by
  cases h with
  | on hf hr => exact ⟨hf, hr⟩
  | stopped hsettled hr =>
    rcases hsettled with hheard | hended
    · rw [hs.unheard_of_deliver] at hheard
      cases hheard
    · cases hended

lemma deliver {payload : Bytes} {rest : Signals}
    (h : (e.goto (.deliver payload rest)).Delivers first t)
    (hs : (e.goto (.deliver payload rest)).Sound) :
    Delivers first (t ++ [.write payload (.ok ())])
      { e with ctx := e.ctx.recordDelivered payload.length, point := .ackData rest } := by
  obtain ⟨hunheard, hoffer⟩ := h.offers hs
  refine .on hunheard fun more answers => ?_
  rw [Trace.onward_answer rfl rfl, hoffer, Trace.written_append]
  rw [show Trace.written [.write payload (.ok ())] = payload from List.append_nil payload]
  rfl

lemma refuse {payload : Bytes} {rest : Signals} {cause : IoError}
    (h : (e.goto (.deliver payload rest)).Delivers first t)
    (hs : (e.goto (.deliver payload rest)).Sound) :
    (e.fail (.io cause)).Delivers first (t ++ [.write payload (.error cause)]) := by
  obtain ⟨-, hoffer⟩ := h.offers hs
  refine .stopped (.inr rfl) fun more answers => ?_
  rw [Trace.onward_answer rfl rfl, hoffer, Trace.written_silent rfl]
  rfl

lemma step (h : e.Delivers first t) (hs : e.Sound) (ht : e.Tracks first t) (he : e.Step events e') :
    e'.Delivers first (t ++ events) := by
  cases (hs.loopStep he).intake with
  | apart ha => exact h.apart (stage_ne_finished he) ha
  | hear e rest good => exact h.hear hs ht good
  | noteAck e g rest => exact h.noteAck hs ht
  | deliver e payload rest => exact h.deliver hs
  | refuse e payload rest cause => exact h.refuse hs

end Delivers

end Engine

namespace Machine

variable {π σ : Type} {P : Policy π} {H : Host σ} {config : Config} {isn : SeqNum} {role : Role}
  {opening t : Trace} {m₀ m : Machine π σ}

end Machine

end DatagramStream
