import DatagramStream.Proofs.Renumbering.Wire
import DatagramStream.Proofs.Session.Loop

/-! An engine does the same whatever its sequence numbers and those of its peer start from. -/

namespace DatagramStream

def InitialSeq.shift (own : SeqNum) : InitialSeq → InitialSeq
  | fixed n => fixed (n + own)
  | random => random

def Config.shift (own : SeqNum) (c : Config) : Config :=
  { c with isn := c.isn.shift own }

def Context.shift (own peer : SeqNum) (c : Context) : Context :=
  { c with isn := c.isn + own, next := c.next + own, expected := c.expected + peer }

def Point.shift (own peer : SeqNum) : Point → Point
  | noteAck g rest => noteAck (g.shift peer own) rest
  | p => p

lemma SeqNum.add_right_comm (a b c : SeqNum) : a + b + c = a + c + b := by
  rw [UInt32.add_assoc, UInt32.add_comm b c, UInt32.add_assoc]

lemma Context.shift_recordSent (own peer : SeqNum) (c : Context) (flags : Flags) (payload : Nat) :
    (c.recordSent flags payload).shift own peer = (c.shift own peer).recordSent flags payload := by
  simp only [recordSent, shift, SeqNum.add_right_comm c.next]

lemma Context.shift_recordDelivered (own peer : SeqNum) (c : Context) (payload : Nat) :
    (c.recordDelivered payload).shift own peer = (c.shift own peer).recordDelivered payload := by
  simp only [recordDelivered, shift, SeqNum.add_right_comm c.expected]

namespace Engine

def shift (own peer : SeqNum) (e : Engine) : Engine where
  config := e.config.shift own
  ctx := e.ctx.shift own peer
  thenLoop := e.thenLoop
  point := e.point.shift own peer

variable {e : Engine} {own peer now : SeqNum}

@[simp] lemma state_shift : (e.shift own peer).ctx.state = e.ctx.state := rfl

@[simp] lemma acks_shift : (e.shift own peer).config.acks = e.config.acks := rfl

@[simp] lemma result?_shift : (e.shift own peer).result? = e.result? := by
  obtain ⟨config, ctx, thenLoop, point⟩ := e
  cases point <;> rfl

lemma shift_turn : e.turn.shift own peer = (e.shift own peer).turn := by
  rw [turn, turn, show (e.shift own peer).ctx.done = e.ctx.done from rfl]
  split_ifs <;> rfl

lemma shift_resending (datagrams : List Bytes) :
    (e.resending datagrams).shift own peer = (e.shift own peer).resending datagrams := by
  cases datagrams with
  | nil => exact shift_turn
  | cons datagram more => rfl

lemma shift_react (rest : Signals) :
    (e.react rest).shift own peer = (e.shift own peer).react rest := by
  rw [react, react, state_shift]
  split_ifs <;> rfl

lemma shift_closeIfTimeWait :
    e.closeIfTimeWait.shift own peer = (e.shift own peer).closeIfTimeWait := by
  rw [closeIfTimeWait, closeIfTimeWait, state_shift]
  split_ifs <;> rfl

lemma shift_onFinAnswered (rest : Signals) :
    (e.onFinAnswered rest).shift own peer = (e.shift own peer).onFinAnswered rest := by
  rw [onFinAnswered, onFinAnswered,
    show (e.shift own peer).ctx.peerFinSeen = e.ctx.peerFinSeen from rfl]
  split_ifs
  · rw [shift_react, shift_closeIfTimeWait]
  · rfl

lemma shift_opened (opened : Except ConnectionError Unit) :
    (e.opened opened).shift own peer = (e.shift own peer).opened opened := by
  cases opened with
  | error cause => rfl
  | ok u =>
    rw [Engine.opened, Engine.opened, state_shift,
      show (e.shift own peer).thenLoop = e.thenLoop from rfl]
    split_ifs
    · exact shift_turn
    · rfl
    · rfl

lemma beq_shift (a b n : SeqNum) : (a + n == b + n) = (a == b) := by
  rw [Bool.eq_iff_iff, beq_iff_eq, beq_iff_eq]
  exact UInt32.add_left_inj n

lemma accepts_shift (check : AckCheck) (ack expected : SeqNum) :
    check.accepts (ack + own) (expected + own) = check.accepts ack expected := by
  cases check with
  | permissive => rfl
  | strict => exact beq_shift ack expected own

lemma shift_onAck (ack : SeqNum) :
    (e.onAck ack).shift own peer = (e.shift own peer).onAck (ack + own) := by
  rw [onAck, onAck, state_shift, acks_shift,
    show (e.shift own peer).ctx.next = e.ctx.next + own from rfl, accepts_shift]
  split_ifs <;> rfl

lemma shift_expect (seq : SeqNum) (p : Point) :
    shift own peer { e with ctx := { e.ctx with expected := seq + 1 }, point := p } =
      { e.shift own peer with
        ctx := { (e.shift own peer).ctx with expected := seq + peer + 1 }
        point := p.shift own peer } := by
  rw [SeqNum.add_right_comm]
  rfl

lemma shift_onContent (g : Segment) (rest : Signals) :
    (e.onContent g rest).shift own peer =
      (e.shift own peer).onContent (g.shift peer own) rest := by
  have horder : (e.shift own peer).ctx.inOrder (g.shift peer own).header.seq =
      e.ctx.inOrder g.header.seq :=
    beq_shift g.header.seq e.ctx.expected peer
  rw [onContent, onContent, horder, state_shift,
    show (g.shift peer own).payload = g.payload from rfl,
    show (g.shift peer own).header.flags = g.header.flags from rfl]
  split_ifs
  · exact shift_expect g.header.seq _
  · rfl
  · exact shift_react rest

lemma shift_onSegment (g : Segment) (rest : Signals) : (e.onSegment g rest).shift own peer =
    (e.shift own peer).onSegment (g.shift peer own) rest := by
  rw [onSegment, onSegment, show (g.shift peer own).header.flags = g.header.flags from rfl]
  split_ifs
  · rfl
  · exact shift_onContent g rest

/-! The handshake. -/

lemma acksSyn_shift (g : Segment) : (e.shift own now).acksSyn (g.shift peer own) = e.acksSyn g := by
  have hack : e.config.acks.accepts (g.header.ack + own) (e.ctx.isn + own + 1) =
      e.config.acks.accepts g.header.ack (e.ctx.isn + 1) := by
    rw [SeqNum.add_right_comm]
    exact accepts_shift e.config.acks g.header.ack (e.ctx.isn + 1)
  rw [acksSyn, acksSyn, ← hack]
  rfl

lemma onSynAck_shift (g : Segment) : (e.shift own now).onSynAck (g.shift peer own) =
    (e.onSynAck g).shift own (if g.header.flags.syn && e.acksSyn g then peer else now) := by
  rw [onSynAck, onSynAck, acksSyn_shift,
    show (g.shift peer own).header.flags = g.header.flags from rfl]
  split_ifs
  · simp only [shift, Context.shift, Point.shift, Segment.shift, Header.shift,
      SeqNum.add_right_comm _ 1]
  · rfl

lemma onSyn_shift (g : Segment) : (e.shift own now).onSyn (g.shift peer own) =
    (e.onSyn g).shift own (if g.header.flags.syn then peer else now) := by
  rw [onSyn, onSyn, show (g.shift peer own).header.flags = g.header.flags from rfl]
  split_ifs
  · simp only [shift, Context.shift, Context.transition, Point.shift, Segment.shift, Header.shift,
      SeqNum.add_right_comm _ 1]
  · rfl

lemma onFirstAck_shift (g : Segment) : (e.shift own now).onFirstAck (g.shift peer own) =
    (e.onFirstAck g).shift own now := by
  rw [onFirstAck, onFirstAck, acksSyn_shift]
  split_ifs
  · simp only [shift, Context.shift, Context.transition, Point.shift, SeqNum.add_right_comm _ 1]
  · rfl

lemma arrival_shift (answer : Except IoError Bytes) :
    (e.shift own now).arrival (answer.map (Bytes.shift peer own)) =
      (e.arrival answer).map (Option.map (Segment.shift peer own)) := by
  have hcapacity : (e.shift own now).config.receiveCapacity = e.config.receiveCapacity := rfl
  cases answer with
  | error cause => rfl
  | ok b =>
    cases b with
    | nil => rfl
    | cons x b =>
      have hlength : (Bytes.shift peer own (x :: b)).length = b.length + 1 := by
        rw [Bytes.length_shift, List.length_cons]
      have hread := Segment.ofBuffer_shift e.config.receiveCapacity peer own (x :: b)
      simp only [Except.map, arrival]
      cases hs : Bytes.shift peer own (x :: b) with
      | nil =>
        rw [hs] at hlength
        cases hlength
      | cons y b' =>
        rw [hs] at hread
        simp only [hcapacity, hread]
        cases Segment.ofBuffer e.config.receiveCapacity (x :: b) <;> rfl

def takesSyn (e : Engine) (g : Segment) : Bool :=
  match e.point with
  | .awaitSynAck => g.header.flags.syn && e.acksSyn g
  | .awaitSyn => g.header.flags.syn
  | _ => false

def later (peer now : SeqNum) (e : Engine) (answer : Except IoError Bytes) : SeqNum :=
  match e.arrival answer with
  | .ok (some g) => if e.takesSyn g then peer else now
  | _ => now

end Engine

inductive Request.Shifted (own peer now : SeqNum) (later : Except IoError Bytes → SeqNum) :
    Request Engine → Request Engine → Prop
  | transmit {g : Segment} {next next' : Except IoError Unit → Engine}
      (h : ∀ o, next' o = (next o).shift own now) :
      Shifted own peer now later (.transmit g next) (.transmit (g.shift own now) next')
  | resend {header payload : Bytes} {next next' : Except IoError Unit → Engine}
      (h : ∀ o, next' o = (next o).shift own now) :
      Shifted own peer now later (.resend header payload next) (.resend header payload next')
  | receive {capacity : Nat} {next next' : Except IoError Bytes → Engine}
      (large : headerLength ≤ capacity)
      (h : ∀ a, next' (a.map (Bytes.shift peer own)) = (next a).shift own (later a)) :
      Shifted own peer now later (.receive capacity next) (.receive capacity next')
  | read {limit : Nat} {next next' : Except IoError Bytes → Engine}
      (h : ∀ a, next' a = (next a).shift own now) :
      Shifted own peer now later (.read limit next) (.read limit next')
  | write {data : Bytes} {next next' : Except IoError Unit → Engine}
      (h : ∀ o, next' o = (next o).shift own now) :
      Shifted own peer now later (.write data next) (.write data next')
  | unblock {next next' : Engine} (h : next' = next.shift own now) :
      Shifted own peer now later (.unblock next) (.unblock next')
  | peerClosed {next next' : Engine} (h : next' = next.shift own now) :
      Shifted own peer now later (.peerClosed next) (.peerClosed next')
  | wait {interest : Signals} {next next' : Except IoError Signals → Engine}
      (h : ∀ o, next' o = (next o).shift own now) :
      Shifted own peer now later (.wait interest next) (.wait interest next')
  | noteAck {ack : SeqNum} {next next' : Engine} (h : next' = next.shift own now) :
      Shifted own peer now later (.noteAck ack next) (.noteAck (ack + own) next')
  | collectDue {next next' : List Bytes → Engine} (h : ∀ d, next' d = (next d).shift own now) :
      Shifted own peer now later (.collectDue next) (.collectDue next')
  | finished (result : Except ConnectionError Unit) :
      Shifted own peer now later (.finished result) (.finished result)

namespace Engine

variable {e : Engine} {own peer now : SeqNum}

lemma onSuccess_shift {α : Type} {next next' : α → Engine}
    (h : ∀ a, next' a = (next a).shift own now) (outcome : Except IoError α) :
    (e.shift own now).onSuccess next' outcome = (e.onSuccess next outcome).shift own now := by
  cases outcome with
  | error cause => rfl
  | ok a => exact h a

lemma onReply_shift {onSegment : Engine → Segment → Engine}
    (h : ∀ g, onSegment (e.shift own now) (g.shift peer own) =
      (onSegment e g).shift own (if e.takesSyn g then peer else now))
    (answer : Except IoError Bytes) :
    (e.shift own now).onReply onSegment (answer.map (Bytes.shift peer own)) =
      (e.onReply onSegment answer).shift own (e.later peer now answer) := by
  rw [onReply, onReply, arrival_shift, later]
  cases e.arrival answer with
  | error cause => rfl
  | ok found =>
    cases found with
    | none => rfl
    | some g => exact h g

theorem request_shift (hnow : e.stage = .serving → now = peer) :
    Request.Shifted own peer now (e.later peer now) e.request (e.shift own now).request := by
  have hcapacity : headerLength ≤ e.config.receiveCapacity :=
    Nat.le_of_lt e.config.headerLength_lt_receiveCapacity
  obtain ⟨config, ctx, thenLoop, point⟩ := e
  cases point with
  | sendSyn | ackSynAck | sendSynAck => exact .transmit fun o => by cases o <;> rfl
  | awaitSynAck => exact .receive hcapacity (onReply_shift onSynAck_shift)
  | awaitSyn => exact .receive hcapacity (onReply_shift onSyn_shift)
  | awaitFirstAck => exact .receive hcapacity (onReply_shift onFirstAck_shift)
  | unblock outcome => exact .unblock (shift_opened outcome).symm
  | wait => exact .wait (onSuccess_shift fun ready => (shift_react _).symm)
  | read rest =>
    apply Request.Shifted.read
    apply onSuccess_shift
    intro data
    split_ifs
    · exact (shift_react rest).symm
    · rfl
  | sendData payload rest =>
    apply Request.Shifted.transmit
    apply onSuccess_shift
    intro u
    rw [shift_react]
    exact congrArg (fun c => react ⟨config.shift own, c, thenLoop, .sendData payload rest⟩ rest)
      (ctx.shift_recordSent own now .ackOnly payload.length).symm
  | receive rest =>
    obtain rfl := hnow rfl
    apply Request.Shifted.receive hcapacity
    intro answer
    rw [arrival_shift, later]
    cases arrival _ answer with
    | error cause => rfl
    | ok found =>
      cases found with
      | none => exact (shift_react rest).symm
      | some g => exact (shift_onSegment g rest).symm
  | noteAck g rest =>
    obtain rfl := hnow rfl
    apply Request.Shifted.noteAck
    rw [shift_onContent, shift_onAck]
    rfl
  | ackFin rest => exact .transmit (onSuccess_shift fun _ => (shift_onFinAnswered rest).symm)
  | tellPeerClosed rest =>
    apply Request.Shifted.peerClosed
    rw [shift_react, shift_closeIfTimeWait]
  | deliver payload rest =>
    apply Request.Shifted.write
    apply onSuccess_shift
    intro u
    exact congrArg (fun c => Engine.mk (config.shift own) c thenLoop (.ackData rest))
      (ctx.shift_recordDelivered own now payload.length).symm
  | ackData rest => exact .transmit (onSuccess_shift fun _ => (shift_react rest).symm)
  | sendFin =>
    apply Request.Shifted.transmit
    apply onSuccess_shift
    intro u
    exact congrArg
      (fun c => Engine.mk (config.shift own) (c.transition .sendFin) thenLoop (.receive .empty))
      (ctx.shift_recordSent own now .finOnly 0).symm
  | collectDue => exact .collectDue fun d => (shift_resending d).symm
  | resend datagram more => exact .resend (onSuccess_shift fun _ => (shift_resending more).symm)
  | ended result => exact .finished result

end Engine

end DatagramStream
