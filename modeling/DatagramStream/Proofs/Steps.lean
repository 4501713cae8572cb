import DatagramStream.Engine.Step
import DatagramStream.Proofs.Wire

/-! What one step of an engine can be under any surroundings, and what a trace of calls says. -/

namespace DatagramStream

/-- The request leads to `t` when the surroundings answer it with the listed calls. -/
def Request.Answered {τ : Type} : Request τ → List Event → τ → Prop
  | .transmit s next, events, t =>
    (events = [.send s.header.encode s.payload (.ok ()), .onSend s] ∧ t = next (.ok ())) ∨
      ∃ cause, events = [.send s.header.encode s.payload (.error cause)] ∧ t = next (.error cause)
  | .resend header payload next, events, t =>
    ∃ outcome, events = [.resend header payload outcome] ∧ t = next outcome
  | .receive capacity next, events, t =>
    ∃ outcome, events = [.receive capacity outcome] ∧ t = next outcome
  | .read limit next, events, t => ∃ outcome, events = [.read limit outcome] ∧ t = next outcome
  | .write data next, events, t => ∃ outcome, events = [.write data outcome] ∧ t = next outcome
  | .unblock next, events, t => events = [.unblock] ∧ t = next
  | .peerClosed next, events, t => events = [.peerClosed] ∧ t = next
  | .wait interest next, events, t =>
    ∃ deadline outcome, events = [.wait interest deadline outcome] ∧ t = next outcome
  | .noteAck ack next, events, t => events = [.onAck ack] ∧ t = next
  | .collectDue next, events, t => ∃ datagrams, events = [.due datagrams] ∧ t = next datagrams
  | .finished _, _, _ => False

lemma Request.Answered.of_transmit {τ : Type} {s : Segment} {next : Except IoError Unit → τ}
    {events : List Event} {t : τ} (h : (Request.transmit s next).Answered events t) :
    ∃ outcome, t = next outcome := by
  obtain ⟨-, rfl⟩ | ⟨cause, -, rfl⟩ := h
  · exact ⟨.ok (), rfl⟩
  · exact ⟨.error cause, rfl⟩

def Engine.Step (e : Engine) (events : List Event) (e' : Engine) : Prop :=
  e.request.Answered events e'

namespace Machine

variable {π σ : Type} {P : Policy π} {H : Host σ} {m m' : Machine π σ} {events : List Event}

lemma step_engine (h : m.step P H = some (m', events)) : m.engine.Step events m'.engine := by
  rw [step] at h
  rw [Engine.Step]
  cases hr : m.engine.request with
  | transmit s next =>
    rw [hr] at h
    cases ho : (H.send s.header.encode s.payload m.host).1 with
    | ok u =>
      simp only [ho, Option.some.injEq, Prod.mk.injEq] at h
      obtain ⟨rfl, rfl⟩ := h
      exact .inl ⟨rfl, rfl⟩
    | error cause =>
      simp only [ho, Option.some.injEq, Prod.mk.injEq] at h
      obtain ⟨rfl, rfl⟩ := h
      exact .inr ⟨cause, rfl, rfl⟩
  | resend header payload next | read limit next | write data next =>
    simp only [hr, Option.some.injEq, Prod.mk.injEq] at h
    obtain ⟨rfl, rfl⟩ := h
    exact ⟨_, rfl, rfl⟩
  | receive capacity next =>
    simp only [hr, Option.map_eq_some_iff, Prod.mk.injEq] at h
    obtain ⟨_, _, rfl, rfl⟩ := h
    exact ⟨_, rfl, rfl⟩
  | wait interest next =>
    simp only [hr, Option.map_eq_some_iff, Prod.mk.injEq] at h
    obtain ⟨_, _, rfl, rfl⟩ := h
    exact ⟨_, _, rfl, rfl⟩
  | unblock next | peerClosed next | noteAck ack next =>
    simp only [hr, Option.some.injEq, Prod.mk.injEq] at h
    obtain ⟨rfl, rfl⟩ := h
    exact ⟨rfl, rfl⟩
  | collectDue next =>
    simp only [hr, Option.some.injEq, Prod.mk.injEq] at h
    obtain ⟨rfl, rfl⟩ := h
    exact ⟨_, rfl, rfl⟩
  | finished result => simp [hr] at h

lemma step_ended (h : m.engine.result?.isSome) : m.step P H = none := by
  rw [step]
  cases hp : m.engine.point <;> simp_all [Engine.result?, Engine.request]

lemma iterate_keeps {I : List Event → Machine π σ → Prop} {t past : List Event}
    (hstep : ∀ {t m m' events}, I t m → m.step P H = some (m', events) → I (t ++ events) m')
    (hm : I t m) (hp : past.reverse = t) (fuel : Nat) :
    I (m.iterate P H fuel past).2.reverse (m.iterate P H fuel past).1 := by
  induction fuel generalizing m t past with
  | zero =>
    rw [iterate, hp]
    exact hm
  | succ fuel ih =>
    rw [iterate]
    cases hs : m.step P H with
    | none =>
      rw [hp]
      exact hm
    | some next =>
      apply ih (hstep hm hs)
      rw [List.reverse_append, hp, List.reverse_reverse]

end Machine

namespace Event

def datagram? : Event → Option Bytes
  | send header payload (.ok ()) | resend header payload (.ok ()) => some (header ++ payload)
  | _ => none

def receipt? : Event → Option (Nat × Except IoError Bytes)
  | receive capacity outcome => some (capacity, outcome)
  | _ => none

def readBytes : Event → Bytes
  | read _ (.ok data) => data
  | _ => []

def writtenBytes : Event → Bytes
  | write data (.ok ()) => data
  | _ => []

def isFin (datagram : Bytes) : Bool :=
  match Segment.parse datagram with
  | .ok s => s.header.flags.fin
  | .error _ => false

lemma isFin_encode {s : Segment} (hp : s.Plain) : isFin s.encode = s.header.flags.fin := by
  rw [isFin, Segment.parse_encode hp]

def sendsFin : Event → Bool
  | send header payload (.ok ()) => isFin (header ++ payload)
  | _ => false

def receivesFin : Event → Bool
  | receive _ (.ok data) => isFin data
  | _ => false

end Event

abbrev Trace := List Event

namespace Trace

def datagrams (t : Trace) : List Bytes :=
  t.filterMap Event.datagram?

def receipts (t : Trace) : List (Nat × Except IoError Bytes) :=
  t.filterMap Event.receipt?

def finsSent (t : Trace) : Nat :=
  t.countP Event.sendsFin

def finsReceived (t : Trace) : Nat :=
  t.countP Event.receivesFin

def read (t : Trace) : Bytes :=
  t.flatMap Event.readBytes

def written (t : Trace) : Bytes :=
  t.flatMap Event.writtenBytes

@[simp] lemma datagrams_append (t u : Trace) : datagrams (t ++ u) = datagrams t ++ datagrams u :=
  List.filterMap_append

@[simp] lemma receipts_append (t u : Trace) : receipts (t ++ u) = receipts t ++ receipts u :=
  List.filterMap_append

@[simp] lemma finsSent_append (t u : Trace) : finsSent (t ++ u) = finsSent t + finsSent u :=
  List.countP_append

@[simp] lemma finsReceived_append (t u : Trace) :
    finsReceived (t ++ u) = finsReceived t + finsReceived u :=
  List.countP_append

@[simp] lemma read_append (t u : Trace) : read (t ++ u) = read t ++ read u :=
  List.flatMap_append

@[simp] lemma written_append (t u : Trace) : written (t ++ u) = written t ++ written u :=
  List.flatMap_append

end Trace

inductive Host.Call {σ : Type} (H : Host σ) (s : σ) (events : Trace) (s' : σ) : Prop
  | sent (header payload : Bytes) : H.send header payload s = (.ok (), s') → events.receipts = [] →
      events.datagrams = [header ++ payload] → Call H s events s'
  | refused (header payload : Bytes) (cause : IoError) :
      H.send header payload s = (.error cause, s') →
      events.receipts = [] → events.datagrams = [] → Call H s events s'
  | received (capacity : Nat) (outcome : Except IoError Bytes) :
      H.receive capacity s = some (outcome, s') →
      events.receipts = [(capacity, outcome)] → events.datagrams = [] → Call H s events s'
  | waited (interest : Signals) (deadline : Option Millis) (outcome : Except IoError Signals) :
      H.wait interest deadline s = some (outcome, s') →
      events.receipts = [] → events.datagrams = [] → Call H s events s'
  | read (limit : Nat) : s' = (H.read limit s).2 → events.receipts = [] → events.datagrams = [] →
      Call H s events s'
  | write (data : Bytes) : s' = (H.write data s).2 → events.receipts = [] → events.datagrams = [] →
      Call H s events s'
  | unblock : s' = H.unblock s → events.receipts = [] → events.datagrams = [] → Call H s events s'
  | peerClosed : s' = H.peerClosed s → events.receipts = [] → events.datagrams = [] →
      Call H s events s'
  | elsewhere : s' = s → events.receipts = [] → events.datagrams = [] → Call H s events s'

lemma Machine.step_call {π σ : Type} {P : Policy π} {H : Host σ} {m m' : Machine π σ}
    {events : List Event} (h : m.step P H = some (m', events)) : H.Call m.host events m'.host := by
  obtain ⟨engine, policy, host⟩ := m
  rw [step] at h
  cases hr : engine.request with
  | transmit g next =>
    rw [hr] at h
    cases ho : (H.send g.header.encode g.payload host).1 with
    | ok u =>
      simp only [ho, Option.some.injEq, Prod.mk.injEq] at h
      obtain ⟨rfl, rfl⟩ := h
      exact .sent g.header.encode g.payload (Prod.ext ho rfl) rfl rfl
    | error cause =>
      simp only [ho, Option.some.injEq, Prod.mk.injEq] at h
      obtain ⟨rfl, rfl⟩ := h
      exact .refused g.header.encode g.payload cause (Prod.ext ho rfl) rfl rfl
  | resend header payload next =>
    simp only [hr, Option.some.injEq, Prod.mk.injEq] at h
    obtain ⟨rfl, rfl⟩ := h
    cases ho : (H.send header payload host).1 with
    | ok u => exact .sent header payload (Prod.ext ho rfl) rfl rfl
    | error cause => exact .refused header payload cause (Prod.ext ho rfl) rfl rfl
  | receive capacity next =>
    simp only [hr, Option.map_eq_some_iff, Prod.mk.injEq] at h
    obtain ⟨⟨outcome, host'⟩, hreceive, rfl, rfl⟩ := h
    exact .received capacity outcome hreceive rfl rfl
  | wait interest next =>
    simp only [hr, Option.map_eq_some_iff, Prod.mk.injEq] at h
    obtain ⟨⟨outcome, host'⟩, hwait, rfl, rfl⟩ := h
    exact .waited interest _ outcome hwait rfl rfl
  | read limit next =>
    simp only [hr, Option.some.injEq, Prod.mk.injEq] at h
    obtain ⟨rfl, rfl⟩ := h
    exact .read limit rfl rfl rfl
  | write data next =>
    simp only [hr, Option.some.injEq, Prod.mk.injEq] at h
    obtain ⟨rfl, rfl⟩ := h
    exact .write data rfl rfl rfl
  | unblock next =>
    simp only [hr, Option.some.injEq, Prod.mk.injEq] at h
    obtain ⟨rfl, rfl⟩ := h
    exact .unblock rfl rfl rfl
  | peerClosed next =>
    simp only [hr, Option.some.injEq, Prod.mk.injEq] at h
    obtain ⟨rfl, rfl⟩ := h
    exact .peerClosed rfl rfl rfl
  | noteAck ack next | collectDue next =>
    simp only [hr, Option.some.injEq, Prod.mk.injEq] at h
    obtain ⟨rfl, rfl⟩ := h
    exact .elsewhere rfl rfl rfl
  | finished result => simp [hr] at h

end DatagramStream
