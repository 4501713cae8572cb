import DatagramStream.Memory.Pair
import DatagramStream.Proofs.Lifecycle

/-! What one side of a link does in a step, in terms of the datagrams in flight towards it and of
those that it puts in flight. -/

namespace DatagramStream

structure Setup where
  config : Config
  isn : SeqNum
  staged : Bytes := []
  closeRequested : Bool := false
  closeOnPeerFin : Bool := false

namespace Setup

def app (s : Setup) : MemoryApp where
  outbound := s.staged
  closeRequested := s.closeRequested
  closeOnPeerFin := s.closeOnPeerFin

def party (s : Setup) (role : Role) : Party :=
  ⟨Engine.run s.config (.new s.isn) role, s.app⟩

end Setup

namespace Engine

lemma networkData_of_request_wait (e : Engine) {interest : Signals}
    {next : Except IoError Signals → Engine} (h : e.request = .wait interest next) :
    interest.networkData = true := by
  rw [request] at h
  split at h
  all_goals try cases h
  rw [Engine.interest]
  split_ifs <;> rfl

end Engine

namespace Party

def machine (x : Party) (incoming outgoing : List Bytes) : Machine Unit MemoryHost :=
  ⟨x.engine, (), { link := ⟨{ queue := incoming }, { queue := outgoing }⟩, app := x.app }⟩

def inbox (x : Party) (incoming : List Bytes) : List Bytes :=
  x.app.pending.toList ++ incoming

def ready (x : Party) (interest : Signals) (network : Bool) : Signals where
  appData := interest.appData && !x.app.outbound.isEmpty
  networkData := network
  closeRequested := interest.closeRequested && x.app.closeRequested && x.app.outbound.isEmpty

def Moves (x : Party) (inbox : List Bytes) (events : List Event) (x' : Party)
    (inbox' out : List Bytes) :
    Prop :=
  match x.engine.request with
  | .transmit s next =>
    events = [.send s.header.encode s.payload (.ok ()), .onSend s] ∧
      x' = { x with engine := next (.ok ()) } ∧ inbox' = inbox ∧ out = [s.encode]
  | .resend header payload next =>
    events = [.resend header payload (.ok ())] ∧ x' = { x with engine := next (.ok ()) } ∧
      inbox' = inbox ∧ out = [header ++ payload]
  | .receive capacity next =>
    ∃ d, inbox = d :: inbox' ∧ events = [.receive capacity (.ok (d.take capacity))] ∧
      x' = ⟨next (.ok (d.take capacity)), { x.app with pending := none }⟩ ∧ out = []
  | .read limit next =>
    events = [.read limit (.ok (x.app.outbound.take limit))] ∧
      x' = ⟨next (.ok (x.app.outbound.take limit)),
        { x.app with outbound := x.app.outbound.drop limit }⟩ ∧ inbox' = inbox ∧ out = []
  | .write data next =>
    events = [.write data (.ok ())] ∧
      x' = ⟨next (.ok ()), { x.app with writes := data :: x.app.writes }⟩ ∧
      inbox' = inbox ∧ out = []
  | .unblock next =>
    events = [.unblock] ∧
      x' = ⟨next, { x.app with unblockCalls := x.app.unblockCalls + 1 }⟩ ∧ inbox' = inbox ∧ out = []
  | .peerClosed next =>
    events = [.peerClosed] ∧
      x' = ⟨next, { x.app with
        peerClosedCalls := x.app.peerClosedCalls + 1
        closeRequested := x.app.closeRequested || x.app.closeOnPeerFin }⟩ ∧
      inbox' = inbox ∧ out = []
  | .wait interest next =>
    ∃ network pending, (network = true → pending.isSome) ∧
      (x.ready interest network).isEmpty = false ∧
      events = [.wait interest none (.ok (x.ready interest network))] ∧
      x' = ⟨next (.ok (x.ready interest network)), { x.app with pending := pending }⟩ ∧
      inbox' = inbox ∧ out = []
  | .noteAck ack next =>
    events = [.onAck ack] ∧ x' = { x with engine := next } ∧ inbox' = inbox ∧ out = []
  | .collectDue next =>
    events = [.due []] ∧ x' = { x with engine := next [] } ∧ inbox' = inbox ∧ out = []
  | .finished _ => False

variable {x x' : Party} {inbox inbox' out incoming outgoing : List Bytes} {events : List Event}
  {m : Machine Unit MemoryHost}

lemma Moves.engine_step (h : x.Moves inbox events x' inbox' out) :
    x.engine.Step events x'.engine := by
  rw [Moves] at h
  rw [Engine.Step]
  cases hr : x.engine.request with
  | transmit s next =>
    rw [hr] at h
    obtain ⟨rfl, rfl, -, -⟩ := h
    exact .inl ⟨rfl, rfl⟩
  | resend header payload next | read limit next | write data next | collectDue next =>
    rw [hr] at h
    obtain ⟨rfl, rfl, -, -⟩ := h
    exact ⟨_, rfl, rfl⟩
  | receive capacity next =>
    rw [hr] at h
    obtain ⟨d, -, rfl, rfl, -⟩ := h
    exact ⟨_, rfl, rfl⟩
  | unblock next | peerClosed next | noteAck ack next =>
    rw [hr] at h
    obtain ⟨rfl, rfl, -, -⟩ := h
    exact ⟨rfl, rfl⟩
  | wait interest next =>
    rw [hr] at h
    obtain ⟨network, pending, -, -, rfl, rfl, -, -⟩ := h
    exact ⟨_, _, rfl, rfl⟩
  | finished result =>
    rw [hr] at h
    exact h

/-! The host in memory, at an open link. -/

lemma send_machine (x : Party) (incoming outgoing : List Bytes) (header payload : Bytes) :
    MemoryHost.send header payload (x.machine incoming outgoing).host =
      (.ok (), (x.machine incoming (outgoing ++ [header ++ payload])).host) :=
  rfl

lemma receive_machine (capacity : Nat) (x : Party) (incoming outgoing : List Bytes) :
    MemoryHost.receive capacity (x.machine incoming outgoing).host =
      match x.inbox incoming with
      | [] => none
      | d :: _ => some (.ok (d.take capacity),
          (machine { x with app.pending := none } (x.inbox incoming).tail outgoing).host) := by
  obtain ⟨engine, pending, outbound, asked, onFin, writes, unblocks, closes⟩ := x
  cases pending with
  | some d => rfl
  | none => cases incoming <;> rfl

lemma wait_machine (x : Party) (incoming outgoing : List Bytes) {interest : Signals}
    (hi : interest.networkData = true) :
    MemoryHost.wait interest none (x.machine incoming outgoing).host =
      match x.inbox incoming with
      | [] =>
        if (x.ready interest false).isEmpty then none
        else some (.ok (x.ready interest false), (x.machine incoming outgoing).host)
      | d :: inbox => some (.ok (x.ready interest true),
          (machine { x with app.pending := some d } inbox outgoing).host) := by
  obtain ⟨engine, pending, outbound, asked, onFin, writes, unblocks, closes⟩ := x
  have hn : ∀ a c, Signals.isEmpty ⟨a, true, c⟩ = false := by decide
  cases pending with
  | some d =>
    simp [MemoryHost.wait, MemoryHost.look, MemoryHost.park, machine, inbox, ready, hi, hn]
  | none =>
    cases incoming with
    | cons d incoming =>
      simp [MemoryHost.wait, MemoryHost.look, MemoryHost.park, Link.poll, Channel.poll, machine,
        inbox, ready, hi, hn]
    | nil =>
      cases hr : (ready ⟨engine, none, outbound, asked, onFin, writes, unblocks, closes⟩ interest
        false).isEmpty <;>
        simp_all [MemoryHost.wait, MemoryHost.look, MemoryHost.park, MemoryHost.waitForPeer,
          Link.poll, Channel.poll, machine, inbox, ready]

lemma step_moves
    (h : (x.machine incoming outgoing).step Policy.inert MemoryHost.host = some (m, events)) :
    ∃ x' incoming' out, m = x'.machine incoming' (outgoing ++ out) ∧
      x.Moves (x.inbox incoming) events x' (x'.inbox incoming') out := by
  rw [Machine.step] at h
  unfold Moves
  have he : (x.machine incoming outgoing).engine = x.engine := rfl
  rw [he] at h
  cases hr : x.engine.request with
  | transmit s next =>
    simp only [hr, MemoryHost.host, send_machine, Option.some.injEq, Prod.mk.injEq] at h
    obtain ⟨rfl, rfl⟩ := h
    exact ⟨_, incoming, _, rfl, rfl, rfl, rfl, rfl⟩
  | resend header payload next =>
    simp only [hr, MemoryHost.host, send_machine, Option.some.injEq, Prod.mk.injEq] at h
    obtain ⟨rfl, rfl⟩ := h
    exact ⟨_, incoming, _, rfl, rfl, rfl, rfl, rfl⟩
  | receive capacity next =>
    simp only [hr, MemoryHost.host, receive_machine, Option.map_eq_some_iff, Prod.mk.injEq] at h
    obtain ⟨⟨outcome, host⟩, hb, rfl, rfl⟩ := h
    cases hi : x.inbox incoming with
    | nil => simp [hi] at hb
    | cons d inbox =>
      simp only [hi, Option.some.injEq, Prod.mk.injEq, List.tail_cons] at hb
      obtain ⟨rfl, rfl⟩ := hb
      exact ⟨_, inbox, [], by rw [List.append_nil]; rfl, d, rfl, rfl, rfl, rfl⟩
  | wait interest next =>
    have hw := wait_machine x incoming outgoing (x.engine.networkData_of_request_wait hr)
    have hd : Policy.inert.deadline (x.machine incoming outgoing).policy = none := rfl
    simp only [hr, MemoryHost.host, hd, hw, Option.map_eq_some_iff, Prod.mk.injEq] at h
    obtain ⟨⟨outcome, host⟩, hb, rfl, rfl⟩ := h
    cases hi : x.inbox incoming with
    | nil =>
      rw [hi] at hb
      simp only [Option.ite_none_left_eq_some, Option.some.injEq, Prod.mk.injEq] at hb
      obtain ⟨he, rfl, rfl⟩ := hb
      exact ⟨{ x with engine := next (.ok (x.ready interest false)) }, incoming, [],
        by rw [List.append_nil]; rfl, false, x.app.pending, by simp, by simpa using he,
        rfl, rfl, hi, rfl⟩
    | cons d inbox =>
      simp only [hi, Option.some.injEq, Prod.mk.injEq] at hb
      obtain ⟨rfl, rfl⟩ := hb
      exact ⟨_, inbox, [], by rw [List.append_nil]; rfl, true, some d, by simp,
        by simp [ready, Signals.isEmpty, Signals.empty], rfl, rfl, rfl, rfl⟩
  | read limit next | write data next | unblock next | peerClosed next | noteAck ack next
  | collectDue next =>
    simp only [hr, MemoryHost.host, Option.some.injEq, Prod.mk.injEq] at h
    obtain ⟨rfl, rfl⟩ := h
    exact ⟨_, incoming, [], by rw [List.append_nil]; rfl, rfl, rfl, rfl, rfl⟩
  | finished result => simp [hr] at h

lemma step_none (h : (x.machine incoming outgoing).step Policy.inert MemoryHost.host = none) :
    x.engine.result?.isSome ∨ x.inbox incoming = [] ∧
      ((∃ capacity next, x.engine.request = .receive capacity next) ∨
        ∃ interest next, x.engine.request = .wait interest next ∧
          (x.ready interest false).isEmpty = true) := by
  rw [Machine.step] at h
  have he : (x.machine incoming outgoing).engine = x.engine := rfl
  rw [he] at h
  cases hr : x.engine.request with
  | transmit s next | resend header payload next =>
    simp [hr, MemoryHost.host, send_machine] at h
  | receive capacity next =>
    simp only [hr, MemoryHost.host, receive_machine, Option.map_eq_none_iff] at h
    cases hi : x.inbox incoming with
    | nil => exact .inr ⟨rfl, .inl ⟨_, _, rfl⟩⟩
    | cons d inbox => simp [hi] at h
  | wait interest next =>
    have hw := wait_machine x incoming outgoing (x.engine.networkData_of_request_wait hr)
    have hd : Policy.inert.deadline (x.machine incoming outgoing).policy = none := rfl
    simp only [hr, MemoryHost.host, hd, hw, Option.map_eq_none_iff] at h
    cases hi : x.inbox incoming with
    | nil =>
      simp only [hi, ite_eq_left_iff, reduceCtorEq, imp_false, not_not] at h
      exact .inr ⟨rfl, .inr ⟨_, _, rfl, h⟩⟩
    | cons d inbox => simp [hi] at h
  | read limit next | write data next | unblock next | peerClosed next | noteAck ack next
  | collectDue next => simp [hr] at h
  | finished result =>
    left
    revert hr
    rw [Engine.request, Engine.result?]
    cases x.engine.point <;> simp

end Party

end DatagramStream
