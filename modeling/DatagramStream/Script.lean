import DatagramStream.Engine.Step

/-! Surroundings that follow a script: every answer is laid down in advance. -/

namespace DatagramStream

/-- The answers still to come, for each kind of call. -/
structure Script where
  net : List (Except IoError Bytes) := []
  app : List (Except IoError Bytes) := []
  events : List (Except IoError Signals) := []
  sendFaults : List (Option IoError) := []
  writeFaults : List (Option IoError) := []

namespace Script

def append (s t : Script) : Script :=
  ⟨s.net ++ t.net, s.app ++ t.app, s.events ++ t.events, s.sendFaults ++ t.sendFaults,
    s.writeFaults ++ t.writeFaults⟩

def takeFault : List (Option IoError) → Except IoError Unit × List (Option IoError)
  | [] => (.ok (), [])
  | none :: faults => (.ok (), faults)
  | some e :: faults => (.error e, faults)

def send (s : Script) : Except IoError Unit × Script :=
  let (outcome, faults) := takeFault s.sendFaults
  (outcome, { s with sendFaults := faults })

def write (s : Script) : Except IoError Unit × Script :=
  let (outcome, faults) := takeFault s.writeFaults
  (outcome, { s with writeFaults := faults })

def receive (capacity : Nat) (s : Script) : Except IoError Bytes × Script :=
  match s.net with
  | [] => (.ok [], s)
  | .error e :: net => (.error e, { s with net := net })
  | .ok datagram :: net => (.ok (datagram.take capacity), { s with net := net })

def read (limit : Nat) (s : Script) : Except IoError Bytes × Script :=
  match s.app with
  | [] => (.ok [], s)
  | .error e :: app => (.error e, { s with app := app })
  | .ok data :: app =>
    let kept := data.drop limit
    (.ok (data.take limit), { s with app := if kept.isEmpty then app else .ok kept :: app })

def wait (s : Script) : Except IoError Signals × Script :=
  match s.events with
  | [] => (.error .scriptExhausted, s)
  | outcome :: events => (outcome, { s with events := events })

def host : Host Script where
  send _ _ := send
  receive capacity s := some (s.receive capacity)
  read := read
  write _ := write
  unblock := id
  peerClosed := id
  wait _ _ s := some s.wait

end Script

structure ResendScript where
  hasDeadline : Bool := false
  due : List (List Bytes) := []

namespace ResendScript

def policy : Policy ResendScript where
  onSend _ := id
  onAck _ := id
  deadline s := if s.hasDeadline then some 0 else none
  due s :=
    match s.due with
    | [] => ([], s)
    | datagrams :: due => (datagrams, { s with due := due })

end ResendScript

def Script.patience (s : Script) (resends : ResendScript) : Nat :=
  (s.events.length + 2) * 20 + resends.due.flatten.length

def Script.run (e : Engine) (resends : ResendScript) (s : Script) :
    Machine ResendScript Script × List Event :=
  Machine.run ResendScript.policy Script.host (s.patience resends) ⟨e, resends, s⟩

end DatagramStream
