import DatagramStream.Engine.Step
import DatagramStream.Memory.Link

/-! A host in memory: the first end of a link, and an application. -/

namespace DatagramStream

inductive PeerAct where
  | send (datagram : Bytes)
  | shutdown
  | drop

structure MemoryApp where
  pending : Option Bytes := none
  outbound : Bytes := []
  closeRequested : Bool := false
  closeOnPeerFin : Bool := false
  writes : List Bytes := []
  unblockCalls : Nat := 0
  peerClosedCalls : Nat := 0

def MemoryApp.delivered (a : MemoryApp) : Bytes :=
  a.writes.reverse.flatten

structure MemoryHost where
  link : Link := {}
  app : MemoryApp := {}
  /-- What the peer will do, each a while after the one before. -/
  agenda : List (Millis × PeerAct) := []

namespace MemoryHost

def stage (data : Bytes) (h : MemoryHost) : MemoryHost :=
  { h with app.outbound := h.app.outbound ++ data }

def requestClose (h : MemoryHost) : MemoryHost :=
  { h with app.closeRequested := true }

def perform (act : PeerAct) (h : MemoryHost) : MemoryHost :=
  match act with
  | .send datagram => { h with link := (h.link.send .b datagram).toOption.getD h.link }
  | .shutdown => { h with link := h.link.shutdown .b }
  | .drop => { h with link := h.link.drop .b }

def finishAgenda (h : MemoryHost) : MemoryHost :=
  { h.agenda.foldl (fun h (_, act) => h.perform act) h with agenda := [] }

def send (header payload : Bytes) (h : MemoryHost) : Except IoError Unit × MemoryHost :=
  match h.link.send .a (header ++ payload) with
  | .ok link => (.ok (), { h with link := link })
  | .error e => (.error e, h)

def receiveFromLink (capacity : Nat) :
    List (Millis × PeerAct) → MemoryHost → Option (Except IoError Bytes × MemoryHost)
  | agenda, h =>
    match h.link.poll .a with
    | (.datagram d, link) => some (.ok (d.take capacity), { h with link := link, agenda := agenda })
    | (.closed, _) => some (.ok [], { h with agenda := agenda })
    | (.empty, _) =>
      match agenda with
      | [] => none
      | (_, act) :: agenda => receiveFromLink capacity agenda (h.perform act)

def receive (capacity : Nat) (h : MemoryHost) : Option (Except IoError Bytes × MemoryHost) :=
  match h.app.pending with
  | some d => some (.ok (d.take capacity), { h with app.pending := none })
  | none => receiveFromLink capacity h.agenda h

def read (limit : Nat) (h : MemoryHost) : Except IoError Bytes × MemoryHost :=
  (.ok (h.app.outbound.take limit), { h with app.outbound := h.app.outbound.drop limit })

def write (data : Bytes) (h : MemoryHost) : Except IoError Unit × MemoryHost :=
  (.ok (), { h with app.writes := data :: h.app.writes })

@[simp] theorem delivered_write (data : Bytes) (h : MemoryHost) :
    (h.write data).2.app.delivered = h.app.delivered ++ data := by
  simp [write, MemoryApp.delivered]

def unblock (h : MemoryHost) : MemoryHost :=
  { h with app.unblockCalls := h.app.unblockCalls + 1 }

def peerClosed (h : MemoryHost) : MemoryHost :=
  { h with
    app.peerClosedCalls := h.app.peerClosedCalls + 1
    app.closeRequested := h.app.closeRequested || h.app.closeOnPeerFin }

def park (h : MemoryHost) : Bool × MemoryHost :=
  match h.app.pending with
  | some _ => (true, h)
  | none =>
    match h.link.poll .a with
    | (.datagram d, link) => (true, { h with link := link, app.pending := some d })
    | _ => (false, h)

def look (interest : Signals) (h : MemoryHost) : Signals × MemoryHost :=
  let (network, h) := if interest.networkData then h.park else (false, h)
  ({ appData := interest.appData && !h.app.outbound.isEmpty
     networkData := network
     closeRequested :=
      interest.closeRequested && h.app.closeRequested && h.app.outbound.isEmpty }, h)

def waitForPeer :
    Option Millis → List (Millis × PeerAct) → MemoryHost →
      Option (Except IoError Signals × MemoryHost)
  | deadline, agenda, h =>
    match h.link.poll .a with
    | (.datagram d, link) =>
      some (.ok .network, { h with link := link, app.pending := some d, agenda := agenda })
    | (.closed, _) => some (.ok .network, { h with agenda := agenda })
    | (.empty, _) =>
      match deadline, agenda with
      | none, [] => none
      | some _, [] => some (.ok .empty, { h with agenda := [] })
      | none, (_, act) :: agenda => waitForPeer none agenda (h.perform act)
      | some limit, (delay, act) :: agenda =>
        if limit ≤ delay then
          some (.ok .empty, { h with agenda := (delay - limit, act) :: agenda })
        else
          waitForPeer (some (limit - delay)) agenda (h.perform act)

/-- A closed link is reported last, when there is nothing else to do. -/
def wait (interest : Signals) (deadline : Option Millis) (h : MemoryHost) :
    Option (Except IoError Signals × MemoryHost) :=
  let (ready, h) := h.look interest
  if !ready.isEmpty then some (.ok ready, h)
  else if !interest.networkData then some (.error .nothingToWaitFor, h)
  else waitForPeer deadline h.agenda h

def host : Host MemoryHost where
  send := send
  receive := receive
  read := read
  write := write
  unblock := unblock
  peerClosed := peerClosed
  wait := wait

def patience (h : MemoryHost) : Nat :=
  (h.app.outbound.length + h.link.toA.queue.length + h.agenda.length + 4) * 20

def run (e : Engine) (h : MemoryHost) : Engine × MemoryHost :=
  let (m, _) := Machine.run Policy.inert host h.patience ⟨e, (), h⟩
  (m.engine, m.host)

end MemoryHost

end DatagramStream
