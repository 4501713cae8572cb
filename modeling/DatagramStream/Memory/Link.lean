import DatagramStream.Bytes
import DatagramStream.Error

/-! A link in memory: two ends, and a lossless queue of datagrams in each direction. -/

namespace DatagramStream

structure Channel where
  queue : List Bytes := []
  isOpen : Bool := true
  hasReceiver : Bool := true

namespace Channel

def send (datagram : Bytes) (c : Channel) : Except IoError Channel :=
  if !c.isOpen then .error .linkShutDown
  else if !c.hasReceiver then .error .peerDropped
  else .ok { c with queue := c.queue ++ [datagram] }

inductive Polled where
  | datagram (d : Bytes)
  | empty
  | closed

def poll (c : Channel) : Polled × Channel :=
  match c.queue with
  | d :: queue => (.datagram d, { c with queue := queue })
  | [] => (if c.isOpen then .empty else .closed, c)

end Channel

inductive Side where
  | a
  | b
  deriving DecidableEq

structure Link where
  toA : Channel := {}
  toB : Channel := {}

namespace Link

def swap (l : Link) : Link :=
  ⟨l.toB, l.toA⟩

def send (s : Side) (datagram : Bytes) (l : Link) : Except IoError Link :=
  match s with
  | .a => (l.toB.send datagram).map fun c => { l with toB := c }
  | .b => (l.toA.send datagram).map fun c => { l with toA := c }

def poll (s : Side) (l : Link) : Channel.Polled × Link :=
  match s with
  | .a => let (found, c) := l.toA.poll; (found, { l with toA := c })
  | .b => let (found, c) := l.toB.poll; (found, { l with toB := c })

def drain (s : Side) (l : Link) : List Bytes × Link :=
  match s with
  | .a => (l.toA.queue, { l with toA.queue := [] })
  | .b => (l.toB.queue, { l with toB.queue := [] })

def shutdown (s : Side) (l : Link) : Link :=
  match s with
  | .a => { l with toB.isOpen := false }
  | .b => { l with toA.isOpen := false }

def drop (s : Side) (l : Link) : Link :=
  match s with
  | .a => { l.shutdown .a with toA.hasReceiver := false }
  | .b => { l.shutdown .b with toB.hasReceiver := false }

end Link

end DatagramStream
