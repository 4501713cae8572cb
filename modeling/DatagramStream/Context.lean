import DatagramStream.Config

/-! The cursors of one connection, which wrap around, and its counters, which do not. -/

namespace DatagramStream

structure Context where
  state : State
  isn : SeqNum
  next : SeqNum
  expected : SeqNum
  done : Bool
  peerFinSeen : Bool
  sent : Nat
  received : Nat
  deriving DecidableEq

namespace Context

def new (isn : SeqNum) : Context where
  state := .closed
  isn := isn
  next := isn
  expected := 0
  done := false
  peerFinSeen := false
  sent := 0
  received := 0

def transition (c : Context) (t : Trigger) : Context :=
  { c with state := (c.state.next? t).getD c.state }

def recordSent (c : Context) (flags : Flags) (payload : Nat) : Context :=
  { c with next := c.next + (UInt32.ofNat payload + flags.seqLen), sent := c.sent + payload }

def recordDelivered (c : Context) (payload : Nat) : Context :=
  { c with expected := c.expected + UInt32.ofNat payload, received := c.received + payload }

def inOrder (c : Context) (seq : SeqNum) : Bool :=
  seq == c.expected

end Context

end DatagramStream
