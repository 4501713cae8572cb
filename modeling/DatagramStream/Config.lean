import DatagramStream.Segment

/-! The settings of a connection. -/

namespace DatagramStream

def maxPayload : Nat := 65507 - headerLength

def maxHeaderLength : Nat := 15 * 4

inductive InitialSeq where
  | fixed (n : SeqNum)
  | random
  deriving DecidableEq

def InitialSeq.choose (drawn : SeqNum) : InitialSeq → SeqNum
  | fixed n => n
  | random => drawn

inductive AckCheck where
  | permissive
  | strict
  deriving DecidableEq

def AckCheck.accepts : AckCheck → SeqNum → SeqNum → Bool
  | permissive, _, _ => true
  | strict, ack, expected => ack == expected

theorem AckCheck.accepts_self (check : AckCheck) (n : SeqNum) : check.accepts n n = true := by
  cases check <;> simp [accepts]

inductive Teardown where
  | awaitAck
  | fourWay
  deriving DecidableEq

structure Config where
  mss : Nat := 536
  window : UInt16 := 3072
  isn : InitialSeq := .fixed 1
  acks : AckCheck := .permissive
  teardown : Teardown := .awaitAck

namespace Config

def validate (c : Config) : Except ConnectionError Unit :=
  if c.mss = 0 ∨ maxPayload < c.mss then
    .error (.invalidConfig
      ("mss must be between 1 and " ++ toString maxPayload ++ ", got " ++ toString c.mss))
  else
    .ok ()

def payloadLimit (c : Config) : Nat :=
  min c.mss maxPayload

def receiveCapacity (c : Config) : Nat :=
  maxHeaderLength + c.payloadLimit + 1

end Config

end DatagramStream
