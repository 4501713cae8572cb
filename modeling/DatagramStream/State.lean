/-! The states of a connection and the table that moves it between them. -/

namespace DatagramStream

inductive State where
  | closed
  | listen
  | synSent
  | synReceived
  | established
  | finWait1
  | finWait2
  | closing
  | timeWait
  | closeWait
  | lastAck
  deriving DecidableEq

inductive Trigger where
  | listen
  | sendSyn
  | recvSyn
  | recvSynAck
  | recvAck
  | sendFin
  | recvFin
  deriving DecidableEq

namespace State

/-- `none`: the trigger is not legal in this state. -/
def next? : State → Trigger → Option State
  | closed, .listen => some listen
  | closed, .sendSyn => some synSent
  | listen, .recvSyn => some synReceived
  | synSent, .recvSynAck => some established
  | synReceived, .recvAck => some established
  | established, .sendFin => some finWait1
  | established, .recvFin => some closeWait
  | finWait1, .recvAck => some finWait2
  | finWait1, .recvFin => some closing
  | finWait2, .recvFin => some timeWait
  | closing, .recvAck => some timeWait
  | closeWait, .sendFin => some lastAck
  | lastAck, .recvAck => some closed
  | _, _ => none

def isSynchronized : State → Bool
  | closed | listen | synSent | synReceived => false
  | _ => true

def canSend : State → Bool
  | established | closeWait => true
  | _ => false

def canReceive : State → Bool
  | established | finWait1 | finWait2 => true
  | _ => false

def awaitsFinAck : State → Bool
  | finWait1 | closing | lastAck => true
  | _ => false

def name : State → String
  | closed => "CLOSED"
  | listen => "LISTEN"
  | synSent => "SYN_SENT"
  | synReceived => "SYN_RECEIVED"
  | established => "ESTABLISHED"
  | finWait1 => "FIN_WAIT_1"
  | finWait2 => "FIN_WAIT_2"
  | closing => "CLOSING"
  | timeWait => "TIME_WAIT"
  | closeWait => "CLOSE_WAIT"
  | lastAck => "LAST_ACK"

end State

end DatagramStream
