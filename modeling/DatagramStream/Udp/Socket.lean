import DatagramStream.Bytes
import DatagramStream.Error
import DatagramStream.Udp.Address

/-! A datagram socket, and the network that it is bound to. -/

namespace DatagramStream

structure Socket where
  hasRoute : Bool := true
  inbox : List (SocketAddress × Bytes) := []
  outbox : List (SocketAddress × Bytes) := []
  replies : List (SocketAddress × List Bytes) := []

namespace Socket

def maxDatagram : Nat := 65507

def carry (hasRoute : Bool) (datagram : Bytes) : Except IoError Unit :=
  if 65535 < datagram.length then .error .messageTooLong
  else if !hasRoute then .error .networkUnreachable
  else if maxDatagram < datagram.length then .error .messageTooLong
  else .ok ()

def arrive (source : SocketAddress) (datagram : Bytes) (s : Socket) : Except IoError Socket :=
  (carry s.hasRoute datagram).map fun () => { s with inbox := s.inbox ++ [(source, datagram)] }

def takeReplies (target : SocketAddress) (replies : List (SocketAddress × List Bytes)) :
    List (SocketAddress × Bytes) × List (SocketAddress × List Bytes) :=
  match replies with
  | (source, datagrams) :: later =>
    if source = target then (datagrams.map (source, ·), later) else ([], replies)
  | [] => ([], [])

def send (target : SocketAddress) (datagram : Bytes) (s : Socket) : Except IoError Socket :=
  (carry s.hasRoute datagram).map fun () =>
    let (answers, later) := takeReplies target s.replies
    { s with
      inbox := s.inbox ++ answers
      outbox := (target, datagram) :: s.outbox
      replies := later }

def sentTo (target : SocketAddress) (s : Socket) : List Bytes :=
  (s.outbox.filter (·.1 = target)).reverse.map (·.2)

def collect (target : SocketAddress) (s : Socket) : List Bytes × Socket :=
  (s.sentTo target, { s with outbox := s.outbox.filter (·.1 ≠ target) })

end Socket

end DatagramStream
