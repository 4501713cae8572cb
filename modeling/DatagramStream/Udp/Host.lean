import DatagramStream.Engine.Step
import DatagramStream.Udp.Socket
import DatagramStream.Udp.Stream

/-! A host whose segments travel in UDP datagrams and whose application is a pair of byte streams.
-/

namespace DatagramStream

structure UdpHost where
  mss : Nat
  peer : Option SocketAddress := none
  closeOnPeerFin : Bool := false
  staged : Bytes := []
  inputEnded : Bool := false
  socket : Socket := {}
  input : Input := {}
  output : Output := {}

namespace UdpHost

def arrived (datagrams : List (SocketAddress × Bytes)) (h : UdpHost) : UdpHost :=
  { h with socket.inbox := h.socket.inbox ++ datagrams }

def typed (data : Bytes) (h : UdpHost) : UdpHost :=
  { h with input.typed := h.input.typed ++ data }

def endInput (h : UdpHost) : UdpHost :=
  { h with input.ended := true }

def send (header payload : Bytes) (h : UdpHost) : Except IoError Unit × UdpHost :=
  match h.peer with
  | none => (.error .peerUnknown, h)
  | some peer =>
    match h.socket.send peer (header ++ payload) with
    | .ok socket => (.ok (), { h with socket := socket })
    | .error e => (.error e, h)

/-- Datagrams of strangers are passed over, and so are empty ones, which say nothing: a UDP channel
never closes. -/
def receive (capacity : Nat) (h : UdpHost) : Option (Except IoError Bytes × UdpHost) :=
  go h.peer h.socket.inbox
where
  go (peer : Option SocketAddress) :
      List (SocketAddress × Bytes) → Option (Except IoError Bytes × UdpHost)
    | [] => none
    | (source, datagram) :: inbox =>
      let peer := peer.getD source
      let data := datagram.take capacity
      if source ≠ peer ∨ data.isEmpty then go (some peer) inbox
      else some (.ok data, { h with peer := some peer, socket.inbox := inbox })

def read (limit : Nat) (h : UdpHost) : Except IoError Bytes × UdpHost :=
  (.ok (h.staged.take limit), { h with staged := h.staged.drop limit })

def write (data : Bytes) (h : UdpHost) : Except IoError Unit × UdpHost :=
  let (outcome, output) := h.output.write data
  (outcome, { h with output := output })

def peerClosed (h : UdpHost) : UdpHost :=
  { h with output := h.output.flush.2, inputEnded := h.inputEnded || h.closeOnPeerFin }

def fill (h : UdpHost) : Except IoError Unit × UdpHost :=
  match h.input.read h.mss with
  | (.error e, input) => (.error e, { h with input := input, staged := [] })
  | (.ok data, input) =>
    (.ok (), { h with
      input := input, staged := data, inputEnded := h.inputEnded || data.isEmpty })

def watchesInput (interest : Signals) (h : UdpHost) : Bool :=
  interest.appData && !h.inputEnded && h.staged.isEmpty

def known (interest : Signals) (h : UdpHost) : Signals where
  appData := interest.appData && !h.staged.isEmpty
  networkData := interest.networkData && !h.socket.inbox.isEmpty
  closeRequested := interest.closeRequested && h.inputEnded && h.staged.isEmpty

def look (interest : Signals) (h : UdpHost) : Except IoError Signals × UdpHost :=
  if h.watchesInput interest && h.input.readable then
    match h.fill with
    | (.error e, h) => (.error e, h)
    | (.ok (), h) => (.ok (h.known interest), h)
  else
    (.ok (h.known interest), h)

def wait (interest : Signals) (deadline : Option Millis) (h : UdpHost) :
    Option (Except IoError Signals × UdpHost) :=
  match h.look interest with
  | (.error e, h) => some (.error e, h)
  | (.ok ready, h) =>
    if !ready.isEmpty ∨ deadline.isSome then some (.ok ready, h)
    else if interest.networkData || h.watchesInput interest then none
    else some (.error .nothingToWaitFor, h)

def host : Host UdpHost where
  send := send
  receive := receive
  read := read
  write := write
  unblock := id
  peerClosed := peerClosed
  wait := wait

def patience (h : UdpHost) : Nat :=
  let replies := (h.socket.replies.flatMap fun r => r.2).length
  let input := h.input.typed.length + h.input.buffered.length + h.staged.length
  (input + h.socket.inbox.length + replies + 4) * 20

def run (e : Engine) (h : UdpHost) : Engine × UdpHost :=
  let (m, _) := Machine.run Policy.inert host h.patience ⟨e, (), h⟩
  (m.engine, m.host)

end UdpHost

end DatagramStream
