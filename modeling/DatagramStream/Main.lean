import DatagramStream.CommandLine.Program
import Std.Async.UDP
import Std.Sync.Channel

/-! The program on a real socket and the real standard streams. -/

namespace DatagramStream.CommandLine

def systemAddress (a : SocketAddress) : Std.Net.SocketAddress :=
  match a.ip with
  | .v4 octets => .v4 ⟨⟨octets⟩, a.portNumber⟩
  | .v6 groups _ => .v6 ⟨⟨groups⟩, a.portNumber⟩

def ofSystemAddress : Std.Net.SocketAddress → SocketAddress
  | .v4 ⟨⟨octets⟩, portNumber⟩ => ⟨.v4 octets, portNumber⟩
  | .v6 ⟨⟨groups⟩, portNumber⟩ => ⟨.v6 groups 0, portNumber⟩

def systemError (e : IO.Error) : IoError :=
  match e with
  | .alreadyExists _ code text | .invalidArgument _ code text | .permissionDenied _ code text
  | .resourceExhausted _ code text | .inappropriateType _ code text | .noSuchThing _ code text
  | .interrupted _ code text | .noFileOrDirectory _ code text | .otherError code text
  | .resourceBusy code text | .resourceVanished code text | .unsupportedOperation code text
  | .hardwareFault code text | .unsatisfiedConstraints code text | .illegalOperation code text
  | .protocolError code text | .timeExpired code text =>
    let number := if code < 0x80000000 then code else 0 - code
    ⟨.other, text.capitalize ++ " (os error " ++ toString number ++ ")"⟩
  | .unexpectedEof => ⟨.other, "unexpected end of file"⟩
  | .userError text => ⟨.other, text⟩

def outcomeOf (action : IO Unit) : IO (Except IoError Unit) := do
  match ← EIO.toBaseIO action with
  | .ok () => return .ok ()
  | .error e => return .error (systemError e)

inductive Arrival where
  | datagram (source : SocketAddress) (data : Bytes)
  | typed (byte : UInt8)
  | inputEnded
  | failed (cause : IoError)

namespace Arrival

def datagram? : Arrival → Option (SocketAddress × Bytes)
  | datagram source data => some (source, data)
  | _ => none

def typed? : Arrival → Option UInt8
  | typed byte => some byte
  | _ => none

def failed? : Arrival → Option IoError
  | failed cause => some cause
  | _ => none

def endsInput : Arrival → Bool
  | inputEnded => true
  | _ => false

def enter (arrivals : List Arrival) (h : UdpHost) : Except IoError UdpHost :=
  match arrivals.findSome? failed? with
  | some cause => .error cause
  | none =>
    let h := (h.arrived (arrivals.filterMap datagram?)).typed (arrivals.filterMap typed?)
    .ok (if arrivals.any endsInput then h.endInput else h)

end Arrival

structure Endpoint where
  socket : Std.Async.UDP.Socket
  arrivals : Std.CloseableChannel Arrival

namespace Endpoint

def post (p : Endpoint) (a : Arrival) : BaseIO Unit := do
  discard <| p.arrivals.trySend a

partial def listen (p : Endpoint) : BaseIO Unit := do
  match ← EIO.toBaseIO (Std.Async.Async.toIO (p.socket.recv 65536)) with
  | .error e => p.post (.failed (systemError e))
  | .ok received => discard <| BaseIO.mapTask onReceived received
where
  onReceived : Except IO.Error (ByteArray × Option Std.Net.SocketAddress) → BaseIO Unit
    | .error e => p.post (.failed (systemError e))
    | .ok (data, source) => do
      if let some source := source then
        p.post (.datagram (ofSystemAddress source) data.toList)
      p.listen

partial def attend (p : Endpoint) (input : IO.FS.Stream) : BaseIO Unit := do
  match ← EIO.toBaseIO (input.read 1) with
  | .error e => p.post (.failed (systemError e))
  | .ok data =>
    match data.toList with
    | [] => p.post .inputEnded
    | bytes =>
      bytes.forM fun byte => p.post (.typed byte)
      p.attend input

def send (p : Endpoint) (peer : Option SocketAddress) (header payload : Bytes) :
    IO (Except IoError Unit) :=
  match peer with
  | none => return .error .peerUnknown
  | some peer =>
    outcomeOf (p.socket.send ⟨(header ++ payload).toArray⟩ (some (systemAddress peer))).block

partial def drain (p : Endpoint) (past : List Arrival) : BaseIO (List Arrival) := do
  match ← p.arrivals.tryRecv with
  | none => return past.reverse
  | some a => p.drain (a :: past)

def await (p : Endpoint) : BaseIO (List Arrival) := do
  p.drain (← IO.wait (← p.arrivals.recv)).toList

def display (data : Bytes) : IO Unit := do
  let output ← IO.getStdout
  output.write ⟨data.toArray⟩
  output.flush

partial def serve (p : Endpoint) (e : Engine) (h : UdpHost) : IO (Except ConnectionError Unit) := do
  match e.request with
  | .finished result => return result
  | .transmit s next => p.serve (next (← p.send h.peer s.header.encode s.payload)) h
  | .resend header payload next => p.serve (next (← p.send h.peer header payload)) h
  | .receive capacity next =>
    match h.receive capacity with
    | some (outcome, h) => p.serve (next outcome) h
    | none =>
      match Arrival.enter (← p.await) h with
      | .ok h => p.serve e h
      | .error cause => p.serve (next (.error cause)) h
  | .read limit next =>
    let (outcome, h) := h.read limit
    p.serve (next outcome) h
  | .write data next => p.serve (next (← outcomeOf (display data))) h
  | .unblock next | .noteAck _ next => p.serve next h
  | .peerClosed next => p.serve next h.peerClosed
  | .wait interest next =>
    match Arrival.enter (← p.drain []) h with
    | .error cause => p.serve (next (.error cause)) h
    | .ok h =>
      match h.wait interest none with
      | some (outcome, h) => p.serve (next outcome) h
      | none =>
        match Arrival.enter (← p.await) h with
        | .ok h => p.serve e h
        | .error cause => p.serve (next (.error cause)) h
  | .collectDue next => p.serve (next []) h

end Endpoint

def Plan.connect (plan : Plan) : EIO ConnectionError Unit := do
  let guarded {α : Type} (action : IO α) : EIO ConnectionError α :=
    EIO.adapt (fun e => .io (systemError e)) action
  EIO.ofExcept plan.config.validate
  let endpoint : Endpoint :=
    { socket := ← guarded Std.Async.UDP.Socket.mk, arrivals := ← Std.CloseableChannel.new }
  guarded (endpoint.socket.bind (systemAddress plan.bind))
  endpoint.listen
  let input ← IO.getStdin
  discard <| BaseIO.asTask (endpoint.attend input) .dedicated
  let drawn ← guarded (IO.getRandomBytes 4)
  let isn := plan.config.isn.choose (UInt32.ofNat (Bytes.value drawn.toList))
  let engine := Engine.run plan.config (.new isn) plan.role
  match ← guarded (endpoint.serve engine plan.host) with
  | .ok () => return ()
  | .error cause => throw cause

end DatagramStream.CommandLine

open DatagramStream.CommandLine

def main (arguments : List String) : IO UInt32 := do
  let command := Command.ofArguments arguments
  match command.plan? with
  | none =>
    let answer := command.answer
    Endpoint.display answer.shown
    IO.eprint answer.complaint
    return answer.status.toUInt32
  | some plan =>
    match ← EIO.toBaseIO plan.connect with
    | .ok () => return 0
    | .error cause =>
      IO.eprint (complaint cause)
      return 1
