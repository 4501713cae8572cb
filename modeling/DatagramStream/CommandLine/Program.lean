import DatagramStream.CommandLine.Arguments
import DatagramStream.Udp.Host

/-! The program: a byte stream between the standard streams and a peer. -/

namespace DatagramStream.CommandLine

structure Outcome where
  status : UInt8
  shown : Bytes := []
  complaint : String := ""
  socket : Socket := {}

structure Plan where
  config : Config
  role : Role
  bind : SocketAddress
  peer : Option SocketAddress
  closeOnPeerFin : Bool

def Command.plan? : Command → Option Plan
  | .listen bind given => some
    { config := given.config, role := .passive, bind := bind, peer := none
      closeOnPeerFin := given.closeOnPeerFin }
  | .connect server bind given => some
    { config := given.config, role := .active, bind := bind, peer := some server
      closeOnPeerFin := given.closeOnPeerFin }
  | _ => none

def utf8 (text : String) : Bytes :=
  text.toUTF8.toList

def versionText : String := "stcp 0.1.0\n"

def usageText : String :=
  "Usage: stcp [OPTIONS] listen [--bind ADDR]\n" ++
  "       stcp [OPTIONS] connect --server ADDR [--bind ADDR]\n" ++
  "\n" ++
  "Options:\n" ++
  "      --mss N               Maximum payload bytes per segment\n" ++
  "      --window N            Receive window advertised to the peer\n" ++
  "      --four-way-close      Wait for the peer's FIN after ours has been acknowledged\n" ++
  "      --strict-acks         Only accept ACKs whose number covers the SYN or FIN\n" ++
  "      --random-isn          Pick a random initial sequence number instead of 1\n" ++
  "      --close-on-peer-fin   Close our side as soon as the peer closes its side\n" ++
  "  -h, --help                Print help\n" ++
  "  -V, --version             Print version\n"

def complaint (cause : ConnectionError) : String :=
  "stcp: " ++ cause.message ++ "\n"

def Command.answer : Command → Outcome
  | .version => { status := 0, shown := utf8 versionText }
  | .help => { status := 0, shown := utf8 usageText }
  | _ => { status := 2, complaint := usageText }

def Plan.host (p : Plan) : UdpHost where
  mss := p.config.mss
  peer := p.peer
  closeOnPeerFin := p.closeOnPeerFin
  input := { bufferSize := 8192 }

def Plan.execute (p : Plan) (drawn : SeqNum) (typed : Bytes) (socket : Socket) : Option Outcome :=
  match p.config.validate with
  | .error cause => some { status := 1, complaint := complaint cause, socket := socket }
  | .ok () =>
    let host := { p.host with socket := socket }.typed typed |>.endInput
    let (e, host) := UdpHost.run (.run p.config (.new (p.config.isn.choose drawn)) p.role) host
    let left : Outcome := { status := 0, shown := host.output.shown, socket := host.socket }
    e.result?.map fun
      | .ok () => left
      | .error cause => { left with status := 1, complaint := complaint cause }

def execute (arguments : List String) (drawn : SeqNum) (typed : Bytes) (socket : Socket) :
    Option Outcome :=
  let command := Command.ofArguments arguments
  match command.plan? with
  | none => some { command.answer with socket := socket }
  | some plan => plan.execute drawn typed socket

end DatagramStream.CommandLine
