import DatagramStream.Config
import DatagramStream.Udp.Address

/-! What the words of a command line ask for. -/

namespace DatagramStream.CommandLine

inductive OptionName where
  | mss
  | window
  | fourWayClose
  | strictAcks
  | randomIsn
  | closeOnPeerFin
  | bind
  | server
  | version
  | help
  deriving DecidableEq

inductive Level where
  | top
  | listen
  | connect
  deriving DecidableEq

namespace OptionName

def ofLong? : String → Option OptionName
  | "mss" => some mss
  | "window" => some window
  | "four-way-close" => some fourWayClose
  | "strict-acks" => some strictAcks
  | "random-isn" => some randomIsn
  | "close-on-peer-fin" => some closeOnPeerFin
  | "bind" => some bind
  | "server" => some server
  | "version" => some version
  | "help" => some help
  | _ => none

def ofShort? : Char → Option OptionName
  | 'b' => some bind
  | 's' => some server
  | 'V' => some version
  | 'h' => some help
  | _ => none

def allowedAt (o : OptionName) : Level → Bool
  | .top => o ≠ bind ∧ o ≠ server
  | .listen => o ≠ server ∧ o ≠ version
  | .connect => o ≠ version

def takesValue : OptionName → Bool
  | mss | window | bind | server => true
  | _ => false

end OptionName

structure Given where
  mss : Option Nat := none
  window : Option UInt16 := none
  fourWayClose : Bool := false
  strictAcks : Bool := false
  randomIsn : Bool := false
  closeOnPeerFin : Bool := false
  bind : Option SocketAddress := none
  server : Option SocketAddress := none

def decimal? (bound : Nat) (text : List Char) : Option Nat :=
  match SocketAddress.readNumber 10 bound text with
  | some (n, []) => some n
  | _ => none

def mss? (text : String) : Option Nat :=
  match text.toList with
  | '+' :: digits | digits => decimal? 0xffffffffffffffff digits

def window? (text : String) : Option UInt16 :=
  match text.toList with
  | '-' :: digits => (decimal? 0 digits).map UInt16.ofNat
  | '+' :: digits | digits => (decimal? 0xffff digits).map UInt16.ofNat

namespace Given

def once {α : Type} (old : Option α) (new : Option α) : Option α :=
  if old.isSome then none else new

def setValue (g : Given) (text : String) : OptionName → Option Given
  | .mss => (once g.mss (mss? text)).map fun n => { g with mss := some n }
  | .window => (once g.window (window? text)).map fun w => { g with window := some w }
  | .bind => (once g.bind (SocketAddress.parse? text)).map fun a => { g with bind := some a }
  | .server => (once g.server (SocketAddress.parse? text)).map fun a => { g with server := some a }
  | _ => none

def setFlag (g : Given) : OptionName → Option Given
  | .fourWayClose => if g.fourWayClose then none else some { g with fourWayClose := true }
  | .strictAcks => if g.strictAcks then none else some { g with strictAcks := true }
  | .randomIsn => if g.randomIsn then none else some { g with randomIsn := true }
  | .closeOnPeerFin => if g.closeOnPeerFin then none else some { g with closeOnPeerFin := true }
  | _ => none

def withFallback (inner outer : Given) : Given where
  mss := inner.mss.or outer.mss
  window := inner.window.or outer.window
  fourWayClose := inner.fourWayClose || outer.fourWayClose
  strictAcks := inner.strictAcks || outer.strictAcks
  randomIsn := inner.randomIsn || outer.randomIsn
  closeOnPeerFin := inner.closeOnPeerFin || outer.closeOnPeerFin
  bind := inner.bind
  server := inner.server

def config (g : Given) : Config where
  mss := g.mss.getD 536
  window := g.window.getD 3072
  isn := if g.randomIsn then .random else .fixed 1
  acks := if g.strictAcks then .strict else .permissive
  teardown := if g.fourWayClose then .fourWay else .awaitAck

end Given

inductive Command where
  | listen (bind : SocketAddress) (given : Given)
  | connect (server bind : SocketAddress) (given : Given)
  | version
  | help
  | misuse

def defaultListen : SocketAddress := .ipv4 0 0 0 0 9000
def defaultConnect : SocketAddress := .ipv4 0 0 0 0 0

inductive Word where
  | plain (text : String)
  | dashes
  | long (name : String) (value : Option String)
  | short (letter : Char) (rest : List Char)

def Word.ofString (text : String) : Word :=
  match text.toList with
  | ['-', '-'] => .dashes
  | '-' :: '-' :: body =>
    let name := body.takeWhile (· ≠ '=')
    match body.drop name.length with
    | _ :: value => .long (String.ofList name) (some (String.ofList value))
    | [] => .long (String.ofList name) none
  | '-' :: letter :: rest => .short letter rest
  | _ => .plain text

inductive Progress where
  | go (given : Given)
  | needsValue (option : OptionName)
  | stop (command : Command)

def Progress.ofOption (level : Level) (g : Given) (value : Option String) :
    Option OptionName → Progress
  | none => .stop .misuse
  | some o =>
    if !o.allowedAt level then .stop .misuse
    else if o.takesValue then
      match value with
      | none => .needsValue o
      | some text => (g.setValue text o).elim (.stop .misuse) .go
    else if value.isSome then .stop .misuse
    else if o = .version then .stop .version
    else if o = .help then .stop .help
    else (g.setFlag o).elim (.stop .misuse) .go

def Progress.ofShort (level : Level) (g : Given) (letter : Char) (rest : List Char) : Progress :=
  match OptionName.ofShort? letter with
  | none => .stop .misuse
  | some o =>
    let value :=
      match rest with
      | '=' :: text => some (String.ofList text)
      | [] => none
      | text => some (String.ofList text)
    .ofOption level g (if o.takesValue then value else none) (some o)

def finish (outer inner : Given) : Level → Command
  | .top => .misuse
  | .listen => .listen (inner.bind.getD defaultListen) (inner.withFallback outer)
  | .connect =>
    match inner.server with
    | none => .misuse
    | some server => .connect server (inner.bind.getD defaultConnect) (inner.withFallback outer)

def command? : String → Option Level
  | "listen" => some .listen
  | "connect" => some .connect
  | _ => none

def helpOn : List String → Command
  | [] => .help
  | [word] => if word = "help" ∨ (command? word).isSome then .help else .misuse
  | _ => .misuse

def read (level : Level) (outer g : Given) (pending : Option OptionName) : List String → Command
  | [] => if pending.isSome then .misuse else finish outer g level
  | text :: rest =>
    match pending, Word.ofString text with
    | some o, .plain value =>
      match g.setValue value o with
      | none => .misuse
      | some g => read level outer g none rest
    | some _, _ => .misuse
    | none, .plain word =>
      match level, command? word with
      | .top, some command => read command g {} none rest
      | .top, none => if word = "help" then helpOn rest else .misuse
      | _, _ => .misuse
    | none, .dashes => if rest.isEmpty then finish outer g level else .misuse
    | none, .long name value =>
      match Progress.ofOption level g value (OptionName.ofLong? name) with
      | .go g => read level outer g none rest
      | .needsValue o => read level outer g (some o) rest
      | .stop command => command
    | none, .short letter more =>
      match Progress.ofShort level g letter more with
      | .go g => read level outer g none rest
      | .needsValue o => read level outer g (some o) rest
      | .stop command => command

def Command.ofArguments (arguments : List String) : Command :=
  read .top {} {} none arguments

end DatagramStream.CommandLine
