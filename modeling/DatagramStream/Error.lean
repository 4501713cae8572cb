import DatagramStream.State

/-! Everything that can go wrong, as causes, and the wording of each. -/

namespace DatagramStream

inductive IoErrorKind where
  | notConnected
  | brokenPipe
  | wouldBlock
  | connectionReset
  | timedOut
  | interrupted
  | networkUnreachable
  | messageTooLong
  | other
  deriving DecidableEq

structure IoError where
  kind : IoErrorKind
  message : String
  deriving DecidableEq

namespace IoError

def linkShutDown : IoError := ⟨.notConnected, "link shut down"⟩
def peerDropped : IoError := ⟨.brokenPipe, "peer dropped"⟩
def nothingToWaitFor : IoError := ⟨.wouldBlock, "no requested event can occur"⟩
def peerUnknown : IoError := ⟨.notConnected, "peer address not known yet"⟩
def scriptExhausted : IoError := ⟨.other, "event script exhausted"⟩
def networkUnreachable : IoError :=
  ⟨.networkUnreachable, "Network is unreachable (os error 101)"⟩
def messageTooLong : IoError := ⟨.messageTooLong, "Message too long (os error 90)"⟩

end IoError

inductive SegmentError where
  | bufferTooSmall (expected found : Nat)
  | badDataOffset (words : UInt8)
  | oversized (max : Nat)
  deriving DecidableEq

def SegmentError.message : SegmentError → String
  | bufferTooSmall expected found =>
    "Buffer too small: expected " ++ toString expected ++ " bytes, found " ++ toString found ++
      " bytes"
  | badDataOffset words => "Bad data offset: " ++ toString words.toNat ++ " words"
  | oversized max => "Segment larger than " ++ toString max ++ " bytes"

inductive ConnectionError where
  | io (cause : IoError)
  | segment (cause : SegmentError)
  | channelClosed
  | handshakeIncomplete (state : State)
  | invalidState (text : String)
  | invalidConfig (text : String)
  deriving DecidableEq

namespace ConnectionError

def notSynchronized (state : State) : ConnectionError :=
  invalidState ("control loop entered in " ++ state.name)

def message : ConnectionError → String
  | io cause => "IO error: " ++ cause.message
  | segment cause => "Segment error: " ++ cause.message
  | channelClosed => "Network channel closed"
  | handshakeIncomplete state => "Handshake did not complete, stuck in " ++ state.name
  | invalidState text => "Invalid state: " ++ text
  | invalidConfig text => "Invalid config: " ++ text

end ConnectionError

end DatagramStream
