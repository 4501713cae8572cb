/-! What a connection can be woken for. -/

namespace DatagramStream

structure Signals where
  appData : Bool := false
  networkData : Bool := false
  closeRequested : Bool := false
  deriving DecidableEq

namespace Signals

def empty : Signals := {}
def network : Signals := { networkData := true }
def all : Signals := ⟨true, true, true⟩

def bits (s : Signals) : UInt8 :=
  (if s.appData then 1 else 0) ||| (if s.networkData then 2 else 0) |||
    (if s.closeRequested then 4 else 0)

def ofBits (b : UInt8) : Signals where
  appData := b &&& 1 != 0
  networkData := b &&& 2 != 0
  closeRequested := b &&& 4 != 0

@[simp] theorem ofBits_bits (s : Signals) : ofBits s.bits = s := by
  rcases s with ⟨_ | _, _ | _, _ | _⟩ <;> rfl

def isEmpty (s : Signals) : Bool :=
  s == empty

def union (s t : Signals) : Signals :=
  ⟨s.appData || t.appData, s.networkData || t.networkData, s.closeRequested || t.closeRequested⟩

def inter (s t : Signals) : Signals :=
  ⟨s.appData && t.appData, s.networkData && t.networkData, s.closeRequested && t.closeRequested⟩

end Signals

end DatagramStream
