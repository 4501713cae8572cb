/-! Control flags of a segment. -/

namespace DatagramStream

structure Flags where
  ack : Bool := false
  syn : Bool := false
  fin : Bool := false
  deriving DecidableEq

namespace Flags

def ackOnly : Flags := { ack := true }
def synOnly : Flags := { syn := true }
def finOnly : Flags := { fin := true }
def synAck : Flags := { syn := true, ack := true }

def bits (f : Flags) : UInt8 :=
  (if f.ack then 16 else 0) ||| (if f.syn then 2 else 0) ||| (if f.fin then 1 else 0)

def ofBits (b : UInt8) : Flags where
  ack := b &&& 16 != 0
  syn := b &&& 2 != 0
  fin := b &&& 1 != 0

@[simp] theorem ofBits_bits (f : Flags) : ofBits f.bits = f := by
  rcases f with ⟨_ | _, _ | _, _ | _⟩ <;> rfl

def known (b : UInt8) : Bool :=
  (ofBits b).bits == b

def seqLen (f : Flags) : UInt32 :=
  (if f.syn then 1 else 0) + (if f.fin then 1 else 0)

def isEmpty (f : Flags) : Bool :=
  f == {}

def union (f g : Flags) : Flags :=
  ⟨f.ack || g.ack, f.syn || g.syn, f.fin || g.fin⟩

def inter (f g : Flags) : Flags :=
  ⟨f.ack && g.ack, f.syn && g.syn, f.fin && g.fin⟩

def contains (f g : Flags) : Bool :=
  f.inter g == g

end Flags

end DatagramStream
