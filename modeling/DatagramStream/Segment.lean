import DatagramStream.Bytes
import DatagramStream.Error
import DatagramStream.Flags

/-! The wire format of a segment: a header laid out as that of TCP, and the payload after it. -/

namespace DatagramStream

abbrev SeqNum := UInt32

def headerLength : Nat := 20

def plainOffset : UInt8 := 5

structure Header where
  seq : SeqNum := 0
  ack : SeqNum := 0
  dataOffset : UInt8 := plainOffset
  flags : Flags := {}
  window : UInt16 := 0
  deriving DecidableEq

namespace Header

def length (h : Header) : Nat :=
  4 * h.dataOffset.toNat

def encode (h : Header) : Bytes :=
  Bytes.zeros 4 ++ Bytes.bigEndian 4 h.seq.toNat ++ Bytes.bigEndian 4 h.ack.toNat ++
    [plainOffset <<< 4, h.flags.bits] ++ Bytes.bigEndian 2 h.window.toNat ++ Bytes.zeros 4

@[simp] theorem length_encode (h : Header) : h.encode.length = headerLength := by
  simp [encode, Bytes.zeros, headerLength]

def writeTo (h : Header) (buffer : Bytes) : Except SegmentError Bytes :=
  if buffer.length < headerLength then
    .error (.bufferTooSmall headerLength buffer.length)
  else
    .ok (h.encode ++ buffer.drop headerLength)

def fields (b : Bytes) : Header where
  seq := UInt32.ofNat (b.slice 4 4).value
  ack := UInt32.ofNat (b.slice 8 4).value
  dataOffset := b.getD 12 0 >>> 4
  flags := Flags.ofBits (b.getD 13 0)
  window := UInt16.ofNat (b.slice 14 2).value

def parse (b : Bytes) : Except SegmentError Header :=
  if b.length < headerLength then
    .error (.bufferTooSmall headerLength b.length)
  else
    let h := fields b
    if h.dataOffset < plainOffset then
      .error (.badDataOffset h.dataOffset)
    else if b.length < h.length then
      .error (.bufferTooSmall h.length b.length)
    else
      .ok h

end Header

structure Segment where
  header : Header
  payload : Bytes
  deriving DecidableEq

namespace Segment

def encode (s : Segment) : Bytes :=
  s.header.encode ++ s.payload

def parse (b : Bytes) : Except SegmentError Segment :=
  match Header.parse b with
  | .error e => .error e
  | .ok h => .ok ⟨h, b.drop h.length⟩

/-- Read a datagram out of a buffer of the given capacity. One that fills the buffer may have been
cut, so it counts as too large. -/
def ofBuffer (capacity : Nat) (b : Bytes) : Except SegmentError Segment :=
  if capacity ≤ b.length then
    .error (.oversized (capacity - 1))
  else
    parse b

end Segment

end DatagramStream
