/-! Byte strings, and numbers written most significant byte first. -/

namespace DatagramStream

abbrev Bytes := List UInt8

namespace Bytes

def zeros (count : Nat) : Bytes :=
  List.replicate count 0

def bigEndian : Nat → Nat → Bytes
  | 0, _ => []
  | width + 1, n => bigEndian width (n / 256) ++ [UInt8.ofNat n]

def value (b : Bytes) : Nat :=
  b.foldl (fun n x => 256 * n + x.toNat) 0

def slice (b : Bytes) (start width : Nat) : Bytes :=
  (b.drop start).take width

@[simp] theorem length_bigEndian (width n : Nat) : (bigEndian width n).length = width := by
  induction width generalizing n with
  | zero => rfl
  | succ width ih => simp [bigEndian, ih]

@[simp] theorem value_nil : value [] = 0 := rfl

@[simp] theorem value_append_singleton (b : Bytes) (x : UInt8) :
    value (b ++ [x]) = 256 * value b + x.toNat := by
  simp [value]

end Bytes

end DatagramStream
