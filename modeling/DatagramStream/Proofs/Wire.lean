import DatagramStream.Engine.Request
import Mathlib.Algebra.Ring.Nat
import Mathlib.Tactic.Common

/-! A written segment reads back as itself, and offsets below 2^32 tell sequence numbers apart. -/

namespace DatagramStream

namespace SeqNum

lemma ofNat_eq_iff (a b : Nat) : UInt32.ofNat a = UInt32.ofNat b ↔ a % 2 ^ 32 = b % 2 ^ 32 := by
  rw [← UInt32.toNat_inj, UInt32.toNat_ofNat', UInt32.toNat_ofNat']

lemma add_ofNat_inj (base : SeqNum) {a b : Nat} (ha : a < 2 ^ 32) (hb : b < 2 ^ 32) :
    base + UInt32.ofNat a = base + UInt32.ofNat b ↔ a = b := by
  rw [UInt32.add_right_inj, ofNat_eq_iff, Nat.mod_eq_of_lt ha, Nat.mod_eq_of_lt hb]

lemma add_ofNat_add (base : SeqNum) (a b : Nat) :
    base + UInt32.ofNat a + UInt32.ofNat b = base + UInt32.ofNat (a + b) := by
  rw [UInt32.ofNat_add, UInt32.add_assoc]

lemma add_ofNat_succ (base : SeqNum) (a : Nat) :
    base + UInt32.ofNat a + 1 = base + UInt32.ofNat (a + 1) :=
  add_ofNat_add base a 1

end SeqNum

namespace Bytes

lemma value_bigEndian (width n : Nat) : value (bigEndian width n) = n % 256 ^ width := by
  induction width generalizing n with
  | zero => simp [bigEndian, Nat.mod_one]
  | succ width ih =>
    rw [bigEndian, value_append_singleton, ih, Nat.pow_succ, Nat.mul_comm (256 ^ width),
      Nat.mod_mul, UInt8.toNat_ofNat']
    omega

lemma slice_append (front middle rest : Bytes) {start width : Nat}
    (hs : front.length = start) (hw : middle.length = width) :
    slice (front ++ (middle ++ rest)) start width = middle := by
  subst hs hw
  simp [slice]

end Bytes

namespace Header

variable (h : Header) (payload : Bytes)

lemma fields_encode_append :
    fields (h.encode ++ payload) = { h with dataOffset := plainOffset } := by
  have hseq : Bytes.slice (h.encode ++ payload) 4 4 = Bytes.bigEndian 4 h.seq.toNat := by
    simp only [encode, List.append_assoc]
    exact Bytes.slice_append _ _ _ (by simp [Bytes.zeros]) (by simp)
  have hack : Bytes.slice (h.encode ++ payload) 8 4 = Bytes.bigEndian 4 h.ack.toNat := by
    have hs := Bytes.slice_append (Bytes.zeros 4 ++ Bytes.bigEndian 4 h.seq.toNat)
      (Bytes.bigEndian 4 h.ack.toNat) ([plainOffset <<< 4, h.flags.bits] ++
        (Bytes.bigEndian 2 h.window.toNat ++ (Bytes.zeros 4 ++ payload)))
      (by simp [Bytes.zeros] : _ = 8) (by simp : _ = 4)
    simpa only [encode, List.append_assoc] using hs
  have hwindow : Bytes.slice (h.encode ++ payload) 14 2 = Bytes.bigEndian 2 h.window.toNat := by
    have hs := Bytes.slice_append (Bytes.zeros 4 ++ Bytes.bigEndian 4 h.seq.toNat ++
        Bytes.bigEndian 4 h.ack.toNat ++ [plainOffset <<< 4, h.flags.bits])
      (Bytes.bigEndian 2 h.window.toNat) (Bytes.zeros 4 ++ payload)
      (by simp [Bytes.zeros] : _ = 14) (by simp : _ = 2)
    simpa only [encode, List.append_assoc] using hs
  have hoffset : (h.encode ++ payload).getD 12 0 = plainOffset <<< 4 := by
    simp [encode, List.getD_eq_getElem?_getD, List.getElem?_append, Bytes.zeros]
  have hflags : (h.encode ++ payload).getD 13 0 = h.flags.bits := by
    simp [encode, List.getD_eq_getElem?_getD, List.getElem?_append, Bytes.zeros]
  simp only [fields, hseq, hack, hwindow, hoffset, hflags, Bytes.value_bigEndian, Flags.ofBits_bits]
  have hs : h.seq.toNat % 256 ^ 4 = h.seq.toNat := Nat.mod_eq_of_lt h.seq.toNat_lt
  have ha : h.ack.toNat % 256 ^ 4 = h.ack.toNat := Nat.mod_eq_of_lt h.ack.toNat_lt
  have hw : h.window.toNat % 256 ^ 2 = h.window.toNat := Nat.mod_eq_of_lt h.window.toNat_lt
  rw [hs, ha, hw, UInt32.ofNat_toNat, UInt32.ofNat_toNat, UInt16.ofNat_toNat]
  rfl

lemma parse_encode_append (hp : h.dataOffset = plainOffset) :
    parse (h.encode ++ payload) = .ok h := by
  have hf : fields (h.encode ++ payload) = h := by
    rw [fields_encode_append, ← hp]
  have hl : h.length = headerLength := by simp [length, hp, plainOffset, headerLength]
  have hlt : ¬ plainOffset < plainOffset := by decide
  simp only [parse, hf, List.length_append, length_encode, hl, hp]
  rw [if_neg (by omega), if_neg hlt, if_neg (by omega)]

end Header

namespace Segment

def Plain (s : Segment) : Prop :=
  s.header.dataOffset = plainOffset

@[simp] lemma length_encode (s : Segment) : s.encode.length = headerLength + s.payload.length := by
  simp [encode]

lemma encode_ne_nil (s : Segment) : s.encode ≠ [] := by
  intro h
  have hl := congrArg List.length h
  rw [length_encode] at hl
  simp [headerLength] at hl

lemma parse_encode {s : Segment} (hp : s.Plain) : parse s.encode = .ok s := by
  have hl : s.header.length = s.header.encode.length := by
    rw [Header.length_encode, Header.length, hp]
    rfl
  simp only [parse, encode, Header.parse_encode_append s.header s.payload hp, hl, List.drop_left]

lemma ofBuffer_encode {s : Segment} (hp : s.Plain) {capacity : Nat}
    (h : s.encode.length < capacity) :
    ofBuffer capacity (s.encode.take capacity) = .ok s := by
  rw [List.take_of_length_le (Nat.le_of_lt h), ofBuffer, if_neg (by omega), parse_encode hp]

lemma ofBuffer_oversized {b : Bytes} {capacity : Nat} (h : capacity ≤ b.length) :
    ofBuffer capacity (b.take capacity) = .error (.oversized (capacity - 1)) := by
  rw [ofBuffer, if_pos (by rw [List.length_take]; omega)]

end Segment

namespace Config

lemma payloadLimit_of_valid {c : Config} (h : c.validate = .ok ()) :
    c.payloadLimit = c.mss ∧ 0 < c.mss := by
  rw [validate] at h
  split at h
  · cases h
  · rename_i hm
    simp only [payloadLimit]
    omega

lemma headerLength_lt_receiveCapacity (c : Config) : headerLength < c.receiveCapacity := by
  simp only [receiveCapacity, headerLength, maxHeaderLength]
  omega

end Config

namespace Engine

lemma arrival_take (e : Engine) {b : Bytes} (h : b ≠ []) :
    e.arrival (.ok (b.take e.config.receiveCapacity)) =
      .ok (Segment.ofBuffer e.config.receiveCapacity
        (b.take e.config.receiveCapacity)).toOption := by
  have hc : e.config.receiveCapacity ≠ 0 :=
    Nat.ne_zero_of_lt (Config.headerLength_lt_receiveCapacity e.config)
  cases ht : b.take e.config.receiveCapacity with
  | nil => simp_all
  | cons x xs =>
    simp only [arrival]
    cases Segment.ofBuffer e.config.receiveCapacity (x :: xs) <;> rfl

lemma arrival_encode (e : Engine) {s : Segment} (hp : s.Plain)
    (h : s.encode.length < e.config.receiveCapacity) :
    e.arrival (.ok (s.encode.take e.config.receiveCapacity)) = .ok (some s) := by
  rw [arrival_take e s.encode_ne_nil, Segment.ofBuffer_encode hp h]
  rfl

lemma arrival_oversized (e : Engine) {s : Segment}
    (h : e.config.receiveCapacity ≤ s.encode.length) :
    e.arrival (.ok (s.encode.take e.config.receiveCapacity)) = .ok none := by
  rw [arrival_take e s.encode_ne_nil, Segment.ofBuffer_oversized h]
  rfl

end Engine

end DatagramStream
