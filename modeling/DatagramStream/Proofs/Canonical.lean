import DatagramStream.Proofs.Renumbering.Wire
import Mathlib.Data.List.Induction

/-! What is written reads back, and a datagram is written as it was read unless it holds something
that is not read. -/

namespace DatagramStream

lemma Flags.bits_ofBits_eq_iff (x : UInt8) : (ofBits x).bits = x ↔ x &&& ~~~0x13 = 0 := by
  have hall : ∀ i : Fin 256,
      (ofBits (UInt8.ofFin i)).bits = UInt8.ofFin i ↔ UInt8.ofFin i &&& ~~~0x13 = 0 := by
    decide +kernel
  exact hall x.toFin

namespace Bytes

variable {b : Bytes} {start width : Nat}

lemma value_lt (b : Bytes) : value b < 256 ^ b.length := by
  induction b using List.reverseRecOn with
  | nil => simp
  | append_singleton b x ih =>
    have hx : x.toNat < 256 := x.toNat_lt
    rw [value_append_singleton, List.length_append, List.length_singleton, Nat.pow_succ]
    omega

lemma bigEndian_value (b : Bytes) : bigEndian b.length (value b) = b := by
  induction b using List.reverseRecOn with
  | nil => rfl
  | append_singleton b x ih =>
    have hx : x.toNat < 256 := x.toNat_lt
    have hfront : (256 * value b + x.toNat) / 256 = value b := by omega
    have hlast : UInt8.ofNat (256 * value b + x.toNat) = x := by
      apply UInt8.toNat_inj.mp
      rw [UInt8.toNat_ofNat']
      omega
    rw [value_append_singleton, List.length_append, List.length_singleton, bigEndian,
      hfront, hlast, ih]

lemma length_slice (h : start + width ≤ b.length) : (b.slice start width).length = width := by
  rw [slice, List.length_take, List.length_drop]
  omega

lemma value_slice_lt (h : start + width ≤ b.length) :
    (b.slice start width).value < 256 ^ width := by
  have hlt := value_lt (b.slice start width)
  rwa [length_slice h] at hlt

lemma bigEndian_slice (h : start + width ≤ b.length) :
    bigEndian width (b.slice start width).value = b.slice start width := by
  have heq := bigEndian_value (b.slice start width)
  rwa [length_slice h] at heq

lemma slice_append_drop (b : Bytes) (start width : Nat) :
    b.slice start width ++ b.drop (start + width) = b.drop start := by
  rw [slice, ← List.drop_drop, List.take_append_drop]

lemma getD_cons_drop (h : start < b.length) :
    b.getD start 0 :: b.drop (start + 1) = b.drop start := by
  rw [List.drop_eq_getElem_cons h, List.getD_eq_getElem?_getD, List.getElem?_eq_getElem h,
    Option.getD_some]

end Bytes

namespace Header

variable {b : Bytes}

lemma encode_fields (h : headerLength ≤ b.length) : (fields b).encode =
    Bytes.zeros 4 ++ (b.slice 4 4 ++ (b.slice 8 4 ++ (0x50 :: (Flags.ofBits (b.getD 13 0)).bits ::
      (b.slice 14 2 ++ Bytes.zeros 4)))) := by
  rw [headerLength] at h
  have hseq : (fields b).seq.toNat = (b.slice 4 4).value :=
    UInt32.toNat_ofNat_of_lt' (Bytes.value_slice_lt (by omega))
  have hack : (fields b).ack.toNat = (b.slice 8 4).value :=
    UInt32.toNat_ofNat_of_lt' (Bytes.value_slice_lt (by omega))
  have hwindow : (fields b).window.toNat = (b.slice 14 2).value :=
    UInt16.toNat_ofNat_of_lt' (Bytes.value_slice_lt (by omega))
  rw [encode, hseq, hack, hwindow, Bytes.bigEndian_slice (by omega),
    Bytes.bigEndian_slice (by omega), Bytes.bigEndian_slice (by omega)]
  simp only [List.append_assoc]
  rfl

end Header

namespace Bytes

variable {b : Bytes}

lemma eq_append_fields (h : headerLength ≤ b.length) :
    b = b.slice 0 4 ++ (b.slice 4 4 ++ (b.slice 8 4 ++ (b.getD 12 0 :: b.getD 13 0 ::
      (b.slice 14 2 ++ (b.slice 16 4 ++ b.drop headerLength))))) := by
  rw [headerLength] at h ⊢
  rw [slice_append_drop b 16 4, slice_append_drop b 14 2, getD_cons_drop (by omega),
    getD_cons_drop (by omega), slice_append_drop b 8 4, slice_append_drop b 4 4,
    slice_append_drop b 0 4, List.drop_zero]

end Bytes

namespace Segment

variable {b : Bytes} {g : Segment}

def withoutOptions (g : Segment) : Segment :=
  ⟨{ g.header with dataOffset := plainOffset }, g.payload⟩

lemma parse_encode_withoutOptions (g : Segment) : parse g.encode = .ok g.withoutOptions :=
  parse_encode (s := g.withoutOptions) rfl

lemma of_parse (h : parse b = .ok g) :
    headerLength ≤ b.length ∧ g = ⟨Header.fields b, b.drop (Header.fields b).length⟩ := by
  rw [parse, Header.parse] at h
  dsimp only at h
  split_ifs at h with hshort hoffset hlong
  cases h
  exact ⟨Nat.not_lt.mp hshort, rfl⟩

lemma encode_eq_iff (h : parse b = .ok g) : g.encode = b ↔
    b.slice 0 4 = Bytes.zeros 4 ∧ b.slice 16 4 = Bytes.zeros 4 ∧ b.getD 12 0 = 0x50 ∧
      b.getD 13 0 &&& ~~~0x13 = 0 := by
  obtain ⟨hlength, rfl⟩ := of_parse h
  have hports : (b.slice 0 4).length = 4 := Bytes.length_slice (le_trans (by decide) hlength)
  have htrailer : (b.slice 16 4).length = 4 := Bytes.length_slice (le_trans (by decide) hlength)
  have hencode : encode ⟨Header.fields b, b.drop (Header.fields b).length⟩ =
      Bytes.zeros 4 ++ (b.slice 4 4 ++ (b.slice 8 4 ++ (0x50 :: (Flags.ofBits (b.getD 13 0)).bits ::
        (b.slice 14 2 ++ (Bytes.zeros 4 ++ b.drop (Header.fields b).length))))) := by
    rw [encode, Header.encode_fields hlength]
    simp only [List.append_assoc, List.cons_append]
  rw [← Flags.bits_ofBits_eq_iff, hencode]
  constructor
  · intro heq
    -- Both sides are the same places one after another, so each place agrees.
    obtain ⟨hzero, hseq⟩ :=
      List.append_inj (heq.trans (Bytes.eq_append_fields hlength)) (by rw [hports]; rfl)
    have hflags := List.append_cancel_left (List.append_cancel_left hseq)
    obtain ⟨hoffset, hflags⟩ := List.cons.inj hflags
    obtain ⟨hflags, hwindow⟩ := List.cons.inj hflags
    obtain ⟨hrest, -⟩ := List.append_inj (List.append_cancel_left hwindow) (by rw [htrailer]; rfl)
    exact ⟨hzero.symm, hrest.symm, hoffset.symm, hflags⟩
  · rintro ⟨hzero, hrest, hoffset, hflags⟩
    have hplain : (Header.fields b).length = headerLength := by
      rw [Header.length, Header.fields, hoffset]
      rfl
    conv_rhs => rw [Bytes.eq_append_fields hlength, hzero, hrest, hoffset, ← hflags]
    rw [hplain]

/-- A segment reads back as it was written, less its options, and what has been read is written as
it was if and only if the places that are not read hold what is always written there. -/
theorem written_as_read (g : Segment) {b : Bytes} {r : Segment} (h : parse b = .ok r) :
    parse g.encode = .ok ⟨{ g.header with dataOffset := 5 }, g.payload⟩ ∧
      (∃ r', parse r.encode = .ok r' ∧ r'.header.seq = r.header.seq ∧ r'.header.ack = r.header.ack ∧
        r'.header.flags = r.header.flags ∧ r'.header.window = r.header.window ∧
        r'.payload = r.payload ∧
        (r'.header.dataOffset = r.header.dataOffset ↔ r.header.dataOffset = 5)) ∧
      (r.encode = b ↔ b.slice 0 4 = Bytes.zeros 4 ∧ b.slice 16 4 = Bytes.zeros 4 ∧
        b.getD 12 0 = 0x50 ∧ b.getD 13 0 &&& ~~~0x13 = 0) := by
  refine ⟨parse_encode_withoutOptions g, ?_, encode_eq_iff h⟩
  exact ⟨r.withoutOptions, parse_encode_withoutOptions r, rfl, rfl, rfl, rfl, rfl, eq_comm⟩

def ornate : Bytes :=
  [0, 80, 0, 0, 0, 0, 0, 7, 0, 0, 0, 9, 0x60, 0x18, 12, 0, 0, 0, 0, 0, 1, 1, 1, 1, 104, 105]

def readOrnate : Segment :=
  ⟨{ seq := 7, ack := 9, dataOffset := 6, flags := .ackOnly, window := 3072 }, [104, 105]⟩

theorem written_as_read_ornate : parse ornate = .ok readOrnate ∧
    (∃ r', parse readOrnate.encode = .ok r' ∧ r'.payload = [104, 105] ∧ r'.header.dataOffset ≠ 6) ∧
      readOrnate.encode ≠ ornate := by
  have hread : parse ornate = .ok readOrnate := by decide +kernel
  obtain ⟨-, ⟨r', hparse, -, -, -, -, hpayload, hoffset⟩, hsame⟩ := written_as_read readOrnate hread
  refine ⟨hread, ⟨r', hparse, hpayload, fun h => ?_⟩, fun h => ?_⟩
  · exact absurd (hoffset.mp h) (by decide)
  · exact absurd (hsame.mp h).1 (by decide)

end Segment

end DatagramStream
