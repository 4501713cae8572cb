import DatagramStream.Proofs.Wire

/-! The sequence numbers of a datagram can be moved without a change to how it is read. -/

namespace DatagramStream

def Header.shift (seq ack : SeqNum) (h : Header) : Header :=
  { h with seq := h.seq + seq, ack := h.ack + ack }

@[simp] lemma Header.length_shift (seq ack : SeqNum) (h : Header) :
    (h.shift seq ack).length = h.length := rfl

def Segment.shift (seq ack : SeqNum) (g : Segment) : Segment :=
  { g with header := g.header.shift seq ack }

namespace Bytes

def shift (seq ack : SeqNum) (b : Bytes) : Bytes :=
  if b.length < headerLength then b
  else
    b.take 4 ++ bigEndian 4 ((Header.fields b).seq + seq).toNat ++
      bigEndian 4 ((Header.fields b).ack + ack).toNat ++ b.drop 12

variable {seq ack : SeqNum} {b : Bytes}

lemma shift_short (h : b.length < headerLength) : b.shift seq ack = b :=
  if_pos h

lemma shift_long (h : headerLength ≤ b.length) : b.shift seq ack =
    b.take 4 ++ (bigEndian 4 ((Header.fields b).seq + seq).toNat ++
      (bigEndian 4 ((Header.fields b).ack + ack).toNat ++ b.drop 12)) := by
  rw [shift, if_neg (by omega), List.append_assoc, List.append_assoc]

@[simp] lemma length_shift (seq ack : SeqNum) (b : Bytes) :
    (b.shift seq ack).length = b.length := by
  rcases Nat.lt_or_ge b.length headerLength with h | h
  · rw [shift_short h]
  · rw [shift_long h]
    simp only [List.length_append, List.length_take, length_bigEndian, List.length_drop]
    rw [headerLength] at h
    omega

lemma drop_shift {n : Nat} (hn : 12 ≤ n) : (b.shift seq ack).drop n = b.drop n := by
  rcases Nat.lt_or_ge b.length headerLength with h | h
  · rw [shift_short h]
  · rw [shift_long h]
    rw [headerLength] at h
    -- The two numbers are the bytes from the fifth to the twelfth.
    have hlength : (b.take 4).length = 4 := by
      rw [List.length_take]
      omega
    rw [List.drop_append, List.drop_append, List.drop_append]
    simp only [hlength, length_bigEndian, List.drop_drop]
    rw [List.drop_of_length_le (by omega), List.drop_of_length_le (by simp; omega),
      List.drop_of_length_le (by simp; omega)]
    simp only [List.nil_append]
    congr 1
    omega

lemma getD_of_drop {b' : Bytes} {n : Nat} (h : b.drop n = b'.drop n) (x : UInt8) :
    b.getD n x = b'.getD n x := by
  have hfirst := congrArg (fun l => l[0]?) h
  simp only [List.getElem?_drop, Nat.add_zero] at hfirst
  rw [List.getD_eq_getElem?_getD, List.getD_eq_getElem?_getD, hfirst]

lemma slice_of_drop {b' : Bytes} {n : Nat} (h : b.drop n = b'.drop n) (width : Nat) :
    b.slice n width = b'.slice n width := by
  rw [slice, slice, h]

lemma ofNat_value_bigEndian (n : SeqNum) : UInt32.ofNat (bigEndian 4 n.toNat).value = n := by
  have hn : n.toNat % 256 ^ 4 = n.toNat := Nat.mod_eq_of_lt n.toNat_lt
  rw [value_bigEndian, hn, UInt32.ofNat_toNat]

end Bytes

namespace Header

variable {seq ack : SeqNum} {b : Bytes}

lemma fields_shift (h : headerLength ≤ b.length) :
    fields (b.shift seq ack) = (fields b).shift seq ack := by
  have hrest {n : Nat} (hn : 12 ≤ n) : (b.shift seq ack).drop n = b.drop n := Bytes.drop_shift hn
  have hseq : (b.shift seq ack).slice 4 4 = Bytes.bigEndian 4 ((fields b).seq + seq).toNat := by
    rw [Bytes.shift_long h]
    apply Bytes.slice_append _ _ _ _ (Bytes.length_bigEndian 4 _)
    rw [List.length_take]
    rw [headerLength] at h
    omega
  have hack : (b.shift seq ack).slice 8 4 = Bytes.bigEndian 4 ((fields b).ack + ack).toNat := by
    rw [Bytes.shift_long h, ← List.append_assoc]
    apply Bytes.slice_append _ _ _ _ (Bytes.length_bigEndian 4 _)
    rw [List.length_append, List.length_take, Bytes.length_bigEndian]
    rw [headerLength] at h
    omega
  rw [fields, hseq, hack, Bytes.getD_of_drop (hrest (by omega)),
    Bytes.getD_of_drop (hrest (by omega)), Bytes.slice_of_drop (hrest (by omega)),
    Bytes.ofNat_value_bigEndian, Bytes.ofNat_value_bigEndian]
  rfl

lemma fields_take {n : Nat} (hn : headerLength ≤ n) : fields (b.take n) = fields b := by
  rw [headerLength] at hn
  have hslice {start width : Nat} (h : start + width ≤ n) :
      Bytes.slice (b.take n) start width = b.slice start width := by
    rw [Bytes.slice, List.drop_take, List.take_take, Nat.min_eq_left (by omega), Bytes.slice]
  have hget {i : Nat} (h : i < n) : (b.take n).getD i 0 = b.getD i 0 := by
    rw [List.getD_eq_getElem?_getD, List.getElem?_take_of_lt h, List.getD_eq_getElem?_getD]
  rw [fields, hslice (by omega), hslice (by omega), hslice (by omega), hget (by omega),
    hget (by omega), fields]

lemma parse_shift (seq ack : SeqNum) (b : Bytes) :
    parse (b.shift seq ack) = (parse b).map (shift seq ack) := by
  rcases Nat.lt_or_ge b.length headerLength with hshort | hlong
  · rw [Bytes.shift_short hshort, parse, if_pos hshort]
    rfl
  · have hlength : ¬ b.length < headerLength := Nat.not_lt.mpr hlong
    have hoffset : ((fields b).shift seq ack).dataOffset = (fields b).dataOffset := rfl
    simp only [parse, Bytes.length_shift, if_neg hlength, fields_shift hlong, hoffset, length_shift]
    by_cases hsmall : (fields b).dataOffset < plainOffset
    · rw [if_pos hsmall, if_pos hsmall]
      rfl
    · rw [if_neg hsmall, if_neg hsmall]
      split_ifs <;> rfl

lemma length_of_parse {h : Header} (hp : parse b = .ok h) : headerLength ≤ h.length := by
  rw [parse] at hp
  dsimp only at hp
  split_ifs at hp with hshort hoffset
  cases hp
  rw [UInt8.lt_iff_toNat_lt] at hoffset
  simp only [length, headerLength, plainOffset, UInt8.reduceToNat] at hoffset ⊢
  omega

lemma encode_shift (h : Header) (seq ack : SeqNum) :
    (h.shift seq ack).encode = h.encode.shift seq ack := by
  have hfields : fields h.encode = { h with dataOffset := plainOffset } := by
    have hf := fields_encode_append h []
    rwa [List.append_nil] at hf
  rw [Bytes.shift_long (by rw [length_encode]), hfields]
  simp [encode, shift, Bytes.zeros, List.append_assoc, List.take_append, List.drop_append]

end Header

namespace Bytes

variable {seq ack : SeqNum} {b : Bytes}

lemma shift_append (h : headerLength ≤ b.length) (rest : Bytes) :
    shift seq ack (b ++ rest) = b.shift seq ack ++ rest := by
  have hfields : Header.fields (b ++ rest) = Header.fields b := by
    rw [← Header.fields_take h, List.take_left]
  rw [shift_long (by rw [List.length_append]; omega), shift_long h, hfields]
  rw [headerLength] at h
  rw [List.take_append_of_le_length (by omega), List.drop_append_of_le_length (by omega)]
  simp only [List.append_assoc]

lemma take_shift {n : Nat} (hn : headerLength ≤ n) :
    (b.shift seq ack).take n = shift seq ack (b.take n) := by
  rcases Nat.le_total b.length n with hb | hb
  · rw [List.take_of_length_le (by rwa [length_shift]), List.take_of_length_le hb]
  · have hlength : (b.take n).length = n := List.length_take_of_le hb
    conv_lhs => rw [← List.take_append_drop n b, shift_append (by rwa [hlength])]
    exact List.take_left' (by rw [length_shift, hlength])

end Bytes

namespace Segment

lemma parse_shift (seq ack : SeqNum) (b : Bytes) :
    parse (b.shift seq ack) = (parse b).map (shift seq ack) := by
  rw [parse, parse, Header.parse_shift]
  cases hb : Header.parse b with
  | error cause => rfl
  | ok h =>
    have hlength : 12 ≤ h.length := le_trans (by decide) (Header.length_of_parse hb)
    have hpayload : (b.shift seq ack).drop (h.shift seq ack).length = b.drop h.length :=
      Bytes.drop_shift hlength
    simp only [Except.map, hpayload]
    rfl

lemma ofBuffer_shift (capacity : Nat) (seq ack : SeqNum) (b : Bytes) :
    ofBuffer capacity (b.shift seq ack) = (ofBuffer capacity b).map (shift seq ack) := by
  rw [ofBuffer, ofBuffer, Bytes.length_shift]
  split_ifs
  · rfl
  · exact parse_shift seq ack b

end Segment

end DatagramStream
