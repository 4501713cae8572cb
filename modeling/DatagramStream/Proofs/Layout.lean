import DatagramStream.Proofs.Canonical

/-! A datagram is read as a segment if and only if it is laid out as one, and how it is read depends
on nothing but the places that have a meaning. -/

namespace DatagramStream

lemma Flags.bits_ofBits (x : UInt8) : (ofBits x).bits = x &&& 0x13 := by
  have hall : ∀ i : Fin 256, (ofBits (UInt8.ofFin i)).bits = UInt8.ofFin i &&& 0x13 := by
    decide +kernel
  exact hall x.toFin

namespace Bytes

variable {b b' : Bytes} {start i : Nat}

def words (b : Bytes) : Nat :=
  (b.getD 12 0).toNat / 16

structure Whole (b : Bytes) : Prop where
  header : 20 ≤ b.length
  words : 5 ≤ b.words
  options : 4 * b.words ≤ b.length

inductive Refused (b : Bytes) : SegmentError → Prop
  | short : b.length < 20 → Refused b (.bufferTooSmall 20 b.length)
  | offset {announced : UInt8} : 20 ≤ b.length → announced.toNat = b.words → b.words < 5 →
      Refused b (.badDataOffset announced)
  | options : 20 ≤ b.length → 5 ≤ b.words → b.length < 4 * b.words →
      Refused b (.bufferTooSmall (4 * b.words) b.length)

/-- The two are as long, and differ at most in what is not read: the ports, the lower half of the
offset's byte, the flags without a meaning, and all from the checksum to the end of the options. -/
structure Alike (b b' : Bytes) : Prop where
  length : b'.length = b.length
  places (i : Nat) : b'.getD i 0 = b.getD i 0 ∨ i < 4 ∨ i = 12 ∧ b'.words = b.words ∨
    i = 13 ∧ b'.getD 13 0 &&& 0x13 = b.getD 13 0 &&& 0x13 ∨ 16 ≤ i ∧ i < 4 * b.words

lemma value_slice_two (h : start + 2 ≤ b.length) :
    (b.slice start 2).value = 256 * (b.getD start 0).toNat + (b.getD (start + 1) 0).toNat := by
  rw [slice, ← getD_cons_drop (by omega), ← getD_cons_drop (by omega)]
  simp [value]

lemma value_slice_four (h : start + 4 ≤ b.length) : (b.slice start 4).value =
    256 ^ 3 * (b.getD start 0).toNat + 256 ^ 2 * (b.getD (start + 1) 0).toNat +
      256 * (b.getD (start + 2) 0).toNat + (b.getD (start + 3) 0).toNat := by
  rw [slice, ← getD_cons_drop (by omega), ← getD_cons_drop (by omega), ← getD_cons_drop (by omega),
    ← getD_cons_drop (by omega)]
  simp only [Nat.add_assoc, Nat.reduceAdd, List.take_succ_cons, List.take_zero, value,
    List.foldl_cons, List.foldl_nil]
  omega

lemma whole_or_refused (b : Bytes) : b.Whole ∨ ∃ cause, b.Refused cause := by
  rcases Nat.lt_or_ge b.length 20 with hshort | hlength
  · exact .inr ⟨_, .short hshort⟩
  rcases Nat.lt_or_ge b.words 5 with hlow | hwords
  · have hannounced : (UInt8.ofNat b.words).toNat = b.words := by
      rw [UInt8.toNat_ofNat']
      omega
    exact .inr ⟨_, .offset hlength hannounced hlow⟩
  rcases Nat.lt_or_ge b.length (4 * b.words) with hlong | hoptions
  · exact .inr ⟨_, .options hlength hwords hlong⟩
  · exact .inl ⟨hlength, hwords, hoptions⟩

lemma outcome_iff {α : Type} {outcome : Except SegmentError α} {x : α}
    (hok : b.Whole → outcome = .ok x) (herror : ∀ cause, b.Refused cause → outcome = .error cause) :
    ((∃ y, outcome = .ok y) ↔ b.Whole) ∧ ∀ cause, outcome = .error cause ↔ b.Refused cause := by
  rcases b.whole_or_refused with hb | ⟨cause, hb⟩
  · rw [hok hb]
    refine ⟨⟨fun _ => hb, fun _ => ⟨x, rfl⟩⟩, fun cause => ⟨nofun, fun hr => ?_⟩⟩
    rw [← herror cause hr, hok hb]
  · rw [herror cause hb]
    refine ⟨⟨nofun, fun hw => ?_⟩, fun other => ⟨fun heq => ?_, fun hr => ?_⟩⟩
    · exact ⟨x, by rw [← hok hw, herror cause hb]⟩
    · cases heq
      exact hb
    · rw [← herror other hr, herror cause hb]

namespace Alike

lemma words_eq (h : b.Alike b') : b'.words = b.words := by
  rcases h.places 12 with heq | hport | ⟨-, hwords⟩ | ⟨hflags, -⟩ | ⟨hskipped, -⟩
  · rw [words, heq, words]
  · omega
  · exact hwords
  · omega
  · omega

lemma flags_eq (h : b.Alike b') : b'.getD 13 0 &&& 0x13 = b.getD 13 0 &&& 0x13 := by
  rcases h.places 13 with heq | hport | ⟨hoffset, -⟩ | ⟨-, hflags⟩ | ⟨hskipped, -⟩
  · rw [heq]
  · omega
  · omega
  · exact hflags
  · omega

lemma getD_eq (h : b.Alike b') (hi : 4 ≤ i ∧ i < 12 ∨ 14 ≤ i ∧ i < 16 ∨ 16 ≤ i ∧ 4 * b.words ≤ i) :
    b'.getD i 0 = b.getD i 0 := by
  rcases h.places i with heq | hport | ⟨hoffset, -⟩ | ⟨hflags, -⟩ | ⟨hskipped, hend⟩
  · exact heq
  all_goals omega

lemma whole (h : b.Alike b') (hb : b.Whole) : b'.Whole := by
  refine ⟨?_, ?_, ?_⟩
  · exact h.length ▸ hb.header
  · exact h.words_eq ▸ hb.words
  · rw [h.length, h.words_eq]
    exact hb.options

lemma refused {cause : SegmentError} (h : b.Alike b') (hb : b.Refused cause) :
    b'.Refused cause := by
  cases hb with
  | short hshort =>
    rw [← h.length] at hshort ⊢
    exact .short hshort
  | offset hlength hannounced hlow =>
    rw [← h.words_eq] at hannounced hlow
    exact .offset (h.length ▸ hlength) hannounced hlow
  | options hlength hwords hlong =>
    rw [← h.length, ← h.words_eq] at hlong ⊢
    exact .options (h.length ▸ hlength) (h.words_eq ▸ hwords) hlong

lemma drop_eq (h : b.Alike b') (hb : b.Whole) : b'.drop (4 * b'.words) = b.drop (4 * b.words) := by
  have hwords := hb.words
  apply List.ext_getElem
  · rw [List.length_drop, List.length_drop, h.length, h.words_eq]
  · intro i hi' hi
    rw [List.length_drop] at hi hi'
    have hplace := h.getD_eq (i := 4 * b.words + i) (by omega)
    rw [List.getD_eq_getElem?_getD, List.getD_eq_getElem?_getD,
      List.getElem?_eq_getElem (by have := h.words_eq; omega),
      List.getElem?_eq_getElem (by omega)] at hplace
    simpa only [List.getElem_drop, h.words_eq, Option.getD_some] using hplace

end Alike

end Bytes

namespace Header

variable {b b' : Bytes} {h h' : Header} {cause : SegmentError}

structure At (h : Header) (b : Bytes) : Prop where
  seq : h.seq.toNat = 256 ^ 3 * (b.getD 4 0).toNat + 256 ^ 2 * (b.getD 5 0).toNat +
    256 * (b.getD 6 0).toNat + (b.getD 7 0).toNat
  ack : h.ack.toNat = 256 ^ 3 * (b.getD 8 0).toNat + 256 ^ 2 * (b.getD 9 0).toNat +
    256 * (b.getD 10 0).toNat + (b.getD 11 0).toNat
  offset : h.dataOffset.toNat = b.words
  flags : h.flags.bits = b.getD 13 0 &&& 0x13
  window : h.window.toNat = 256 * (b.getD 14 0).toNat + (b.getD 15 0).toNat

lemma toNat_dataOffset_fields (b : Bytes) : (fields b).dataOffset.toNat = b.words := by
  rw [fields, UInt8.toNat_shiftRight, Nat.shiftRight_eq_div_pow]
  rfl

lemma length_fields (b : Bytes) : (fields b).length = 4 * b.words := by
  rw [length, toNat_dataOffset_fields]

lemma fields_at (hlength : 20 ≤ b.length) : (fields b).At b where
  seq := by
    have hlt : (b.slice 4 4).value < 256 ^ 4 := Bytes.value_slice_lt (by omega)
    rw [fields, UInt32.toNat_ofNat_of_lt' hlt, Bytes.value_slice_four (by omega)]
  ack := by
    have hlt : (b.slice 8 4).value < 256 ^ 4 := Bytes.value_slice_lt (by omega)
    rw [fields, UInt32.toNat_ofNat_of_lt' hlt, Bytes.value_slice_four (by omega)]
  offset := toNat_dataOffset_fields b
  flags := Flags.bits_ofBits _
  window := by
    have hlt : (b.slice 14 2).value < 256 ^ 2 := Bytes.value_slice_lt (by omega)
    rw [fields, UInt16.toNat_ofNat_of_lt' hlt, Bytes.value_slice_two (by omega)]

lemma At.unique (hh : h.At b) (hh' : h'.At b) : h = h' := by
  have hseq : h.seq = h'.seq := UInt32.toNat_inj.mp (hh.seq.trans hh'.seq.symm)
  have hack : h.ack = h'.ack := UInt32.toNat_inj.mp (hh.ack.trans hh'.ack.symm)
  have hoffset : h.dataOffset = h'.dataOffset :=
    UInt8.toNat_inj.mp (hh.offset.trans hh'.offset.symm)
  have hwindow : h.window = h'.window := UInt16.toNat_inj.mp (hh.window.trans hh'.window.symm)
  have hflags : h.flags = h'.flags := by
    rw [← Flags.ofBits_bits h.flags, hh.flags, ← hh'.flags, Flags.ofBits_bits]
  cases h
  cases h'
  simp_all only

lemma At.of_alike (hb : b.Alike b') (hh : h.At b) : h.At b' where
  seq := by
    rw [hh.seq, hb.getD_eq (i := 4) (by omega), hb.getD_eq (i := 5) (by omega),
      hb.getD_eq (i := 6) (by omega), hb.getD_eq (i := 7) (by omega)]
  ack := by
    rw [hh.ack, hb.getD_eq (i := 8) (by omega), hb.getD_eq (i := 9) (by omega),
      hb.getD_eq (i := 10) (by omega), hb.getD_eq (i := 11) (by omega)]
  offset := hh.offset.trans hb.words_eq.symm
  flags := hh.flags.trans hb.flags_eq.symm
  window := by
    rw [hh.window, hb.getD_eq (i := 14) (by omega), hb.getD_eq (i := 15) (by omega)]

lemma fields_eq_of_alike (hb : b.Alike b') (hlength : 20 ≤ b.length) : fields b' = fields b :=
  (fields_at (hb.length ▸ hlength)).unique ((fields_at hlength).of_alike hb)

lemma dataOffset_fields_lt_iff (b : Bytes) : (fields b).dataOffset < plainOffset ↔ b.words < 5 := by
  rw [UInt8.lt_iff_toNat_lt, toNat_dataOffset_fields]
  rfl

lemma parse_eq (b : Bytes) : parse b =
    if b.length < 20 then .error (.bufferTooSmall 20 b.length)
    else if b.words < 5 then .error (.badDataOffset (fields b).dataOffset)
    else if b.length < 4 * b.words then .error (.bufferTooSmall (4 * b.words) b.length)
    else .ok (fields b) := by
  rw [parse]
  simp only [dataOffset_fields_lt_iff, length_fields, headerLength]

lemma parse_whole (hb : b.Whole) : parse b = .ok (fields b) := by
  rw [parse_eq, if_neg (Nat.not_lt.mpr hb.header), if_neg (Nat.not_lt.mpr hb.words),
    if_neg (Nat.not_lt.mpr hb.options)]

lemma parse_refused (hb : b.Refused cause) : parse b = .error cause := by
  rw [parse_eq]
  cases hb with
  | short hshort => rw [if_pos hshort]
  | offset hlength hannounced hlow =>
    rw [if_neg (Nat.not_lt.mpr hlength), if_pos hlow,
      UInt8.toNat_inj.mp (hannounced.trans (toNat_dataOffset_fields b).symm)]
  | options hlength hwords hlong =>
    rw [if_neg (Nat.not_lt.mpr hlength), if_neg (Nat.not_lt.mpr hwords), if_pos hlong]

end Header

namespace Segment

variable {b b' : Bytes} {g : Segment} {cause : SegmentError}

/-- A segment as it lies in a datagram. Anything may stand for the ports and for what is skipped,
which is the checksum, the urgent pointer and the options. -/
inductive LaidOut (g : Segment) : Bytes → Prop
  | mk {ports skipped : Bytes} {offset flags : UInt8} : ports.length = 4 →
      offset.toNat / 16 = g.header.dataOffset.toNat → 5 ≤ g.header.dataOffset.toNat →
      flags &&& 0x13 = g.header.flags.bits → 16 + skipped.length = 4 * g.header.dataOffset.toNat →
      LaidOut g (ports ++
        (Bytes.bigEndian 4 g.header.seq.toNat ++ (Bytes.bigEndian 4 g.header.ack.toNat ++
          (offset :: flags ::
            (Bytes.bigEndian 2 g.header.window.toNat ++ (skipped ++ g.payload))))))

lemma parse_whole (hb : b.Whole) : parse b = .ok ⟨Header.fields b, b.drop (4 * b.words)⟩ := by
  rw [parse, Header.parse_whole hb, ← Header.length_fields]

lemma parse_refused (hb : b.Refused cause) : parse b = .error cause := by
  rw [parse, Header.parse_refused hb]

lemma laidOut (hb : b.Whole) : LaidOut ⟨Header.fields b, b.drop (4 * b.words)⟩ b := by
  have hlength : headerLength ≤ b.length := hb.header
  have hwords := hb.words
  have hoptions := hb.options
  have hat := Header.fields_at hb.header
  have hseq : Bytes.bigEndian 4 (Header.fields b).seq.toNat = b.slice 4 4 := by
    rw [hat.seq, ← Bytes.value_slice_four (by omega : 4 + 4 ≤ b.length),
      Bytes.bigEndian_slice (by omega)]
  have hack : Bytes.bigEndian 4 (Header.fields b).ack.toNat = b.slice 8 4 := by
    rw [hat.ack, ← Bytes.value_slice_four (by omega : 8 + 4 ≤ b.length),
      Bytes.bigEndian_slice (by omega)]
  have hwindow : Bytes.bigEndian 2 (Header.fields b).window.toNat = b.slice 14 2 := by
    rw [hat.window, ← Bytes.value_slice_two (by omega : 14 + 2 ≤ b.length),
      Bytes.bigEndian_slice (by omega)]
  have hskipped : b.slice 16 4 ++ b.drop headerLength =
      b.slice 16 (4 * b.words - 16) ++ b.drop (4 * b.words) := by
    have hend : 16 + (4 * b.words - 16) = 4 * b.words := by omega
    have hrest := Bytes.slice_append_drop b 16 (4 * b.words - 16)
    rw [hend] at hrest
    rw [headerLength, Bytes.slice_append_drop b 16 4, hrest]
  have hlaid : LaidOut ⟨Header.fields b, b.drop (4 * b.words)⟩ _ :=
    @LaidOut.mk _ (b.slice 0 4) (b.slice 16 (4 * b.words - 16)) _ _ (Bytes.length_slice (by omega))
      hat.offset.symm (hat.offset ▸ hwords) hat.flags.symm (by
        rw [Bytes.length_slice (by omega), hat.offset]
        omega)
  rw [hseq, hack, hwindow, ← hskipped, ← Bytes.eq_append_fields hlength] at hlaid
  exact hlaid

lemma LaidOut.slices (h : g.LaidOut b) : b.slice 4 4 = Bytes.bigEndian 4 g.header.seq.toNat ∧
    b.slice 8 4 = Bytes.bigEndian 4 g.header.ack.toNat ∧
      b.slice 14 2 = Bytes.bigEndian 2 g.header.window.toNat ∧
      b.drop (4 * g.header.dataOffset.toNat) = g.payload := by
  obtain ⟨hports, -, -, -, hskipped⟩ := h
  rename_i ports skipped offset flags
  have hfront :
      (ports ++ Bytes.bigEndian 4 g.header.seq.toNat ++ Bytes.bigEndian 4 g.header.ack.toNat ++
        [offset, flags]).length = 14 := by
    simp [hports]
  refine ⟨?_, ?_, ?_, ?_⟩
  · exact Bytes.slice_append _ _ _ hports (Bytes.length_bigEndian _ _)
  · rw [← List.append_assoc ports]
    exact Bytes.slice_append _ _ _ (by simp [hports]) (Bytes.length_bigEndian _ _)
  · have hs := Bytes.slice_append _ (Bytes.bigEndian 2 g.header.window.toNat)
      (skipped ++ g.payload) hfront (Bytes.length_bigEndian _ _)
    simpa only [List.append_assoc, List.cons_append, List.nil_append] using hs
  · have hd : List.drop (4 * g.header.dataOffset.toNat)
        (ports ++ Bytes.bigEndian 4 g.header.seq.toNat ++ Bytes.bigEndian 4 g.header.ack.toNat ++
          [offset, flags] ++ Bytes.bigEndian 2 g.header.window.toNat ++ skipped ++ g.payload) =
          g.payload := by
      apply List.drop_left'
      rw [List.length_append, List.length_append, hfront, Bytes.length_bigEndian, ← hskipped]
    simpa only [List.append_assoc, List.cons_append, List.nil_append] using hd

lemma LaidOut.marks (h : g.LaidOut b) :
    b.words = g.header.dataOffset.toNat ∧ b.getD 13 0 &&& 0x13 = g.header.flags.bits := by
  obtain ⟨hports, hoffset, -, hflags, -⟩ := h
  constructor
  · rw [← hoffset, Bytes.words]
    simp [List.getD_eq_getElem?_getD, List.getElem?_append, hports]
  · rw [← hflags]
    simp [List.getD_eq_getElem?_getD, List.getElem?_append, hports]

lemma LaidOut.whole (h : g.LaidOut b) : b.Whole := by
  have hwords := h.marks.1
  obtain ⟨hports, -, hleast, -, hskipped⟩ := h
  refine ⟨?_, ?_, ?_⟩
  · simp [hports]
    omega
  · rw [hwords]
    exact hleast
  · rw [hwords]
    simp [hports]
    omega

lemma LaidOut.at (h : g.LaidOut b) : g.header.At b := by
  have hlength := h.whole.header
  obtain ⟨hseq, hack, hwindow, -⟩ := h.slices
  obtain ⟨hoffset, hflags⟩ := h.marks
  refine ⟨?_, ?_, hoffset.symm, hflags.symm, ?_⟩
  · rw [← Bytes.value_slice_four (by omega : 4 + 4 ≤ b.length), hseq, Bytes.value_bigEndian]
    exact (Nat.mod_eq_of_lt g.header.seq.toNat_lt).symm
  · rw [← Bytes.value_slice_four (by omega : 8 + 4 ≤ b.length), hack, Bytes.value_bigEndian]
    exact (Nat.mod_eq_of_lt g.header.ack.toNat_lt).symm
  · rw [← Bytes.value_slice_two (by omega : 14 + 2 ≤ b.length), hwindow, Bytes.value_bigEndian]
    exact (Nat.mod_eq_of_lt g.header.window.toNat_lt).symm

lemma parse_eq_ok_iff : parse b = .ok g ↔ g.LaidOut b := by
  constructor
  · intro hok
    rcases b.whole_or_refused with hb | ⟨cause, hb⟩
    · rw [parse_whole hb] at hok
      cases hok
      exact laidOut hb
    · rw [parse_refused hb] at hok
      cases hok
  · intro hlaid
    have hpayload : b.drop (4 * b.words) = g.payload := hlaid.marks.1 ▸ hlaid.slices.2.2.2
    rw [parse_whole hlaid.whole, (Header.fields_at hlaid.whole.header).unique hlaid.at, hpayload]

lemma parse_eq_of_alike (hb : b.Alike b') : Header.parse b' = Header.parse b ∧
    parse b' = parse b := by
  rcases b.whole_or_refused with hw | ⟨cause, hr⟩
  · have hfields := Header.fields_eq_of_alike hb hw.header
    rw [Header.parse_whole hw, Header.parse_whole (hb.whole hw), parse_whole hw,
      parse_whole (hb.whole hw), hfields, hb.drop_eq hw]
    exact ⟨rfl, rfl⟩
  · rw [Header.parse_refused hr, Header.parse_refused (hb.refused hr), parse_refused hr,
      parse_refused (hb.refused hr)]
    exact ⟨rfl, rfl⟩

/-- A datagram is read as the segment that is laid out in it, if and only if the header that it
announces is whole, and what is not read makes no difference. -/
theorem read_as_laid_out (b : Bytes) :
    (∀ g, parse b = .ok g ↔ g.LaidOut b) ∧
      ((∃ g, parse b = .ok g) ↔ b.Whole) ∧ ((∃ h, Header.parse b = .ok h) ↔ b.Whole) ∧
      (b.Whole → ∃ h : Header, h.At b ∧ Header.parse b = .ok h ∧
        parse b = .ok ⟨h, b.drop (4 * b.words)⟩) ∧
      (∀ cause, (parse b = .error cause ↔ b.Refused cause) ∧
        (Header.parse b = .error cause ↔ b.Refused cause)) ∧
      ∀ b', b.Alike b' → Header.parse b' = Header.parse b ∧ parse b' = parse b := by
  obtain ⟨hok, herror⟩ := Bytes.outcome_iff (b := b) parse_whole (fun _ => parse_refused)
  obtain ⟨hheader, hcause⟩ :=
    Bytes.outcome_iff (b := b) Header.parse_whole (fun _ => Header.parse_refused)
  refine ⟨fun g => parse_eq_ok_iff, hok, hheader, fun hb => ?_,
    fun cause => ⟨herror cause, hcause cause⟩, fun b' => parse_eq_of_alike⟩
  exact ⟨Header.fields b, Header.fields_at hb.header, Header.parse_whole hb, parse_whole hb⟩

def cluttered : Bytes :=
  [1, 2, 3, 4, 0, 0, 0, 7, 0, 0, 0, 9, 0x6f, 0xfc, 12, 0, 1, 2, 3, 4, 5, 6, 7, 8, 104, 105]

def uncluttered : Bytes :=
  [0, 0, 0, 0, 0, 0, 0, 7, 0, 0, 0, 9, 0x60, 0x10, 12, 0, 0, 0, 0, 0, 0, 0, 0, 0, 104, 105]

theorem read_as_laid_out_cluttered :
    uncluttered.Alike cluttered ∧ parse cluttered = parse uncluttered ∧
      parse uncluttered = .ok
        ⟨{ seq := 7, ack := 9, dataOffset := 6, flags := .ackOnly, window := 3072 }, [104, 105]⟩ ∧
      parse (uncluttered.take 23) = .error (.bufferTooSmall 24 23) := by
  have halike : uncluttered.Alike cluttered := by
    refine ⟨rfl, fun i => ?_⟩
    rcases Nat.lt_or_ge i 26 with hi | hi
    · revert i
      decide
    · left
      rw [List.getD_eq_getElem?_getD, List.getD_eq_getElem?_getD, List.getElem?_eq_none hi,
        List.getElem?_eq_none hi]
  have hlaid : LaidOut
      ⟨{ seq := 7, ack := 9, dataOffset := 6, flags := .ackOnly, window := 3072 }, [104, 105]⟩
      uncluttered :=
    @LaidOut.mk _ [0, 0, 0, 0] [0, 0, 0, 0, 0, 0, 0, 0] 0x60 0x10 rfl rfl (by decide) rfl rfl
  have hrefused : Bytes.Refused (uncluttered.take 23) (.bufferTooSmall 24 23) :=
    .options (by decide) (by decide) (by decide)
  obtain ⟨hread, -, -, -, -, hsame⟩ := read_as_laid_out uncluttered
  obtain ⟨-, -, -, -, hcause, -⟩ := read_as_laid_out (uncluttered.take 23)
  exact ⟨halike, (hsame cluttered halike).2, (hread _).mpr hlaid, (hcause _).1.mpr hrefused⟩

end Segment

end DatagramStream
