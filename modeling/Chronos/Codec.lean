import Chronos.Cursor

/-! The timestamp codec on machine words. The shifts and masks of 64 and 32 bits lose nothing under
a valid layout, so on words the codec computes what it computes on numbers. -/

namespace Chronos

structure DecodedWords where
  physicalMs : UInt64
  logical : UInt32
  generatorId : UInt32
  sequence : UInt32
  deriving DecidableEq

def DecodedWords.toDecodedTso (d : DecodedWords) : DecodedTso where
  physicalMs := d.physicalMs.toNat
  logical := d.logical.toNat
  generatorId := d.generatorId.toNat
  sequence := d.sequence.toNat

namespace TimestampLayout

section

variable (L : TimestampLayout)

def maxGeneratorsU32 : UInt32 := 1 <<< UInt32.ofNat L.generatorBits

def sequenceCapacityU32 : UInt32 := 1 <<< UInt32.ofNat L.sequenceBits

def maxPhysicalMsU64 : UInt64 := (1 <<< UInt64.ofNat L.physicalBits) - 1

def encodeWords (physicalMs : UInt64) (generatorId sequence : UInt32) : Except TsoError UInt64 :=
  match L.validate with
  | .error e => .error (.internal e.message)
  | .ok () =>
    if physicalMs > L.maxPhysicalMsU64 then .error .tsoOverflow
    else if generatorId ≥ L.maxGeneratorsU32 then
      .error (.generatorIdOutOfRange generatorId.toNat)
    else if sequence ≥ L.sequenceCapacityU32 then .error .tsoOverflow
    else .ok ((physicalMs <<< UInt64.ofNat L.logicalBits) |||
      (generatorId.toUInt64 <<< UInt64.ofNat L.sequenceBits) ||| sequence.toUInt64)

def decodeWords (tso : UInt64) : DecodedWords :=
  let generatorMask := (L.maxGeneratorsU32 - 1).toUInt64
  let sequenceMask := (L.sequenceCapacityU32 - 1).toUInt64
  let logicalMask : UInt64 := (1 <<< UInt64.ofNat L.logicalBits) - 1
  { physicalMs := tso >>> UInt64.ofNat L.logicalBits
    logical := (tso &&& logicalMask).toUInt32
    generatorId := ((tso >>> UInt64.ofNat L.sequenceBits) &&& generatorMask).toUInt32
    sequence := (tso &&& sequenceMask).toUInt32 }

end

section

variable {a : UInt64} {bits : Nat}

lemma toNat_shiftLeft_u64 (h : bits < 64)
    (hfits : a.toNat <<< bits < 2 ^ 64) : (a <<< UInt64.ofNat bits).toNat = a.toNat <<< bits := by
  have hbits : bits % 2 ^ 64 % 64 = bits := by omega
  rw [UInt64.toNat_shiftLeft, UInt64.toNat_ofNat', hbits, Nat.mod_eq_of_lt hfits]

lemma toNat_shiftRight_u64 (h : bits < 64) :
    (a >>> UInt64.ofNat bits).toNat = a.toNat >>> bits := by
  have hbits : bits % 2 ^ 64 % 64 = bits := by omega
  rw [UInt64.toNat_shiftRight, UInt64.toNat_ofNat', hbits]

lemma toNat_mask_u64 (h : bits < 64) :
    (((1 : UInt64) <<< UInt64.ofNat bits) - 1).toNat = (1 <<< bits) - 1 := by
  have hfits : (1 : UInt64).toNat <<< bits < 2 ^ 64 := by
    rw [UInt64.toNat_one, Nat.one_shiftLeft]
    exact Nat.pow_lt_pow_right (by decide) h
  have hshift := toNat_shiftLeft_u64 h hfits
  have hpos : (1 : UInt64) ≤ 1 <<< UInt64.ofNat bits := by
    rw [UInt64.le_iff_toNat_le, hshift, UInt64.toNat_one, Nat.one_shiftLeft]
    exact Nat.one_le_two_pow
  rw [UInt64.toNat_sub_of_le _ _ hpos, hshift, UInt64.toNat_one]

lemma toNat_one_shiftLeft_u32 (h : bits < 32) :
    ((1 : UInt32) <<< UInt32.ofNat bits).toNat = 1 <<< bits := by
  have hbits : bits % 2 ^ 32 % 32 = bits := by omega
  have hpow : 2 ^ bits < 2 ^ 32 := Nat.pow_lt_pow_right (by decide) h
  rw [UInt32.toNat_shiftLeft, UInt32.toNat_ofNat', hbits, UInt32.toNat_one, Nat.one_shiftLeft,
    Nat.mod_eq_of_lt hpow]

lemma toNat_mask_u32 (h : bits < 32) :
    (((1 : UInt32) <<< UInt32.ofNat bits) - 1).toUInt64.toNat = (1 <<< bits) - 1 := by
  have hshift := toNat_one_shiftLeft_u32 h
  have hpos : (1 : UInt32) ≤ 1 <<< UInt32.ofNat bits := by
    rw [UInt32.le_iff_toNat_le, hshift, UInt32.toNat_one, Nat.one_shiftLeft]
    exact Nat.one_le_two_pow
  rw [UInt32.toNat_toUInt64, UInt32.toNat_sub_of_le _ _ hpos, hshift, UInt32.toNat_one]

lemma toNat_toUInt32_and {mask : UInt64} (h : bits ≤ 32) (hmask : mask.toNat = (1 <<< bits) - 1) :
    (a &&& mask).toUInt32.toNat = a.toNat &&& ((1 <<< bits) - 1) := by
  have hpow : 2 ^ bits ≤ 2 ^ 32 := Nat.pow_le_pow_right (by decide) h
  have hsmall : a.toNat % 2 ^ bits < 2 ^ 32 := (Nat.mod_lt _ (Nat.two_pow_pos _)).trans_le hpow
  rw [UInt64.toNat_toUInt32, UInt64.toNat_and, hmask, Nat.one_shiftLeft,
    Nat.and_two_pow_sub_one_eq_mod, Nat.mod_eq_of_lt hsmall]

end

section

variable {L : TimestampLayout}

lemma Valid.logicalBits_le (h : L.Valid) : L.logicalBits ≤ 32 := by
  unfold Valid validate at h
  split_ifs at h
  omega

lemma Valid.size_eq (h : L.Valid) :
    (L.maxPhysicalMs + 1) * (L.maxGenerators * L.sequenceCapacity) = U64.size := by
  have hbits := h.widths.2.2.2.2
  have hphysical : L.maxPhysicalMs + 1 = 2 ^ L.physicalBits := by
    rw [maxPhysicalMs, Nat.one_shiftLeft]
    exact Nat.sub_add_cancel Nat.one_le_two_pow
  rw [hphysical, ← two_pow_logicalBits, ← pow_add, logicalBits, U64.size]
  congr 1
  omega

lemma Valid.pack_lt (h : L.Valid) {p g s : Nat} (hp : p ≤ L.maxPhysicalMs)
    (hg : g < L.maxGenerators) (hs : s < L.sequenceCapacity) :
    (p * L.maxGenerators + g) * L.sequenceCapacity + s < U64.size := by
  have hgen : p * L.maxGenerators + g + 1 ≤ (L.maxPhysicalMs + 1) * L.maxGenerators := by
    have hmul := Nat.mul_le_mul_right L.maxGenerators hp
    rw [Nat.succ_mul]
    omega
  calc (p * L.maxGenerators + g) * L.sequenceCapacity + s
      < (p * L.maxGenerators + g + 1) * L.sequenceCapacity := by rw [Nat.succ_mul]; omega
    _ ≤ (L.maxPhysicalMs + 1) * L.maxGenerators * L.sequenceCapacity := Nat.mul_le_mul_right _ hgen
    _ = U64.size := by rw [Nat.mul_assoc, h.size_eq]

lemma encodeWords_toNat (L : TimestampLayout) (physicalMs : UInt64) (gid sequence : UInt32) :
    (L.encodeWords physicalMs gid sequence).map UInt64.toNat = L.encode physicalMs.toNat gid.toNat
      sequence.toNat := by
  unfold encodeWords encode
  rcases hvalidate : L.validate with e | ⟨⟩
  · rfl
  have hL : L.Valid := hvalidate
  obtain ⟨hphysical, hsequence, hgen, hsequence', htotal⟩ := hL.widths
  have hlogical := hL.logicalBits_le
  have hmaxPhysical : L.maxPhysicalMsU64.toNat = L.maxPhysicalMs := toNat_mask_u64 (by omega)
  have hmaxGens : L.maxGeneratorsU32.toNat = L.maxGenerators := toNat_one_shiftLeft_u32 (by omega)
  have hcap : L.sequenceCapacityU32.toNat = L.sequenceCapacity := toNat_one_shiftLeft_u32 (by omega)
  simp only [gt_iff_lt, ge_iff_le, UInt64.lt_iff_toNat_lt, UInt32.le_iff_toNat_le, hmaxPhysical,
    hmaxGens, hcap]
  split_ifs with hp hg hs
  · rfl
  · rfl
  · rfl
  -- both shifted parts are below the packed timestamp, which fits
  rw [not_lt] at hp
  rw [not_le] at hg hs
  have hpack := hL.pack_lt hp hg hs
  rw [← pack_eq hg hs, U64.size] at hpack
  have hleft := Nat.lt_of_le_of_lt (Nat.left_le_or.trans Nat.left_le_or) hpack
  have hmiddle := Nat.lt_of_le_of_lt (Nat.right_le_or.trans Nat.left_le_or) hpack
  have hword : (gid.toUInt64).toNat = gid.toNat := UInt32.toNat_toUInt64 _
  simp only [Except.map, UInt64.toNat_or, UInt32.toNat_toUInt64]
  rw [toNat_shiftLeft_u64 (by omega) hleft, toNat_shiftLeft_u64 (by omega)
    (by rw [hword]; exact hmiddle),
    hword]

lemma decodeWords_toNat (hL : L.Valid) (tso : UInt64) :
    (L.decodeWords tso).toDecodedTso = L.decode tso.toNat := by
  obtain ⟨hphysical, hsequence, hgen, hsequence', htotal⟩ := hL.widths
  have hlogical := hL.logicalBits_le
  simp only [DecodedWords.toDecodedTso, decodeWords, decode, DecodedTso.mk.injEq]
  refine ⟨toNat_shiftRight_u64 (by omega), toNat_toUInt32_and hlogical (toNat_mask_u64 (by omega)),
    ?_, toNat_toUInt32_and (by omega) (toNat_mask_u32 (by omega))⟩
  rw [← toNat_shiftRight_u64 (by omega)]
  exact toNat_toUInt32_and (by omega) (toNat_mask_u32 (by omega))

end

section

variable {L : TimestampLayout} {p g s t p' g' s' t' : Nat}

lemma decode_of_encode (h : L.encode p g s = .ok t) :
    (L.decode t).physicalMs = p ∧ (L.decode t).generatorId = g ∧ (L.decode t).sequence = s := by
  obtain ⟨-, -, hg, hs, rfl⟩ := encode_eq_ok.mp h
  have hrest : ((p * L.maxGenerators + g) * L.sequenceCapacity + s) / L.sequenceCapacity =
      p * L.maxGenerators + g := by
    rw [Nat.add_comm, Nat.add_mul_div_right _ _ sequenceCapacity_pos, Nat.div_eq_of_lt hs,
      Nat.zero_add]
  refine ⟨?_, ?_, ?_⟩
  · rw [decode_physicalMs, Nat.mul_comm L.maxGenerators, ← Nat.div_div_eq_div_mul, hrest,
      Nat.add_comm, Nat.add_mul_div_right _ _ maxGenerators_pos, Nat.div_eq_of_lt hg, Nat.zero_add]
  · rw [decode_generatorId, hrest, Nat.mul_add_mod_self_right, Nat.mod_eq_of_lt hg]
  · rw [decode_sequence, Nat.mul_add_mod_self_right, Nat.mod_eq_of_lt hs]

lemma encode_of_decode (hL : L.Valid) (ht : t < U64.size) :
    L.encode (L.decode t).physicalMs (L.decode t).generatorId (L.decode t).sequence = .ok t := by
  refine encode_eq_ok.mpr ⟨hL, ?_, decode_generatorId_lt, decode_sequence_lt, pack_decode⟩
  rw [← hL.size_eq] at ht
  rw [decode_physicalMs]
  exact Nat.le_of_lt_succ (Nat.div_lt_of_lt_mul (Nat.mul_comm _ _ ▸ ht))

lemma encode_lt_encode (h : L.encode p g s = .ok t) (h' : L.encode p' g' s' = .ok t') :
    t < t' ↔ p < p' ∨ p = p' ∧ (g < g' ∨ g = g' ∧ s < s') := by
  obtain ⟨-, -, hg, hs, rfl⟩ := encode_eq_ok.mp h
  obtain ⟨-, -, hg', hs', rfl⟩ := encode_eq_ok.mp h'
  have hgen : p * L.maxGenerators + g = p' * L.maxGenerators + g' ↔ p = p' ∧ g = g' := by
    have hlt := lex_lt (x := p) (y := p') hg hg'
    have hgt := lex_lt (x := p') (y := p) hg' hg
    omega
  rw [lex_lt hs hs', lex_lt hg hg', hgen]
  tauto

end

variable {L : TimestampLayout}

lemma encodeWords_eq_ok {physicalMs : UInt64} {gid sequence : UInt32} {tso : UInt64} :
    L.encodeWords physicalMs gid sequence = .ok tso ↔
      L.encode physicalMs.toNat gid.toNat sequence.toNat = .ok tso.toNat := by
  rw [← encodeWords_toNat]
  rcases L.encodeWords physicalMs gid sequence with e | t
  · simp [Except.map]
  · simp [Except.map, UInt64.toNat_inj]

/-- Under a valid layout, what is encoded decodes to its parts, every word is the encoding of its
parts, and timestamps compare as their parts do, the first part first. -/
theorem tso_codec (hL : L.Valid) : (∀ p g s t, L.encodeWords p g s = .ok t →
      (L.decodeWords t).physicalMs = p ∧ (L.decodeWords t).generatorId = g ∧
        (L.decodeWords t).sequence = s) ∧
    (∀ t, L.encodeWords (L.decodeWords t).physicalMs (L.decodeWords t).generatorId
      (L.decodeWords t).sequence = .ok t) ∧
    ∀ p g s t p' g' s' t', L.encodeWords p g s = .ok t → L.encodeWords p' g' s' = .ok t' →
      (t < t' ↔ p < p' ∨ p = p' ∧ (g < g' ∨ g = g' ∧ s < s')) := by
  have hphysical : ∀ t, (L.decodeWords t).physicalMs.toNat = (L.decode t.toNat).physicalMs :=
    fun t => congrArg DecodedTso.physicalMs (decodeWords_toNat hL t)
  have hgen : ∀ t, (L.decodeWords t).generatorId.toNat = (L.decode t.toNat).generatorId :=
    fun t => congrArg DecodedTso.generatorId (decodeWords_toNat hL t)
  have hsequence : ∀ t, (L.decodeWords t).sequence.toNat = (L.decode t.toNat).sequence :=
    fun t => congrArg DecodedTso.sequence (decodeWords_toNat hL t)
  refine ⟨fun p g s t h => ?_, fun t => ?_, fun p g s t p' g' s' t' h h' => ?_⟩
  · obtain ⟨hp, hg, hs⟩ := decode_of_encode (encodeWords_eq_ok.mp h)
    exact ⟨UInt64.toNat_inj.mp ((hphysical t).trans hp), UInt32.toNat_inj.mp ((hgen t).trans hg),
      UInt32.toNat_inj.mp ((hsequence t).trans hs)⟩
  · rw [encodeWords_eq_ok, hphysical, hgen, hsequence]
    exact encode_of_decode hL t.toNat_lt
  have hlex := encode_lt_encode (encodeWords_eq_ok.mp h) (encodeWords_eq_ok.mp h')
  rw [UInt64.lt_iff_toNat_lt, hlex]
  simp only [UInt64.lt_iff_toNat_lt, UInt32.lt_iff_toNat_lt, UInt64.toNat_inj, UInt32.toNat_inj]

/-- The narrowest generator field: no bit at all. -/
theorem tso_codec_without_generators : let L : TimestampLayout := ⟨1, 0, 33, 0, 31⟩
    L.encodeWords 3 0 5 = .ok 6442450949 ∧ L.decodeWords 6442450949 = ⟨3, 5, 0, 5⟩ ∧
      ∀ t, L.encodeWords (L.decodeWords t).physicalMs (L.decodeWords t).generatorId
        (L.decodeWords t).sequence = .ok t :=
  ⟨by decide +kernel, by decide +kernel, (tso_codec (by decide +kernel)).2.1⟩

lemma Valid.maxPhysicalMs_succ_lt (h : L.Valid) : L.maxPhysicalMs + 1 < U64.size := by
  have hsize := h.size_eq
  have htwo : 2 ≤ L.maxGenerators * L.sequenceCapacity := by
    rw [← two_pow_logicalBits]
    exact Nat.le_self_pow (by have := h.widths; rw [logicalBits]; omega) 2
  have hmul := Nat.mul_le_mul_left (L.maxPhysicalMs + 1) htwo
  omega

lemma exists_nextCursor (L : TimestampLayout) {f g : Nat} (hL : L.Valid) (hf : f < U64.size) :
    ∃ c, nextCursorAfterWithLayout L f g = .ok c := by
  have hle := (encode_eq_ok.mp (encode_of_decode hL hf)).2.1
  have hnext := (Nat.succ_le_succ hle).trans_lt hL.maxPhysicalMs_succ_lt
  simp only [nextCursorAfterWithLayout, U64.checkedAdd_eq_some.mpr ⟨rfl, hnext⟩]
  split_ifs <;> exact ⟨_, rfl⟩

/-- The cursor after a floor is the least position whose timestamp is above the floor, and it is
beyond the horizon exactly if the generator has no such timestamp. -/
theorem nextCursor_least (L : TimestampLayout) (hL : L.Valid) (tsoFloor g : Nat)
    (hfloor : tsoFloor < U64.size) (hg : g < L.maxGenerators) :
    ∃ c, nextCursorAfterWithLayout L tsoFloor g = .ok c ∧ c.sequence < L.sequenceCapacity ∧
      (∀ physicalMs sequence, sequence < L.sequenceCapacity →
        (tsoFloor < (physicalMs * L.maxGenerators + g) * L.sequenceCapacity + sequence ↔
          c.physicalMs < physicalMs ∨ c.physicalMs = physicalMs ∧ c.sequence ≤ sequence)) ∧
      ((¬ ∃ physicalMs sequence tso, L.encode physicalMs g sequence = .ok tso ∧ tsoFloor < tso) ↔
        L.maxPhysicalMs < c.physicalMs) := by
  obtain ⟨c, hc⟩ := L.exists_nextCursor hL hfloor (g := g)
  have hseq := nextCursor_sequence_lt hc
  have habove : ∀ p s, s < L.sequenceCapacity →
      (tsoFloor < (p * L.maxGenerators + g) * L.sequenceCapacity + s ↔
        c.physicalMs < p ∨ c.physicalMs = p ∧ c.sequence ≤ s) := by
    intro p s hs
    rw [← tsoAt_mul_add hs, ← nextCursor_le_iff hg hc, ← not_lt, lex_lt hs hseq]
    omega
  refine ⟨c, hc, hseq, habove, ?_⟩
  constructor
  · intro hnone
    by_contra hle
    refine hnone ⟨c.physicalMs, c.sequence, _,
      encode_eq_ok.mpr ⟨hL, not_lt.mp hle, hg, hseq, rfl⟩, ?_⟩
    exact (habove _ _ hseq).mpr (.inr ⟨rfl, le_rfl⟩)
  · rintro hbeyond ⟨p, s, t, hencode, hlt⟩
    obtain ⟨-, hp, -, hs, rfl⟩ := encode_eq_ok.mp hencode
    have hcursor := (habove p s hs).mp hlt
    omega

theorem nextCursor_least_sample : ∃ c,
    nextCursorAfterWithLayout ⟨1, 0, 40, 13, 11⟩ (2 ^ 64 - 1) 7 = .ok c ∧ c.sequence < 2048 := by
  obtain ⟨c, hc, hseq, -⟩ := nextCursor_least ⟨1, 0, 40, 13, 11⟩ (by decide) (2 ^ 64 - 1) 7
    (by decide) (by decide)
  exact ⟨c, hc, hseq⟩

end TimestampLayout

end Chronos
