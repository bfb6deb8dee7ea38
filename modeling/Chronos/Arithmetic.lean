import Chronos.Codec
import Chronos.Runtime.Generator

/-! The arithmetic of a layout as the machine does it. An operation has no result if it leaves its
width, shifts by the width or more, or divides by zero. -/

namespace Chronos

open Option

namespace Machine

def add (width a b : Nat) : Option Nat := if a + b < 2 ^ width then some (a + b) else none

def mul (width a b : Nat) : Option Nat := if a * b < 2 ^ width then some (a * b) else none

def sub (a b : Nat) : Option Nat := if b ≤ a then some (a - b) else none

def div (a b : Nat) : Option Nat := if b = 0 then none else some (a / b)

def shl (width a bits : Nat) : Option Nat :=
  if bits < width then some ((a <<< bits) % 2 ^ width) else none

def shr (width a bits : Nat) : Option Nat := if bits < width then some (a >>> bits) else none

variable {w a b : Nat}

lemma add_of_lt (h : a + b < 2 ^ w) : add w a b = some (a + b) := if_pos h

lemma mul_of_lt (h : a * b < 2 ^ w) : mul w a b = some (a * b) := if_pos h

lemma sub_of_le (h : b ≤ a) : sub a b = some (a - b) := if_pos h

lemma div_of_pos (h : 0 < b) : div a b = some (a / b) := if_neg h.ne'

lemma shl_of_lt (h : b < w) (hfits : a <<< b < 2 ^ w) : shl w a b = some (a <<< b) := by
  rw [shl, if_pos h, Nat.mod_eq_of_lt hfits]

lemma shl_one (h : b < w) : shl w 1 b = some (1 <<< b) := by
  apply shl_of_lt h
  rw [Nat.one_shiftLeft]
  exact Nat.pow_lt_pow_right one_lt_two h

lemma sub_one_shl : sub (1 <<< b) 1 = some (1 <<< b - 1) :=
  sub_of_le (by rw [Nat.one_shiftLeft]; exact Nat.one_le_two_pow)

lemma shr_of_lt (h : b < w) : shr w a b = some (a >>> b) := if_pos h

end Machine

inductive TsoUnixMsBoundary where
  | beforeCustomEpoch
  | beyondCapacityEnvelope
  deriving DecidableEq

structure TsoCapacityEnvelope where
  customEpochUnixMs : Nat
  maxSupportedUnixMs : Nat
  lifetimeMs : Nat
  maxPhysicalMs : Nat
  maxGenerators : Nat
  perGeneratorPerMsCapacity : Nat
  clusterPerMsCapacityCeiling : Nat
  deriving DecidableEq

namespace TimestampLayout

def maxUnixMs (L : TimestampLayout) : Nat := L.epochUnixMs + L.maxPhysicalMs

def capacityEnvelope (L : TimestampLayout) : TsoCapacityEnvelope where
  customEpochUnixMs := L.epochUnixMs
  maxSupportedUnixMs := L.maxUnixMs
  lifetimeMs := L.maxPhysicalMs + 1
  maxPhysicalMs := L.maxPhysicalMs
  maxGenerators := L.maxGenerators
  perGeneratorPerMsCapacity := L.sequenceCapacity
  clusterPerMsCapacityCeiling := L.maxGenerators * L.sequenceCapacity

def checkedPhysicalMsFromUnixMs (L : TimestampLayout) (unixMs : Nat) :
    Except TsoUnixMsBoundary Nat :=
  if unixMs < L.epochUnixMs then .error .beforeCustomEpoch
  else if unixMs > L.maxUnixMs then .error .beyondCapacityEnvelope
  else .ok (unixMs - L.epochUnixMs)

end TimestampLayout

namespace Machine

variable (L : TimestampLayout)

def logicalBits : Option Nat := add 8 L.generatorBits L.sequenceBits

def maxGenerators : Option Nat := shl 32 1 L.generatorBits

def sequenceCapacity : Option Nat := shl 32 1 L.sequenceBits

def maxPhysicalMs : Option Nat := do sub (← shl 64 1 L.physicalBits) 1

def validate : Option (Except TimestampLayoutValidationError Unit) :=
  if L.formatVersion ≠ timestampLayoutFormatVersion then
    some (.error (.unsupportedFormatVersion L.formatVersion timestampLayoutFormatVersion))
  else if L.physicalBits = 0 then some (.error .zeroPhysicalBits)
  else if L.sequenceBits = 0 then some (.error .zeroSequenceBits)
  else if L.generatorBits > 13 then some (.error (.tooManyGeneratorBits L.generatorBits))
  else if L.sequenceBits > 31 then some (.error (.tooManySequenceBits L.sequenceBits))
  else do
    let logicalBits ← add 8 L.generatorBits L.sequenceBits
    if logicalBits > 32 then return .error (.tooManyLogicalBits logicalBits)
    let total ← add 16 (← add 16 L.physicalBits L.generatorBits) L.sequenceBits
    if total ≠ 64 then return .error (.invalidTotalBits total)
    if (U64.checkedAdd L.epochUnixMs (← maxPhysicalMs L)).isNone then
      return .error .unixMillisecondHorizonOverflow
    return .ok ()

def maxUnixMs : Option Nat := do add 64 L.epochUnixMs (← maxPhysicalMs L)

def capacityEnvelope : Option TsoCapacityEnvelope := do
  let maxPhysicalMs ← maxPhysicalMs L
  let maxGenerators ← maxGenerators L
  let sequenceCapacity ← sequenceCapacity L
  return {
    customEpochUnixMs := L.epochUnixMs
    maxSupportedUnixMs := ← maxUnixMs L
    lifetimeMs := ← add 64 maxPhysicalMs 1
    maxPhysicalMs := maxPhysicalMs
    maxGenerators := maxGenerators
    perGeneratorPerMsCapacity := sequenceCapacity
    clusterPerMsCapacityCeiling := ← mul 64 maxGenerators sequenceCapacity }

def checkedPhysicalMsFromUnixMs (unixMs : Nat) : Option (Except TsoUnixMsBoundary Nat) :=
  if unixMs < L.epochUnixMs then some (.error .beforeCustomEpoch)
  else do
    if unixMs > (← maxUnixMs L) then return .error .beyondCapacityEnvelope
    return .ok (← sub unixMs L.epochUnixMs)

def encode (physicalMs generatorId sequence : Nat) : Option (Except TsoError Nat) := do
  match ← validate L with
  | .error e => return .error (.internal e.message)
  | .ok () =>
    if physicalMs > (← maxPhysicalMs L) then return .error .tsoOverflow
    if generatorId ≥ (← maxGenerators L) then
      return .error (.generatorIdOutOfRange generatorId)
    if sequence ≥ (← sequenceCapacity L) then return .error .tsoOverflow
    let high ← shl 64 physicalMs (← logicalBits L)
    let middle ← shl 64 generatorId L.sequenceBits
    return .ok (high ||| middle ||| sequence)

def decode (tso : Nat) : Option DecodedTso := do
  let generatorMask ← sub (← maxGenerators L) 1
  let sequenceMask ← sub (← sequenceCapacity L) 1
  let logicalBits ← logicalBits L
  let logicalMask ← sub (← shl 64 1 logicalBits) 1
  return {
    physicalMs := ← shr 64 tso logicalBits
    logical := (tso &&& logicalMask) % 2 ^ 32
    generatorId := ((← shr 64 tso L.sequenceBits) &&& generatorMask) % 2 ^ 32
    sequence := (tso &&& sequenceMask) % 2 ^ 32 }

variable {L}

lemma low_bits {t bits : Nat} (h : bits ≤ 32) :
    (t &&& (1 <<< bits - 1)) % 2 ^ 32 = t &&& (1 <<< bits - 1) := by
  rw [Nat.one_shiftLeft, Nat.and_two_pow_sub_one_eq_mod]
  exact Nat.mod_eq_of_lt
    ((Nat.mod_lt _ (Nat.two_pow_pos _)).trans_le (Nat.pow_le_pow_right two_pos h))

lemma maxPhysicalMs_eq (h : L.physicalBits < 64) : maxPhysicalMs L = some L.maxPhysicalMs := by
  rw [maxPhysicalMs, shl_one h]
  exact sub_one_shl

lemma validate_eq (h : L.physicalBits < 2 ^ 8) : validate L = some L.validate := by
  unfold validate TimestampLayout.validate
  -- The sums and the shift are only reached behind the checks that bound them.
  split_ifs with hv hp hs hg hq hl ht <;> try rfl
  all_goals
    have hlogical := add_of_lt (w := 8) (a := L.generatorBits) (b := L.sequenceBits) (by omega)
    have hhalf := add_of_lt (w := 16) (a := L.physicalBits) (b := L.generatorBits) (by omega)
    have htotal := add_of_lt (w := 16) (a := L.physicalBits + L.generatorBits)
      (b := L.sequenceBits) (by omega)
    rw [TimestampLayout.logicalBits] at *
    simp only [hlogical, hhalf, htotal, Option.bind_eq_bind, Option.bind_some]
  · rw [if_pos hl]
    rfl
  · rw [if_neg (by omega), if_pos ht]
    rfl
  all_goals
    rw [if_neg (by omega), if_neg ht, maxPhysicalMs_eq (by omega), Option.bind_some]
    simp_all

section

variable (hL : L.Valid)

include hL

lemma logicalBits_eq : logicalBits L = some L.logicalBits :=
  add_of_lt (by have := hL.widths; omega)

lemma maxGenerators_eq : maxGenerators L = some L.maxGenerators :=
  shl_one (by have := hL.widths; omega)

lemma sequenceCapacity_eq : sequenceCapacity L = some L.sequenceCapacity :=
  shl_one (by have := hL.widths; omega)

lemma maxPhysicalMs_of_valid : maxPhysicalMs L = some L.maxPhysicalMs :=
  maxPhysicalMs_eq (by have := hL.widths; omega)

lemma maxUnixMs_lt : L.maxUnixMs < U64.size := by
  unfold TimestampLayout.Valid TimestampLayout.validate at hL
  split_ifs at hL with hv hp hs hg hq hl ht hhorizon
  rw [Bool.not_eq_true, isNone_eq_false_iff, isSome_iff_exists] at hhorizon
  obtain ⟨horizon, hadd⟩ := hhorizon
  obtain ⟨rfl, hlt⟩ := U64.checkedAdd_eq_some.mp hadd
  exact hlt

lemma maxUnixMs_eq : maxUnixMs L = some L.maxUnixMs := by
  rw [maxUnixMs, maxPhysicalMs_of_valid hL]
  exact add_of_lt (maxUnixMs_lt hL)

lemma capacityEnvelope_eq : capacityEnvelope L = some L.capacityEnvelope := by
  have hlife : L.maxPhysicalMs + 1 < 2 ^ 64 := hL.maxPhysicalMs_succ_lt
  have hcluster : L.maxGenerators * L.sequenceCapacity < 2 ^ 64 := by
    rw [← TimestampLayout.two_pow_logicalBits]
    exact Nat.pow_lt_pow_right one_lt_two (by have := hL.logicalBits_le; omega)
  simp only [capacityEnvelope, maxPhysicalMs_of_valid hL, maxGenerators_eq hL,
    sequenceCapacity_eq hL, maxUnixMs_eq hL, add_of_lt hlife, mul_of_lt hcluster,
    bind_eq_bind, bind_some]
  rfl

lemma checkedPhysicalMsFromUnixMs_eq (unixMs : Nat) :
    checkedPhysicalMsFromUnixMs L unixMs = some (L.checkedPhysicalMsFromUnixMs unixMs) := by
  unfold checkedPhysicalMsFromUnixMs TimestampLayout.checkedPhysicalMsFromUnixMs
  split_ifs with hbefore hbeyond
  · rfl
  · simp [maxUnixMs_eq hL, hbeyond]
  · simp [maxUnixMs_eq hL, hbeyond, sub_of_le (not_lt.mp hbefore)]

lemma encode_eq (p g s : Nat) : encode L p g s = some (L.encode p g s) := by
  have hwidths := hL.widths
  have hvalidate : L.validate = .ok () := hL
  simp only [encode, TimestampLayout.encode, validate_eq (show L.physicalBits < 2 ^ 8 by omega),
    hvalidate, maxPhysicalMs_of_valid hL, maxGenerators_eq hL, sequenceCapacity_eq hL,
    logicalBits_eq hL, bind_eq_bind, bind_some]
  split_ifs with hp hg hs <;> try rfl
  have hpack := hL.pack_lt (not_lt.mp hp) (not_le.mp hg) (not_le.mp hs)
  have hor := TimestampLayout.pack_eq (p := p) (not_le.mp hg) (not_le.mp hs)
  have hhigh : p <<< L.logicalBits < 2 ^ 64 :=
    (Nat.left_le_or.trans (Nat.left_le_or.trans hor.le)).trans_lt hpack
  have hmiddle : g <<< L.sequenceBits < 2 ^ 64 :=
    (Nat.right_le_or.trans (Nat.left_le_or.trans hor.le)).trans_lt hpack
  rw [shl_of_lt (by have := hL.logicalBits_le; omega) hhigh, bind_some,
    shl_of_lt (by omega) hmiddle]
  rfl

lemma decode_eq (t : Nat) : decode L t = some (L.decode t) := by
  have hwidths := hL.widths
  have hlogical := hL.logicalBits_le
  simp only [decode, TimestampLayout.decode, maxGenerators_eq hL, sequenceCapacity_eq hL,
    logicalBits_eq hL, TimestampLayout.maxGenerators, TimestampLayout.sequenceCapacity, sub_one_shl,
    shl_one (show L.logicalBits < 64 by omega), shr_of_lt (show L.logicalBits < 64 by omega),
    shr_of_lt (show L.sequenceBits < 64 by omega), low_bits hlogical,
    low_bits (show L.generatorBits ≤ 32 by omega), low_bits (show L.sequenceBits ≤ 32 by omega),
    bind_eq_bind, bind_some]
  rfl

end

end Machine

/-- The index of a position up to one past the horizon, which leaves 64 bits only there and only if
no bit is kept for the generators. -/
lemma Cursor.index_eq_none_iff {L : TimestampLayout} (hL : L.Valid) {c : Cursor}
    (hp : c.physicalMs ≤ L.maxPhysicalMs + 1) (hs : c.sequence < L.sequenceCapacity) :
    c.index L = none ↔ L.maxPhysicalMs < c.physicalMs ∧ L.generatorBits = 0 := by
  have hsize := hL.size_eq
  have hnone : c.index L = none ↔ U64.size ≤ c.physicalMs * L.sequenceCapacity + c.sequence := by
    simp only [Cursor.index, U64.checkedMul, U64.checkedAdd]
    split_ifs with hmul
    · simp
    · exact iff_of_true rfl ((not_lt.mp hmul).trans (Nat.le_add_right _ _))
  have hnext : c.physicalMs * L.sequenceCapacity + c.sequence
      < (c.physicalMs + 1) * L.sequenceCapacity := by
    rw [Nat.succ_mul]
    omega
  rw [hnone]
  rcases Nat.eq_zero_or_pos L.generatorBits with hzero | hpos
  · have hone : L.maxGenerators = 1 := by rw [TimestampLayout.maxGenerators, hzero]; rfl
    rw [hone, Nat.one_mul] at hsize
    constructor
    · refine fun hover => ⟨Nat.lt_of_not_le fun hle => ?_, hzero⟩
      have hmul := Nat.mul_le_mul_right L.sequenceCapacity (Nat.add_le_add_right hle 1)
      omega
    · rintro ⟨hbeyond, -⟩
      have hmul : (L.maxPhysicalMs + 1) * L.sequenceCapacity ≤ _ :=
        Nat.mul_le_mul_right L.sequenceCapacity hbeyond
      omega
  · have htwo : 2 ≤ L.maxGenerators := by
      rw [TimestampLayout.maxGenerators_eq]
      exact Nat.le_self_pow hpos.ne' 2
    have hdouble : (c.physicalMs + 1) * L.sequenceCapacity ≤ U64.size :=
      calc (c.physicalMs + 1) * L.sequenceCapacity
          ≤ (L.maxPhysicalMs + 1) * 2 * L.sequenceCapacity :=
            Nat.mul_le_mul_right _ (by omega)
        _ ≤ (L.maxPhysicalMs + 1) * (L.maxGenerators * L.sequenceCapacity) := by
            rw [Nat.mul_assoc]
            exact Nat.mul_le_mul_left _ (Nat.mul_le_mul_right _ htwo)
        _ = U64.size := hsize
    exact iff_of_false (by omega) (by omega)

lemma TimestampLayout.nextCursor_physicalMs_le {L : TimestampLayout} (hL : L.Valid) {floor id : Nat}
    (hfloor : floor < U64.size) {c : Cursor} (hc : nextCursorAfterWithLayout L floor id = .ok c) :
    c.physicalMs ≤ L.maxPhysicalMs + 1 := by
  have hle := (encode_eq_ok.mp (encode_of_decode hL hfloor)).2.1
  have hnext := (Nat.succ_le_succ hle).trans_lt hL.maxPhysicalMs_succ_lt
  simp only [nextCursorAfterWithLayout, U64.checkedAdd_eq_some.mpr ⟨rfl, hnext⟩] at hc
  split_ifs at hc <;> cases hc
  · exact hle.trans (Nat.le_succ _)
  · exact hle.trans (Nat.le_succ _)
  · exact Nat.succ_le_succ hle
  · exact Nat.succ_le_succ hle

lemma Generator.initIndex_overflows_iff {L : TimestampLayout} (hL : L.Valid) {floor id : Nat}
    (hfloor : floor < U64.size) {c : Cursor} (hc : nextCursorAfterWithLayout L floor id = .ok c) :
    initIndex L id floor = .error .tsoOverflow ↔
      L.maxPhysicalMs < c.physicalMs ∧ L.generatorBits = 0 := by
  rw [← Cursor.index_eq_none_iff hL (TimestampLayout.nextCursor_physicalMs_le hL hfloor hc)
    (nextCursor_sequence_lt hc), initIndex, hc]
  dsimp only
  cases c.index L <;> simp

/-- Checking a layout never leaves the machine's words, and under an accepted layout nothing
computed from it does, except the index one past the horizon of a layout without generator bits: a
generator that starts after a floor reports the overflow then, and only then. -/
theorem layout_arithmetic (L : TimestampLayout) (hbits : L.physicalBits < 2 ^ 8) :
    Machine.validate L = some L.validate ∧ (L.Valid →
      Machine.logicalBits L = some L.logicalBits ∧
      Machine.maxGenerators L = some L.maxGenerators ∧
      Machine.sequenceCapacity L = some L.sequenceCapacity ∧
      Machine.maxPhysicalMs L = some L.maxPhysicalMs ∧
      Machine.capacityEnvelope L = some L.capacityEnvelope ∧
      (∀ unixMs, Machine.checkedPhysicalMsFromUnixMs L unixMs =
        some (L.checkedPhysicalMsFromUnixMs unixMs)) ∧
      (∀ physicalMs generatorId sequence, Machine.encode L physicalMs generatorId sequence =
        some (L.encode physicalMs generatorId sequence)) ∧
      (∀ tso, Machine.decode L tso = some (L.decode tso)) ∧
      (∀ index, Machine.div index L.sequenceCapacity = some (index / L.sequenceCapacity)) ∧
      (∀ c : Cursor, c.physicalMs ≤ L.maxPhysicalMs + 1 → c.sequence < L.sequenceCapacity →
        (c.index L = none ↔ L.maxPhysicalMs < c.physicalMs ∧ L.generatorBits = 0)) ∧
      ∀ id floor, floor < U64.size → ∃ c, nextCursorAfterWithLayout L floor id = .ok c ∧
        (Generator.initIndex L id floor = .error .tsoOverflow ↔
          L.maxPhysicalMs < c.physicalMs ∧ L.generatorBits = 0)) := by
  refine ⟨Machine.validate_eq hbits, fun hL => ?_⟩
  refine ⟨Machine.logicalBits_eq hL, Machine.maxGenerators_eq hL, Machine.sequenceCapacity_eq hL,
    Machine.maxPhysicalMs_of_valid hL, Machine.capacityEnvelope_eq hL,
    Machine.checkedPhysicalMsFromUnixMs_eq hL, Machine.encode_eq hL, Machine.decode_eq hL,
    fun _ => Machine.div_of_pos L.sequenceCapacity_pos, fun _ => Cursor.index_eq_none_iff hL,
    fun id floor hfloor => ?_⟩
  obtain ⟨c, hc⟩ := L.exists_nextCursor hL hfloor
  exact ⟨c, hc, Generator.initIndex_overflows_iff hL hfloor hc⟩

theorem layout_arithmetic_sample : let L : TimestampLayout := ⟨1, 0, 40, 13, 11⟩
    Machine.validate L = some (.ok ()) ∧ (⟨L.maxPhysicalMs + 1, 2047⟩ : Cursor).index L ≠ none := by
  obtain ⟨hvalidate, hvalid⟩ := layout_arithmetic ⟨1, 0, 40, 13, 11⟩ (by decide)
  refine ⟨hvalidate, fun hnone => ?_⟩
  have hindex := (hvalid (by decide)).2.2.2.2.2.2.2.2.2.1
    ⟨2 ^ 40, 2047⟩ (by decide) (by decide)
  exact absurd (hindex.mp hnone).2 (by decide)

/-- Without generator bits the index one past the horizon takes 65 bits. -/
theorem index_overflows_without_generators : let L : TimestampLayout := ⟨1, 0, 53, 0, 11⟩
    L.validate = .ok () ∧ (⟨L.maxPhysicalMs + 1, 0⟩ : Cursor).index L = none ∧
      Generator.initIndex L 0 U64.max = .error .tsoOverflow := by
  decide +kernel

end Chronos
