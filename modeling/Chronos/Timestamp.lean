import Chronos.Types
import Chronos.U64
import Mathlib.Data.Nat.Bits
import Mathlib.Tactic.Ring
import Mathlib.Tactic.Linarith

/-! The timestamp layout: a physical part, a generator id and a sequence packed into 64 bits. -/

namespace Chronos

structure TimestampLayout where
  formatVersion : Nat
  epochUnixMs : Nat
  physicalBits : Nat
  generatorBits : Nat
  sequenceBits : Nat
  deriving DecidableEq

inductive TimestampLayoutValidationError where
  | unsupportedFormatVersion (actual expected : Nat)
  | zeroPhysicalBits
  | zeroSequenceBits
  | invalidTotalBits (total : Nat)
  | tooManyGeneratorBits (actual : Nat)
  | tooManySequenceBits (actual : Nat)
  | tooManyLogicalBits (actual : Nat)
  | unixMillisecondHorizonOverflow
  deriving DecidableEq

def TimestampLayoutValidationError.message : TimestampLayoutValidationError → String
  | unsupportedFormatVersion actual expected =>
    s!"unsupported timestamp layout format version {actual}; expected {expected}"
  | zeroPhysicalBits => "timestamp layout physical_bits must be greater than 0"
  | zeroSequenceBits => "timestamp layout sequence_bits must be greater than 0"
  | invalidTotalBits total => s!"timestamp layout bit widths must total 64, got {total}"
  | tooManyGeneratorBits actual =>
    s!"timestamp layout generator_bits must not exceed 13, got {actual}"
  | tooManySequenceBits actual =>
    s!"timestamp layout sequence_bits must not exceed 31, got {actual}"
  | tooManyLogicalBits actual =>
    s!"timestamp layout generator_bits + sequence_bits must not exceed 32, got {actual}"
  | unixMillisecondHorizonOverflow =>
    "timestamp layout epoch and physical capacity exceed u64 Unix milliseconds"

def timestampLayoutFormatVersion : Nat := 1

namespace TimestampLayout

def logicalBits (L : TimestampLayout) : Nat := L.generatorBits + L.sequenceBits

def maxGenerators (L : TimestampLayout) : Nat := 1 <<< L.generatorBits

def sequenceCapacity (L : TimestampLayout) : Nat := 1 <<< L.sequenceBits

def maxPhysicalMs (L : TimestampLayout) : Nat := (1 <<< L.physicalBits) - 1

def validate (L : TimestampLayout) : Except TimestampLayoutValidationError Unit :=
  if L.formatVersion ≠ timestampLayoutFormatVersion then
    .error (.unsupportedFormatVersion L.formatVersion timestampLayoutFormatVersion)
  else if L.physicalBits = 0 then .error .zeroPhysicalBits
  else if L.sequenceBits = 0 then .error .zeroSequenceBits
  else if L.generatorBits > 13 then .error (.tooManyGeneratorBits L.generatorBits)
  else if L.sequenceBits > 31 then .error (.tooManySequenceBits L.sequenceBits)
  else if L.logicalBits > 32 then .error (.tooManyLogicalBits L.logicalBits)
  else if L.physicalBits + L.generatorBits + L.sequenceBits ≠ 64 then
    .error (.invalidTotalBits (L.physicalBits + L.generatorBits + L.sequenceBits))
  else if (U64.checkedAdd L.epochUnixMs L.maxPhysicalMs).isNone then
    .error .unixMillisecondHorizonOverflow
  else .ok ()

def Valid (L : TimestampLayout) : Prop := L.validate = .ok ()

instance (L : TimestampLayout) : Decidable L.Valid :=
  match h : L.validate with
  | .ok () => isTrue h
  | .error e => isFalse (by rw [Valid, h]; exact nofun)

def encode (L : TimestampLayout) (physicalMs generatorId sequence : Nat) :
    Except TsoError Nat :=
  match L.validate with
  | .error e => .error (.internal e.message)
  | .ok () =>
    if physicalMs > L.maxPhysicalMs then .error .tsoOverflow
    else if generatorId ≥ L.maxGenerators then .error (.generatorIdOutOfRange generatorId)
    else if sequence ≥ L.sequenceCapacity then .error .tsoOverflow
    else .ok ((physicalMs <<< L.logicalBits) ||| (generatorId <<< L.sequenceBits) ||| sequence)

def decode (L : TimestampLayout) (tso : Nat) : DecodedTso where
  physicalMs := tso >>> L.logicalBits
  logical := tso &&& ((1 <<< L.logicalBits) - 1)
  generatorId := (tso >>> L.sequenceBits) &&& (L.maxGenerators - 1)
  sequence := tso &&& (L.sequenceCapacity - 1)

def tsoAt (L : TimestampLayout) (generatorId index : Nat) : Nat :=
  (index / L.sequenceCapacity * L.maxGenerators + generatorId) * L.sequenceCapacity
    + index % L.sequenceCapacity

variable {L : TimestampLayout}

lemma Valid.widths (h : L.Valid) :
    0 < L.physicalBits ∧ 0 < L.sequenceBits ∧ L.generatorBits ≤ 13 ∧ L.sequenceBits ≤ 31 ∧
      L.physicalBits + L.generatorBits + L.sequenceBits = 64 := by
  unfold Valid validate at h
  split_ifs at h
  omega

lemma sequenceCapacity_eq : L.sequenceCapacity = 2 ^ L.sequenceBits := by
  simp [sequenceCapacity, Nat.shiftLeft_eq]

lemma maxGenerators_eq : L.maxGenerators = 2 ^ L.generatorBits := by
  simp [maxGenerators, Nat.shiftLeft_eq]

lemma sequenceCapacity_pos : 0 < L.sequenceCapacity := by simp [sequenceCapacity_eq]

lemma maxGenerators_pos : 0 < L.maxGenerators := by simp [maxGenerators_eq]

lemma two_pow_logicalBits : 2 ^ L.logicalBits = L.maxGenerators * L.sequenceCapacity := by
  simp [logicalBits, pow_add, maxGenerators_eq, sequenceCapacity_eq]

lemma pack_eq {p g s : Nat} (hg : g < L.maxGenerators) (hs : s < L.sequenceCapacity) :
    (p <<< L.logicalBits) ||| (g <<< L.sequenceBits) ||| s =
      (p * L.maxGenerators + g) * L.sequenceCapacity + s := by
  rw [maxGenerators_eq] at hg
  rw [sequenceCapacity_eq] at hs
  have hlow : g <<< L.sequenceBits < 2 ^ L.logicalBits := by
    rw [Nat.shiftLeft_eq, logicalBits, pow_add]
    exact Nat.mul_lt_mul_of_pos_right hg (Nat.two_pow_pos _)
  have hhigh : (p <<< L.logicalBits) ||| (g <<< L.sequenceBits) =
      (p * 2 ^ L.generatorBits + g) <<< L.sequenceBits := by
    rw [← Nat.shiftLeft_add_eq_or_of_lt hlow]
    simp only [Nat.shiftLeft_eq, logicalBits, pow_add]
    ring
  rw [hhigh, ← Nat.shiftLeft_add_eq_or_of_lt hs, Nat.shiftLeft_eq, maxGenerators_eq,
    sequenceCapacity_eq]

lemma encode_eq_ok {p g s t : Nat} :
    L.encode p g s = .ok t ↔ L.Valid ∧ p ≤ L.maxPhysicalMs ∧ g < L.maxGenerators ∧
      s < L.sequenceCapacity ∧ (p * L.maxGenerators + g) * L.sequenceCapacity + s = t := by
  unfold encode Valid
  rcases hv : L.validate with e | ⟨⟩
  · simp
  simp only [true_and]
  split_ifs with hp hg hs
  · simp; omega
  · simp; omega
  · simp; omega
  rw [pack_eq (by omega) (by omega)]
  simp only [Except.ok.injEq]
  omega

lemma Valid.maxPhysicalMs_lt (h : L.Valid) : L.maxPhysicalMs < U64.size := by
  have hbits : L.physicalBits ≤ 64 := by
    have := h.widths
    omega
  have hpow : 2 ^ L.physicalBits ≤ 2 ^ 64 := Nat.pow_le_pow_right (by decide) hbits
  rw [maxPhysicalMs, Nat.shiftLeft_eq, Nat.one_mul, U64.size]
  omega

lemma tsoAt_mul_add {g m s : Nat} (hs : s < L.sequenceCapacity) :
    L.tsoAt g (m * L.sequenceCapacity + s) =
      (m * L.maxGenerators + g) * L.sequenceCapacity + s := by
  rw [tsoAt, Nat.add_comm (m * _), Nat.add_mul_div_right _ _ sequenceCapacity_pos,
    Nat.div_eq_of_lt hs, Nat.add_mul_mod_self_right, Nat.mod_eq_of_lt hs, Nat.zero_add]

lemma encode_index_eq_ok {g i t : Nat} :
    L.encode (i / L.sequenceCapacity) g (i % L.sequenceCapacity) = .ok t ↔
      L.Valid ∧ i / L.sequenceCapacity ≤ L.maxPhysicalMs ∧ g < L.maxGenerators ∧
        L.tsoAt g i = t := by
  rw [encode_eq_ok, tsoAt]
  have := Nat.mod_lt i (sequenceCapacity_pos (L := L))
  tauto

end TimestampLayout

end Chronos
