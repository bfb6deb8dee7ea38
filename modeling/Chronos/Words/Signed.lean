import Mathlib.Algebra.Group.Nat.Defs
import Mathlib.Order.Basic

/-! Signed 64-bit arithmetic on natural numbers below `2 ^ 63`: there the bit operations and the
arithmetic shift are those of the natural numbers. -/

namespace Int64

variable {a b : Nat}

lemma ofNat_xor : Int64.ofNat (a ^^^ b) = Int64.ofNat a ^^^ Int64.ofNat b := by
  have hbits : BitVec.ofNat 64 (a ^^^ b) = BitVec.ofNat 64 a ^^^ BitVec.ofNat 64 b :=
    BitVec.ofNat_xor
  simpa only [Int64.ofBitVec_xor, Int64.ofBitVec_ofNat] using congrArg Int64.ofBitVec hbits

lemma ofNat_and : Int64.ofNat (a &&& b) = Int64.ofNat a &&& Int64.ofNat b := by
  have hbits : BitVec.ofNat 64 (a &&& b) = BitVec.ofNat 64 a &&& BitVec.ofNat 64 b :=
    BitVec.ofNat_and
  simpa only [Int64.ofBitVec_and, Int64.ofBitVec_ofNat] using congrArg Int64.ofBitVec hbits

lemma ofNat_shiftRight (ha : a < 2 ^ 63) (hb : b < 64) :
    Int64.ofNat (a >>> b) = Int64.ofNat a >>> Int64.ofNat b := by
  have hmsb : (BitVec.ofNat 64 a).msb = false := by
    rw [BitVec.msb_eq_false_iff_two_mul_lt, BitVec.toNat_ofNat]
    omega
  have hshifts : ∀ b : Fin 64, ((BitVec.ofNat 64 b).smod 64).toNat = b := by decide
  have hshift := hshifts ⟨b, hb⟩
  have hbits : (Int64.ofNat a >>> Int64.ofNat b).toBitVec = BitVec.ofNat 64 (a >>> b) := by
    show (BitVec.ofNat 64 a).sshiftRight' ((BitVec.ofNat 64 b).smod 64) = _
    rw [BitVec.sshiftRight', hshift, BitVec.sshiftRight_eq_of_msb_false hmsb]
    apply BitVec.eq_of_toNat_eq
    have hle : a >>> b ≤ a := Nat.shiftRight_le a b
    rw [BitVec.toNat_ushiftRight, BitVec.toNat_ofNat, BitVec.toNat_ofNat,
      Nat.mod_eq_of_lt (by omega), Nat.mod_eq_of_lt (by omega)]
  exact (Int64.toBitVec_inj.mp hbits).symm

end Int64
