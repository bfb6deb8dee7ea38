import Mathlib.Algebra.Group.Nat.Defs
import Mathlib.Data.List.Basic

/-! Base-128 varints: seven bits a byte, lowest first, the high bit set on every byte but the last.
A 64-bit number takes at most ten bytes. -/

namespace Wire

open List Option

def encodeVarintIn : Nat → Nat → List UInt8
  | 0, _ => []
  | bytes + 1, n =>
    if n < 128 then [UInt8.ofNat n]
    else UInt8.ofNat (n % 128 + 128) :: encodeVarintIn bytes (n / 128)

def encodeVarint (n : Nat) : List UInt8 := encodeVarintIn 10 n

def decodeVarintIn : Nat → List UInt8 → Option (Nat × List UInt8)
  | 0, _ => none
  | _ + 1, [] => none
  | bytes + 1, byte :: rest =>
    if byte.toNat < 128 then some (byte.toNat, rest)
    else (decodeVarintIn bytes rest).map fun read => (byte.toNat - 128 + 128 * read.1, read.2)

def decodeVarint (input : List UInt8) : Option (Nat × List UInt8) :=
  (decodeVarintIn 10 input).filter fun read => read.1 < 2 ^ 64

variable {bytes n : Nat} {rest : List UInt8}

lemma toNat_ofNat_of_lt (h : n < 256) : (UInt8.ofNat n).toNat = n := by
  rw [UInt8.toNat_ofNat', Nat.mod_eq_of_lt h]

lemma encodeVarintIn_ne_nil : encodeVarintIn (bytes + 1) n ≠ [] := by
  unfold encodeVarintIn
  split <;> exact cons_ne_nil _ _

lemma encodeVarint_ne_nil : encodeVarint n ≠ [] := encodeVarintIn_ne_nil

lemma div_lt_pow_of_lt (h : n < 128 ^ (bytes + 1)) : n / 128 < 128 ^ bytes :=
  Nat.div_lt_of_lt_mul (by rwa [Nat.mul_comm, ← Nat.pow_succ])

lemma decodeVarintIn_encodeVarintIn (hn : n < 128 ^ (bytes + 1)) :
    decodeVarintIn (bytes + 1) (encodeVarintIn (bytes + 1) n ++ rest) = some (n, rest) := by
  induction bytes generalizing n with
  | zero =>
    have hsmall : n < 128 := by simpa using hn
    rw [encodeVarintIn, if_pos hsmall, singleton_append, decodeVarintIn,
      toNat_ofNat_of_lt (by omega), if_pos hsmall]
  | succ bytes ih =>
    rw [encodeVarintIn]
    split_ifs with hsmall
    · rw [singleton_append, decodeVarintIn, toNat_ofNat_of_lt (by omega), if_pos hsmall]
    have hbyte : (UInt8.ofNat (n % 128 + 128)).toNat = n % 128 + 128 := toNat_ofNat_of_lt (by omega)
    have hval : n % 128 + 128 - 128 + 128 * (n / 128) = n := by omega
    rw [cons_append, decodeVarintIn, hbyte, if_neg (by omega), ih (div_lt_pow_of_lt hn),
      map_some, hval]

lemma decodeVarint_encodeVarint (hn : n < 2 ^ 64) :
    decodeVarint (encodeVarint n ++ rest) = some (n, rest) := by
  have hread : decodeVarintIn 10 (encodeVarint n ++ rest) = some (n, rest) :=
    decodeVarintIn_encodeVarintIn (by omega)
  rw [decodeVarint, hread, filter_some, if_pos (decide_eq_true hn)]

end Wire
