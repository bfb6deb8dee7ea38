import Mathlib.Algebra.Group.Nat.Defs
import Mathlib.Order.Basic

/-! Arithmetic of unsigned 64-bit integers on natural numbers below `2 ^ 64`. -/

namespace U64

def size : Nat := 2 ^ 64

def max : Nat := size - 1

def saturatingAdd (a b : Nat) : Nat := min (a + b) max

def saturatingMul (a b : Nat) : Nat := min (a * b) max

def checkedAdd (a b : Nat) : Option Nat := if a + b < size then some (a + b) else none

def checkedSub (a b : Nat) : Option Nat := if b ≤ a then some (a - b) else none

def checkedMul (a b : Nat) : Option Nat := if a * b < size then some (a * b) else none

/-- The plain `+` of a release build. -/
def wrappingAdd (a b : Nat) : Nat := (a + b) % size

variable {a b c : Nat}

lemma checkedAdd_eq_some : checkedAdd a b = some c ↔ a + b = c ∧ c < size := by
  unfold checkedAdd
  split_ifs <;> simp <;> omega

lemma checkedSub_eq_some : checkedSub a b = some c ↔ b ≤ a ∧ a - b = c := by
  unfold checkedSub
  split_ifs <;> simp <;> omega

lemma checkedMul_eq_some : checkedMul a b = some c ↔ a * b = c ∧ c < size := by
  unfold checkedMul
  split_ifs with h <;> simp <;> omega

lemma saturatingAdd_le : saturatingAdd a b ≤ a + b := Nat.min_le_left _ _

lemma wrappingAdd_of_lt (h : a + b < size) : wrappingAdd a b = a + b := Nat.mod_eq_of_lt h

end U64
