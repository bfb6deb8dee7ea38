import Mathlib.Order.Basic
import Mathlib.Order.Lattice

/-! The first of the candidates `0, 1, …` with the highest score, found by one scan. -/

namespace Selection

variable {β : Type} [LinearOrder β] (score : Nat → β)

def leader : Nat → Nat
  | 0 => 0
  | n + 1 => if score (leader n) < score n then n else leader n

variable {score}

lemma leader_lt {n : Nat} (hn : 0 < n) : leader score n < n := by
  induction n with
  | zero => exact absurd hn (Nat.lt_irrefl 0)
  | succ n ih =>
    unfold leader
    split
    · exact Nat.lt_succ_self n
    · next hstays =>
      rcases Nat.eq_zero_or_pos n with hzero | hpos
      · subst hzero
        exact Nat.one_pos
      · exact Nat.lt_succ_of_lt (ih hpos)

lemma leader_eq_or_le (score : Nat → β) {n m : Nat} (h : n ≤ m) :
    leader score m = leader score n ∨ n ≤ leader score m := by
  induction m, h using Nat.le_induction with
  | base => exact .inl rfl
  | succ m hm ih =>
    rw [leader]
    split
    · exact .inr hm
    · exact ih

end Selection
