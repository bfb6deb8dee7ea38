import Mathlib.Data.Nat.Basic
import Mathlib.Order.Basic

/-! Leases on one register, judged by processes whose clocks differ by at most a gap. -/

namespace Reservation

structure Tenancy (P O : Type) where
  owner : P → O
  clock : P → Nat
  history : List (O × Nat)

namespace Tenancy

variable {P O : Type} {T T' : Tenancy P O} {gap : Nat}

structure Sound (gap : Nat) (T : Tenancy P O) : Prop where
  skew : ∀ p q, T.clock p ≤ T.clock q + gap
  settled : ∀ y ∈ T.history.head?, ∀ x ∈ T.history,
    x.1 = y.1 ∧ x.2 ≤ y.2 ∨ ∀ p, T.owner p = x.1 → x.2 ≤ T.clock p

inductive Step (gap : Nat) (T T' : Tenancy P O) : Prop
  | advance (owner : T'.owner = T.owner) (clock : ∀ p, T.clock p ≤ T'.clock p)
      (skew : ∀ p q, T'.clock p ≤ T'.clock q + gap) (history : T'.history = T.history)
  | first (x : O × Nat) (empty : T.history = []) (clock : T'.clock = T.clock)
      (history : T'.history = [x])
  | renew (x y : O × Nat) (head : T.history.head? = some y) (same : x.1 = y.1) (le : y.2 ≤ x.2)
      (owner : T'.owner = T.owner) (clock : T'.clock = T.clock)
      (history : T'.history = x :: T.history)
  | takeover (p : P) (x y : O × Nat) (head : T.history.head? = some y)
      (expired : y.2 + gap ≤ T.clock p) (owner : T'.owner = T.owner) (clock : T'.clock = T.clock)
      (history : T'.history = x :: T.history)

lemma Step.sound (hstep : T.Step gap T') (h : T.Sound gap) : T'.Sound gap := by
  cases hstep with
  | advance hown hclock hskew hhistory =>
    refine ⟨hskew, fun y hy x hx => ?_⟩
    rw [hhistory] at hy hx
    rw [hown]
    rcases h.settled y hy x hx with hcurrent | hexpired
    · exact .inl hcurrent
    · exact .inr fun p hp => (hexpired p hp).trans (hclock p)
  | first x hempty hclock hhistory =>
    refine ⟨hclock ▸ h.skew, fun y hy z hz => ?_⟩
    rw [hhistory] at hy hz
    cases hy
    obtain rfl := List.mem_singleton.mp hz
    exact .inl ⟨rfl, le_rfl⟩
  | renew x y hhead hsame hle hown hclock hhistory =>
    refine ⟨hclock ▸ h.skew, fun y' hy' z hz => ?_⟩
    rw [hhistory] at hy' hz
    cases hy'
    rw [hown, hclock]
    rcases List.mem_cons.mp hz with rfl | hz
    · exact .inl ⟨rfl, le_rfl⟩
    rcases h.settled y hhead z hz with ⟨howns, hbefore⟩ | hexpired
    · exact .inl ⟨howns.trans hsame.symm, hbefore.trans hle⟩
    · exact .inr hexpired
  | takeover p x y hhead hexpired hown hclock hhistory =>
    refine ⟨hclock ▸ h.skew, fun y' hy' z hz => ?_⟩
    rw [hhistory] at hy' hz
    cases hy'
    rw [hown, hclock]
    rcases List.mem_cons.mp hz with rfl | hz
    · exact .inl ⟨rfl, le_rfl⟩
    rcases h.settled y hhead z hz with ⟨-, hbefore⟩ | hold
    · -- the clock of the new owner is at most the gap ahead of any other
      refine .inr fun q _ => ?_
      have := h.skew p q
      omega
    · exact .inr hold

lemma Sound.exclusive (h : T.Sound gap) {p q : P} {x y : O × Nat} (hx : x ∈ T.history)
    (hy : y ∈ T.history) (hp : T.owner p = x.1) (hq : T.owner q = y.1)
    (hlive : T.clock p < x.2) (hlive' : T.clock q < y.2) : T.owner p = T.owner q := by
  obtain ⟨head, tail, hhistory⟩ := List.exists_cons_of_ne_nil (List.ne_nil_of_mem hx)
  have hhead : head ∈ T.history.head? := by rw [hhistory]; rfl
  have hcurrent : x.1 = head.1 := by
    rcases h.settled head hhead x hx with hx | hexpired
    · exact hx.1
    · exact absurd (hexpired p hp) hlive.not_ge
  have hcurrent' : y.1 = head.1 := by
    rcases h.settled head hhead y hy with hy | hexpired
    · exact hy.1
    · exact absurd (hexpired q hq) hlive'.not_ge
  rw [hp, hq, hcurrent, hcurrent']

end Tenancy

end Reservation
