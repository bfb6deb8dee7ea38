import Chronos.Floor
import Mathlib.Data.Set.Insert

/-! Values issued by a succession of tenures. Each tenure has an epoch and starts above a floor;
what a tenure issues stays above its own floor and below the floors of all later ones, so values
grow with the epochs they are issued in. -/

namespace Reservation

structure Succession where
  tenures : Set (Nat × Option Nat)
  issued : Set (Nat × Nat)

namespace Succession

variable {S S' : Succession} {epoch epoch' val val' : Nat}

structure Sound (S : Succession) : Prop where
  handed : ∀ x ∈ S.issued, ∀ t ∈ S.tenures, x.1 < t.1 → Floor.Le (some x.2) t.2
  above : ∀ x ∈ S.issued, ∃ t ∈ S.tenures, t.1 = x.1 ∧ ∀ floor, t.2 = some floor → floor < x.2

/-- The ways a succession goes on: an epoch is recorded again with a floor no lower, the latest
epoch hands over to a new one whose floor covers all it has issued, or a tenure issues values that
later floors already cover. -/
inductive Step (S S' : Succession) : Prop
  | idle (tenures : S'.tenures = S.tenures) (issued : S'.issued = S.issued)
  | begin (empty : S.issued = ∅) (issued : S'.issued = S.issued)
  | keep (t : Nat × Option Nat) (floor : Option Nat) (mem : t ∈ S.tenures)
      (le : Floor.Le t.2 floor) (tenures : S'.tenures = insert (t.1, floor) S.tenures)
      (issued : S'.issued = S.issued)
  | hand (t : Nat × Option Nat) (epoch : Nat) (floor : Option Nat) (mem : t ∈ S.tenures)
      (latest : ∀ x ∈ S.issued, x.1 ≤ t.1) (le : Floor.Le t.2 floor)
      (covers : ∀ x ∈ S.issued, x.1 = t.1 → Floor.Le (some x.2) floor)
      (tenures : S'.tenures = insert (epoch, floor) S.tenures) (issued : S'.issued = S.issued)
  | issue (t : Nat × Option Nat) (values : Set Nat) (mem : t ∈ S.tenures)
      (above : ∀ v ∈ values, ∀ floor, t.2 = some floor → floor < v)
      (covered : ∀ v ∈ values, ∀ t' ∈ S.tenures, t.1 < t'.1 → Floor.Le (some v) t'.2)
      (tenures : S'.tenures = S.tenures)
      (issued : S'.issued = S.issued ∪ (fun v => (t.1, v)) '' values)

lemma Sound.record (h : S.Sound) {t : Nat × Option Nat} (hissued : S'.issued = S.issued)
    (htenures : S'.tenures = insert t S.tenures)
    (hcovers : ∀ x ∈ S.issued, x.1 < t.1 → Floor.Le (some x.2) t.2) : S'.Sound := by
  constructor
  · intro x hx t' ht' hlt
    rw [hissued] at hx
    rw [htenures] at ht'
    rcases ht' with rfl | ht'
    · exact hcovers x hx hlt
    · exact h.handed x hx t' ht' hlt
  · intro x hx
    rw [hissued] at hx
    obtain ⟨t', ht', hepoch, habove⟩ := h.above x hx
    exact ⟨t', htenures ▸ Set.mem_insert_of_mem t ht', hepoch, habove⟩

lemma Step.sound (hstep : S.Step S') (h : S.Sound) : S'.Sound := by
  cases hstep with
  | idle htenures hissued => exact ⟨htenures ▸ hissued ▸ h.handed, htenures ▸ hissued ▸ h.above⟩
  | begin hempty hissued => constructor <;> simp [hissued, hempty]
  | keep t floor hmem hle htenures hissued =>
    exact h.record hissued htenures fun x hx hlt => (h.handed x hx t hmem hlt).trans hle
  | hand t epoch floor hmem hlatest hle hcovers htenures hissued =>
    refine h.record hissued htenures fun x hx _ => ?_
    rcases (hlatest x hx).lt_or_eq with hlt | heq
    · exact (h.handed x hx t hmem hlt).trans hle
    · exact hcovers x hx heq
  | issue t values hmem habove hcovered htenures hissued =>
    constructor
    · intro x hx t' ht' hlt
      rw [hissued] at hx
      rw [htenures] at ht'
      rcases hx with hx | ⟨v, hv, rfl⟩
      · exact h.handed x hx t' ht' hlt
      · exact hcovered v hv t' ht' hlt
    · intro x hx
      rw [hissued] at hx
      rw [htenures]
      rcases hx with hx | ⟨v, hv, rfl⟩
      · exact h.above x hx
      · exact ⟨t, hmem, rfl, habove v hv⟩

lemma Sound.lt (h : S.Sound) (hval : (epoch, val) ∈ S.issued)
    (hval' : (epoch', val') ∈ S.issued) (hlt : epoch < epoch') : val < val' := by
  obtain ⟨t, ht, hepoch, habove⟩ := h.above _ hval'
  have hcovered := h.handed _ hval t ht (hepoch ▸ hlt)
  obtain ⟨floor, hfloor, hle⟩ := hcovered val rfl
  exact lt_of_le_of_lt hle (habove floor hfloor)

end Succession

end Reservation
