import Mathlib.Logic.Function.Basic
import Mathlib.Tactic.SplitIfs

/-! Exclusive resources tracked by claims. A claim is held in memory and may be lost; the seat of a
holder, the resource it has been given for good, is kept elsewhere. -/

namespace Claims

open Option Function

structure Ledger (R H : Type) where
  claim : R → Option H
  seat : H → Option R

namespace Ledger

variable {R H : Type}

def Exclusive (l : Ledger R H) : Prop :=
  ∀ h h' r, l.seat h = some r → l.seat h' = some r → h = h'

def Guarded (l : Ledger R H) : Prop :=
  ∀ r h h', l.claim r = some h → l.seat h' = some r → h' = h

def Covered (l : Ledger R H) : Prop := ∀ h r, l.seat h = some r → l.claim r = some h

def BackedBut (l : Ledger R H) (h : H) : Prop :=
  ∀ r h', h' ≠ h → l.claim r = some h' → l.seat h' = some r

def Backed (l : Ledger R H) : Prop := ∀ r h, l.claim r = some h → l.seat h = some r

def clear (l : Ledger R H) : Ledger R H := { l with claim := fun _ => none }

section

variable [DecidableEq R] [DecidableEq H] (l : Ledger R H) (r : R) (h : H)

def take : Ledger R H := { l with claim := Function.update l.claim r (some h) }

def release : Ledger R H :=
  if l.claim r = some h then { l with claim := Function.update l.claim r none } else l

def assign (x : Option R) : Ledger R H := { l with seat := Function.update l.seat h x }

end

variable {l : Ledger R H} {r r' : R} {h h' : H} {x : Option R}

lemma backed_iff : l.Backed ↔ l.BackedBut h ∧ ∀ r, l.claim r = some h → l.seat h = some r := by
  constructor
  · exact fun hl => ⟨fun r h' _ => hl r h', fun r => hl r h⟩
  rintro ⟨hothers, hown⟩ r h' hclaim
  by_cases heq : h' = h
  · subst heq
    exact hown r hclaim
  · exact hothers r h' heq hclaim

lemma Covered.free (hl : l.Covered) (hr : l.claim r = none) : l.seat h ≠ some r := by
  intro hseat
  rw [hl h r hseat] at hr
  cases hr

lemma guarded_clear : l.clear.Guarded := nofun

lemma backed_clear : l.clear.Backed := nofun

section

variable [DecidableEq R]

@[simp] lemma take_claim : (l.take r h).claim r' = if r' = r then some h else l.claim r' := by
  simp [take, update_apply]

lemma Guarded.take (hl : l.Guarded) (hfree : ∀ h', l.seat h' = some r → h' = h) :
    (l.take r h).Guarded := by
  intro r' h1 h2 hclaim hseat
  rw [take_claim] at hclaim
  split_ifs at hclaim with heq
  · subst heq
    exact some.inj hclaim ▸ hfree h2 hseat
  · exact hl r' h1 h2 hclaim hseat

lemma BackedBut.take (hl : l.BackedBut h) : (l.take r h).BackedBut h := by
  intro r' h' hne hclaim
  rw [take_claim] at hclaim
  split_ifs at hclaim
  · exact absurd (some.inj hclaim).symm hne
  · exact hl r' h' hne hclaim

end

section

variable [DecidableEq R] [DecidableEq H]

@[simp] lemma release_seat : (l.release r h).seat = l.seat := by
  unfold release
  split_ifs <;> rfl

lemma claim_of_release (hclaim : (l.release r h).claim r' = some h') :
    l.claim r' = some h' ∧ ¬ (r' = r ∧ h' = h) := by
  unfold release at hclaim
  split_ifs at hclaim with hheld
  · simp only [update_apply] at hclaim
    split_ifs at hclaim with hr
    exact ⟨hclaim, fun heq => hr heq.1⟩
  refine ⟨hclaim, ?_⟩
  rintro ⟨rfl, rfl⟩
  exact hheld hclaim

lemma Guarded.release (hl : l.Guarded) : (l.release r h).Guarded := by
  intro r' h1 h2 hclaim hseat
  rw [release_seat] at hseat
  exact hl r' h1 h2 (claim_of_release hclaim).1 hseat

lemma Backed.release (hl : l.Backed) : (l.release r h).Backed := by
  intro r' h' hclaim
  rw [release_seat]
  exact hl r' h' (claim_of_release hclaim).1

lemma BackedBut.release (hl : l.BackedBut h) : (l.release r h).BackedBut h := by
  intro r' h' hne hclaim
  rw [release_seat]
  exact hl r' h' hne (claim_of_release hclaim).1

end

section

variable [DecidableEq H]

@[simp] lemma assign_claim : (l.assign h x).claim = l.claim := rfl

@[simp] lemma assign_seat : (l.assign h x).seat h' = if h' = h then x else l.seat h' := by
  simp [assign, update_apply]

lemma Guarded.assign (hl : l.Guarded) (hx : ∀ r, x = some r → l.claim r = some h) :
    (l.assign h x).Guarded := by
  intro r' h1 h2 hclaim hseat
  rw [assign_seat] at hseat
  split_ifs at hseat with heq
  · exact heq.trans (some.inj ((hx r' hseat).symm.trans hclaim))
  · exact hl r' h1 h2 hclaim hseat

lemma Exclusive.assign (hl : l.Exclusive) (hguarded : l.Guarded)
    (hx : ∀ r, x = some r → l.claim r = some h) : (l.assign h x).Exclusive := by
  intro h1 h2 r' hseat1 hseat2
  rw [assign_seat] at hseat1 hseat2
  split_ifs at hseat1 hseat2 with heq1 heq2 heq2
  · exact heq1.trans heq2.symm
  · exact heq1.trans (hguarded r' h h2 (hx r' hseat1) hseat2).symm
  · exact (hguarded r' h h1 (hx r' hseat2) hseat1).trans heq2.symm
  · exact hl h1 h2 r' hseat1 hseat2

lemma BackedBut.assign (hl : l.BackedBut h) : (l.assign h x).BackedBut h := by
  intro r' h' hne hclaim
  rw [assign_seat, if_neg hne]
  exact hl r' h' hne hclaim

end

end Ledger

end Claims
