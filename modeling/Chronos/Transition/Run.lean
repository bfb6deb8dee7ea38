import Mathlib.Order.Basic

/-! Runs of a labelled transition system whose steps are computed, and a condition on steps that is
judged in the state before the step. -/

namespace Transition

variable {State Label : Type} {step : State → Label → Option State} {G : State → Label → Prop}
  {s₀ s : State}

inductive Reach (step : State → Label → Option State) (G : State → Label → Prop) (s₀ : State) :
    State → Prop where
  | refl : Reach step G s₀ s₀
  | tail {s s' l} : Reach step G s₀ s → G s l → step s l = some s' → Reach step G s₀ s'

variable {I : State → Prop} {s' : State} {labels : List Label}

lemma Reach.invariant (h : Reach step G s₀ s) (h0 : I s₀)
    (hstep : ∀ s l s', I s → G s l → step s l = some s' → I s') : I s := by
  induction h with
  | refl => exact h0
  | tail _ hG hs ih => exact hstep _ _ _ ih hG hs

lemma Reach.imp {G' : State → Label → Prop} (h : Reach step G s₀ s) (h0 : I s₀)
    (hstep : ∀ s l s', I s → G s l → step s l = some s' → I s')
    (himp : ∀ s l, I s → G s l → G' s l) : Reach step G' s₀ s := by
  induction h with
  | refl => exact .refl
  | @tail s s' l hs hG hnext ih => exact ih.tail (himp s l (hs.invariant h0 hstep) hG) hnext

lemma Reach.trans (h : Reach step G s₀ s) (h' : Reach step G s s') : Reach step G s₀ s' := by
  induction h' with
  | refl => exact h
  | tail _ hG hs ih => exact ih.tail hG hs

lemma Reach.head {l : Label} (hG : G s₀ l) (hs : step s₀ l = some s)
    (h : Reach step G s s') : Reach step G s₀ s' := (Reach.refl.tail hG hs).trans h

def run (step : State → Label → Option State) (G : State → Label → Prop)
    [∀ s l, Decidable (G s l)] : List Label → State → Option State
  | [], s => some s
  | l :: rest, s => if G s l then (step s l).bind (run step G rest) else none

lemma Reach.of_run [∀ s l, Decidable (G s l)]
    (hs : Reach step G s₀ s) (h : run step G labels s = some s') : Reach step G s₀ s' := by
  induction labels generalizing s with
  | nil => exact Option.some.inj h ▸ hs
  | cons l rest ih =>
    unfold run at h
    split_ifs at h with hG
    obtain ⟨middle, hmiddle, hrun⟩ := Option.bind_eq_some_iff.mp h
    exact ih (hs.tail hG hmiddle) hrun

lemma Reach.exists_of_run [∀ s l, Decidable (G s l)] {P : State → Bool}
    (h : (run step G labels s₀).any P = true) : ∃ s, Reach step G s₀ s ∧ P s = true := by
  obtain ⟨s, hs, hP⟩ := (Option.any_eq_true ..).mp h
  exact ⟨s, Reach.refl.of_run hs, hP⟩

end Transition
