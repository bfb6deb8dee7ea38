import Mathlib.Logic.Relation
import Mathlib.Order.Basic

/-! Loops that run round after round until one of them leaves the loop. -/

namespace Iteration

variable {σ ρ : Type} {body : σ → Option (σ ⊕ ρ)} {s s' : σ} {n : Nat}

/-- At most `n` rounds of the loop. A round goes on or leaves with a result; `none` stands for a
loop that is still running, inside the round or after the last one. -/
def rounds (body : σ → Option (σ ⊕ ρ)) : Nat → σ → Option ρ
  | 0, _ => none
  | n + 1, s =>
    match body s with
    | none => none
    | some (.inl s') => rounds body n s'
    | some (.inr r) => some r

/-- A round of the loop begins in `s'` if the loop has begun in `s`. -/
def Visits (body : σ → Option (σ ⊕ ρ)) : σ → σ → Prop :=
  Relation.ReflTransGen fun s s' => body s = some (.inl s')

lemma Visits.invariant (h : Visits body s s') (Inv : σ → Prop) (hs : Inv s)
    (hbody : ∀ s s', Inv s → body s = some (.inl s') → Inv s') : Inv s' := by
  induction h with
  | refl => exact hs
  | tail _ hround ih => exact hbody _ _ ih hround

lemma rounds_of_inl (h : body s = some (.inl s')) : rounds body (n + 1) s = rounds body n s' := by
  rw [rounds, h]

lemma rounds_of_inr {r : ρ} (h : body s = some (.inr r)) : rounds body (n + 1) s = some r := by
  rw [rounds, h]

/-- A loop that keeps an invariant and brings down a variant in each round that goes on ends, with
what a round that leaves guarantees. -/
lemma exists_rounds (Inv : σ → Prop) (variant : σ → Nat) (Post : ρ → Prop)
    (hbody : ∀ s, Inv s → (∃ s', body s = some (.inl s') ∧ Inv s' ∧ variant s' < variant s) ∨
      ∃ r, body s = some (.inr r) ∧ Post r)
    (hs : Inv s) (hn : variant s < n) : ∃ r, rounds body n s = some r ∧ Post r := by
  induction n generalizing s with
  | zero => exact absurd hn (Nat.not_lt_zero _)
  | succ n ih =>
    rcases hbody s hs with ⟨s', hround, hs', hlt⟩ | ⟨r, hround, hr⟩
    · rw [rounds_of_inl hround]
      exact ih hs' (Nat.lt_of_lt_of_le hlt (Nat.le_of_lt_succ hn))
    · exact ⟨r, rounds_of_inr hround, hr⟩

end Iteration
