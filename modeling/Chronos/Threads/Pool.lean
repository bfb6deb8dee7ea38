import Mathlib.Data.List.Basic

/-! A pool of threads over a shared state: what holds of each thread when one of them moves, and how
many threads are at a place. -/

namespace Threads

variable {Shared Thread : Type} {Fits : Shared → Nat → Thread → Prop} {s s' : Shared}
  {threads : List Thread} {i : Nat} {t : Thread}

def AllFit (Fits : Shared → Nat → Thread → Prop) (s : Shared) (threads : List Thread) : Prop :=
  ∀ j u, threads[j]? = some u → Fits s j u

lemma AllFit.set {t' : Thread} (h : AllFit Fits s threads) (hself : Fits s' i t')
    (hothers : ∀ j u, j ≠ i → threads[j]? = some u → Fits s j u → Fits s' j u) :
    AllFit Fits s' (threads.set i t') := by
  intro j u hu
  by_cases hj : j = i
  · subst hj
    rw [List.getElem?_set_self'] at hu
    obtain ⟨_, -, heq⟩ := Option.map_eq_some_iff.mp hu
    exact heq ▸ hself
  · rw [List.getElem?_set_ne (Ne.symm hj)] at hu
    exact hothers j u hj hu (h j u hu)

lemma AllFit.append (h : AllFit Fits s threads) (hnew : ∀ j, Fits s j t) :
    AllFit Fits s (threads ++ [t]) := by
  intro j u hu
  rcases Nat.lt_or_ge j threads.length with hlt | hge
  · rw [List.getElem?_append_left hlt] at hu
    exact h j u hu
  rw [List.getElem?_append_right hge] at hu
  have heq := List.mem_singleton.mp (List.mem_of_getElem? hu)
  exact heq ▸ hnew j

lemma countP_set_add (h : threads[i]? = some t) (t' : Thread) (p : Thread → Bool) :
    (threads.set i t').countP p + (if p t then 1 else 0) = threads.countP p + if p t' then 1
      else 0 := by
  obtain ⟨hi, rfl⟩ := List.getElem?_eq_some_iff.mp h
  have hpos : p threads[i] = true → 0 < threads.countP p := fun hp =>
    List.countP_pos_iff.mpr ⟨_, List.getElem_mem hi, hp⟩
  rw [List.countP_set hi]
  by_cases hold : p threads[i] = true
  · have := hpos hold
    rw [if_pos hold]
    omega
  · rw [if_neg hold]
    omega

end Threads
