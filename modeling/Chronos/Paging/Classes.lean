import Mathlib.Data.List.Nodup
import Mathlib.Data.Nat.Basic
import Mathlib.Order.Lattice
import Mathlib.Order.MinMax
import Mathlib.Tactic.Push

/-! A list that is split into classes and put together again from the first `limit` elements of each
class. -/

namespace Paging

open List

lemma mem_take_append_left {α : Type} {x : α} {l l' : List α} {n : Nat} (hx : x ∈ l)
    (hn : l.length ≤ n) : x ∈ (l ++ l').take n := by
  rw [take_append, take_of_length_le hn]
  exact mem_append_left _ hx

variable {α β : Type} [DecidableEq β] {f : α → β} {limit : Nat} {r : List α} {x : α}

def Early (f : α → β) (limit : Nat) (r : List α) (x : α) : Prop :=
  x ∈ (r.filter fun y => f y = f x).take limit

lemma early_of_mem_take (hx : x ∈ r.take limit) : Early f limit r x := by
  have hfilter : r.filter (fun y => f y = f x) =
      (r.take limit).filter (fun y => f y = f x) ++ (r.drop limit).filter (fun y => f y = f x) := by
    rw [← filter_append, take_append_drop]
  rw [Early, hfilter]
  refine mem_take_append_left (mem_filter.mpr ⟨hx, decide_eq_true rfl⟩) ?_
  exact le_trans (length_filter_le _ _) (length_take_le _ _)

lemma early_of_other {rest : List α} {y : α} (hr : r.drop limit = x :: rest)
    (hy : y ∈ r.take limit) (hne : f y ≠ f x) : Early f limit r x := by
  have hfilter : r.filter (fun z => f z = f x) = (r.take limit).filter (fun z => f z = f x) ++
      x :: rest.filter (fun z => f z = f x) := by
    conv_lhs => rw [← take_append_drop limit r, filter_append, hr]
    rw [filter_cons_of_pos (by simp)]
  have hless : ((r.take limit).filter fun z => f z = f x).length < limit := by
    have hlt : ((r.take limit).filter fun z => f z = f x).length < (r.take limit).length :=
      length_filter_lt_length_iff_exists.mpr ⟨y, hy, by simpa using hne⟩
    exact lt_of_lt_of_le hlt (length_take_le _ _)
  rw [Early, hfilter, append_cons]
  refine mem_take_append_left (mem_append_right _ (mem_singleton_self x)) ?_
  rw [length_append, length_singleton]
  exact hless

lemma exists_early_of_none (hlimit : 0 < limit) {z : α} (hz : z ∈ r.drop limit)
    (hnone : ∀ y ∈ r.take limit, f y ≠ f z) :
    ∃ x ∈ r.drop limit, Early f limit r x := by
  obtain ⟨x, rest, hrest⟩ := exists_cons_of_ne_nil
    (ne_nil_of_mem (mem_filter.mpr ⟨hz, decide_eq_true rfl⟩ :
      z ∈ (r.drop limit).filter fun y => f y = f z))
  have hx : x ∈ (r.drop limit).filter fun y => f y = f z := by
    rw [hrest]
    exact mem_cons_self
  obtain ⟨hxr, hfx⟩ := mem_filter.mp hx
  rw [decide_eq_true_eq] at hfx
  have hempty : (r.take limit).filter (fun y => f y = f z) = [] :=
    filter_eq_nil_iff.mpr fun y hy => by simpa using hnone y hy
  have hfilter : r.filter (fun y => f y = f z) = x :: rest := by
    conv_lhs => rw [← take_append_drop limit r, filter_append, hempty, hrest]
    rfl
  refine ⟨x, hxr, ?_⟩
  rw [Early, hfx, hfilter]
  exact mem_take_append_left (mem_singleton_self x) hlimit

variable [DecidableEq α]

instance (f : α → β) (limit : Nat) (r : List α) (x : α) : Decidable (Early f limit r x) :=
  inferInstanceAs (Decidable (x ∈ _))

lemma filter_early_eq : r.filter (Early f limit r) =
    r.take limit ++ (r.drop limit).filter (Early f limit r) := by
  have htake : (r.take limit).filter (Early f limit r) = r.take limit :=
    filter_eq_self.mpr fun x hx => decide_eq_true (early_of_mem_take hx)
  conv_lhs => rw [← take_append_drop limit r, filter_append]
  rw [take_append_drop, htake]

lemma take_filter_early : (r.filter (Early f limit r)).take limit = r.take limit := by
  rw [filter_early_eq]
  by_cases hlong : limit ≤ r.length
  · rw [take_append_of_le_length (by rw [length_take]; omega), take_take, min_self]
  · rw [drop_eq_nil_of_le (by omega), filter_nil, append_nil, take_take,
      min_self]

lemma length_filter_early (hlimit : 0 < limit) (hnodup : r.Nodup) :
    limit < (r.filter (Early f limit r)).length ↔ limit < r.length ∧
    ∃ x ∈ r, ∃ y ∈ r, f x ≠ f y := by
  have hlong : limit < (r.filter (Early f limit r)).length → limit < r.length := fun h =>
    lt_of_lt_of_le h (List.length_filter_le _ _)
  have hiff : limit < r.length → (limit < (r.filter (Early f limit r)).length ↔
      ∃ x ∈ r.drop limit, Early f limit r x) := by
    intro hlen
    rw [filter_early_eq, List.length_append, List.length_take, min_eq_left (le_of_lt hlen),
      Nat.lt_add_right_iff_pos, List.length_pos_iff_exists_mem]
    simp [List.mem_filter]
  constructor
  · intro h
    refine ⟨hlong h, ?_⟩
    obtain ⟨x, hx, hearly⟩ := (hiff (hlong h)).mp h
    by_contra hsame
    push Not at hsame
    -- in a single class the early elements are the first ones
    have hall : r.filter (fun y => f y = f x) = r := by
      refine List.filter_eq_self.mpr fun y hy => decide_eq_true ?_
      exact hsame y hy x (List.mem_of_mem_drop hx)
    rw [Early, hall] at hearly
    exact (List.disjoint_take_drop hnodup le_rfl) hearly hx
  · rintro ⟨hlen, a, ha, b, hb, hne⟩
    refine (hiff hlen).mpr ?_
    obtain ⟨x, rest, hdrop⟩ := List.exists_cons_of_ne_nil
      (List.ne_nil_of_length_pos (by rw [List.length_drop]; omega) : r.drop limit ≠ [])
    have hx : x ∈ r.drop limit := by
      rw [hdrop]
      exact List.mem_cons_self
    by_cases hother : ∃ y ∈ r.take limit, f y ≠ f x
    · obtain ⟨y, hy, hyx⟩ := hother
      exact ⟨x, hx, early_of_other hdrop hy hyx⟩
    push Not at hother
    obtain ⟨z, hz, hzx⟩ : ∃ z ∈ r, f z ≠ f x := by
      by_cases hax : f a = f x
      · exact ⟨b, hb, fun hbx => hne (hax.trans hbx.symm)⟩
      · exact ⟨a, ha, hax⟩
    have hzdrop : z ∈ r.drop limit := by
      rw [← List.take_append_drop limit r] at hz
      rcases List.mem_append.mp hz with hz | hz
      · exact absurd (hother z hz) hzx
      · exact hz
    exact exists_early_of_none hlimit hzdrop fun y hy hyz => hzx (hyz ▸ hother y hy)

end Paging
