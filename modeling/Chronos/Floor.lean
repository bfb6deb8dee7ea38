import Mathlib.Order.MinMax
import Mathlib.Data.Nat.Basic

/-! Optional floors, and histories along which they only grow. An absent floor lies below every
present one. -/

namespace Floor

open List Option

def mergeMax : Option Nat → Option Nat → Option Nat
  | some a, some b => some (max a b)
  | some a, none => some a
  | none, some b => some b
  | none, none => none

def Le (a b : Option Nat) : Prop := ∀ x, a = some x → ∃ y, b = some y ∧ x ≤ y

variable {a b c : Option Nat}

@[simp] lemma none_le : Le none b := nofun

lemma Le.refl : Le a a := fun x h => ⟨x, h, le_rfl⟩

lemma Le.trans (hab : Le a b) (hbc : Le b c) : Le a c := by
  intro x hx
  obtain ⟨y, hy, hxy⟩ := hab x hx
  obtain ⟨z, hz, hyz⟩ := hbc y hy
  exact ⟨z, hz, hxy.trans hyz⟩

lemma Le.ne_none (h : Le a b) (ha : a ≠ none) : b ≠ none := by
  obtain ⟨x, hx⟩ := ne_none_iff_exists'.mp ha
  obtain ⟨y, hy, -⟩ := h x hx
  simp [hy]

@[simp] lemma some_le_some {x y : Nat} : Le (some x) (some y) ↔ x ≤ y := by simp [Le]

lemma le_mergeMax_left : Le a (mergeMax a b) := by
  rintro x rfl
  cases b with
  | none => exact ⟨x, rfl, le_rfl⟩
  | some y => exact ⟨max x y, rfl, le_max_left x y⟩

lemma le_mergeMax_right : Le b (mergeMax a b) := by
  rintro x rfl
  cases a with
  | none => exact ⟨x, rfl, le_rfl⟩
  | some y => exact ⟨max y x, rfl, le_max_right y x⟩

lemma mergeMax_le (ha : Le a c) (hb : Le b c) : Le (mergeMax a b) c := by
  cases a with
  | none => cases b with
    | none => exact none_le
    | some y => exact hb
  | some x => cases b with
    | none => exact ha
    | some y =>
      obtain ⟨u, rfl, hxu⟩ := ha x rfl
      obtain ⟨v, hv, hyv⟩ := hb y rfl
      cases hv
      exact some_le_some.mpr (max_le hxu hyv)

lemma mergeMax_le_iff : Le (mergeMax a b) c ↔ Le a c ∧ Le b c :=
  ⟨fun h => ⟨le_mergeMax_left.trans h, le_mergeMax_right.trans h⟩, fun h => mergeMax_le h.1 h.2⟩

lemma mergeMax_comm : mergeMax a b = mergeMax b a := by
  cases a <;> cases b <;> simp [mergeMax, Nat.max_comm]

lemma mergeMax_self : mergeMax a a = a := by
  cases a with
  | none => rfl
  | some x => simp [mergeMax]

lemma mergeMax_left_idem : mergeMax a (mergeMax a b) = mergeMax a b := by
  cases a with
  | none => cases b <;> rfl
  | some x => cases b <;> simp [mergeMax]

section

variable {α : Type} {f : α → Option Nat} {history : List α} {x : α}

def latest (f : α → Option Nat) (history : List α) : Option Nat := history.head?.bind f

def Rising (f : α → Option Nat) (history : List α) : Prop :=
  history.Pairwise fun newer older => Le (f older) (f newer)

lemma latest_of_head (h : history.head? = some x) : latest f history = f x := by
  rw [latest, h, bind_some]

lemma Rising.le_latest (h : Rising f history) (hx : x ∈ history) : Le (f x) (latest f history) := by
  cases history with
  | nil => cases hx
  | cons newest old =>
    rcases mem_cons.mp hx with rfl | hx
    · exact Le.refl
    · exact (pairwise_cons.mp h).1 x hx

lemma Rising.cons (h : Rising f history) (hle : Le (latest f history) (f x)) :
    Rising f (x :: history) :=
  pairwise_cons.mpr ⟨fun _ hy => (h.le_latest hy).trans hle, h⟩

end

instance : Decidable (Le a b) :=
  match a, b with
  | none, _ => isTrue none_le
  | some _, none => isFalse fun h => nomatch h _ rfl
  | some _, some _ => decidable_of_iff _ some_le_some.symm

end Floor
