import Mathlib.Data.List.Nodup
import Mathlib.Data.List.Perm.Basic
import Mathlib.Data.List.Sort
import Mathlib.Tactic.Tauto

/-! Finite maps as lists in the strict order of a key. -/

namespace KeyValue

open List

variable {α K : Type} [LinearOrder K] {key : α → K}

abbrev Ordered (key : α → K) (l : List α) : Prop := l.Pairwise fun x y => key x < key y

def insertOrdered (key : α → K) (x : α) : List α → List α
  | [] => [x]
  | first :: rest =>
    if key x < key first then x :: first :: rest
    else if key x = key first then x :: rest
    else first :: insertOrdered key x rest

variable {l : List α} {x y : α}

lemma Ordered.eq_of_key_eq (h : Ordered key l) (hx : x ∈ l) (hy : y ∈ l) (hkey : key x = key y) :
    x = y :=
  inj_on_of_nodup_map (pairwise_map.mpr (h.imp ne_of_lt)) hx hy hkey

lemma Ordered.eq_of_mem_iff {l' : List α} (h : Ordered key l) (h' : Ordered key l')
    (hmem : ∀ x, x ∈ l ↔ x ∈ l') : l = l' := by
  have hnodup : ∀ {m : List α}, Ordered key m → m.Nodup := fun hm =>
    hm.imp fun hlt heq => hlt.ne (congrArg key heq)
  have hperm : l.Perm l' := (perm_ext_iff_of_nodup (hnodup h) (hnodup h')).mpr hmem
  exact hperm.eq_of_pairwise (fun _ _ _ _ hlt hgt => absurd hlt hgt.asymm) h h'

lemma mem_insertOrdered (h : Ordered key l) :
    y ∈ insertOrdered key x l ↔ y = x ∨ y ∈ l ∧ key y ≠ key x := by
  induction l with
  | nil => simp [insertOrdered]
  | cons first rest ih =>
    obtain ⟨hfirst, hrest⟩ := List.pairwise_cons.mp h
    unfold insertOrdered
    split_ifs with hlt heq
    · -- everything in the list is behind the new element
      have hne : ∀ z ∈ first :: rest, key z ≠ key x := by
        intro z hz
        rcases List.mem_cons.mp hz with rfl | hz
        · exact hlt.ne'
        · exact (hlt.trans (hfirst z hz)).ne'
      rw [List.mem_cons]
      exact or_congr_right ⟨fun hy => ⟨hy, hne y hy⟩, And.left⟩
    · have hne : ∀ z ∈ rest, key z ≠ key x := fun z hz => heq ▸ (hfirst z hz).ne'
      rw [List.mem_cons, List.mem_cons]
      refine or_congr_right ⟨fun hy => ⟨.inr hy, hne y hy⟩, fun ⟨hy, hkey⟩ => ?_⟩
      exact hy.resolve_left fun hfirst => hkey (hfirst ▸ heq.symm)
    · rw [List.mem_cons, ih hrest, List.mem_cons]
      constructor
      · rintro (rfl | rfl | ⟨hy, hkey⟩)
        · exact .inr ⟨.inl rfl, fun hkey => heq hkey.symm⟩
        · exact .inl rfl
        · exact .inr ⟨.inr hy, hkey⟩
      · tauto

lemma Ordered.insert (h : Ordered key l) : Ordered key (insertOrdered key x l) := by
  induction l with
  | nil => exact pairwise_singleton _ _
  | cons first rest ih =>
    obtain ⟨hfirst, hrest⟩ := pairwise_cons.mp h
    unfold insertOrdered
    split_ifs with hlt heq
    · refine pairwise_cons.mpr ⟨fun z hz => ?_, h⟩
      rcases mem_cons.mp hz with rfl | hz
      · exact hlt
      · exact hlt.trans (hfirst z hz)
    · exact pairwise_cons.mpr ⟨fun z hz => heq ▸ hfirst z hz, hrest⟩
    · refine pairwise_cons.mpr ⟨fun z hz => ?_, ih hrest⟩
      rcases (mem_insertOrdered hrest).mp hz with rfl | ⟨hz, -⟩
      · exact lt_of_le_of_ne (not_lt.mp hlt) (Ne.symm heq)
      · exact hfirst z hz

lemma length_insertOrdered_of_mem (h : Ordered key l) (hy : y ∈ l) (hkey : key y = key x) :
    (insertOrdered key x l).length = l.length := by
  induction l with
  | nil => cases hy
  | cons first rest ih =>
    obtain ⟨hfirst, hrest⟩ := pairwise_cons.mp h
    have hle : ¬ key x < key first := by
      rw [← hkey]
      rcases mem_cons.mp hy with rfl | hy
      · exact lt_irrefl _
      · exact (hfirst y hy).asymm
    unfold insertOrdered
    split_ifs with heq
    · rfl
    rcases mem_cons.mp hy with rfl | hy
    · exact absurd hkey.symm heq
    · rw [length_cons, ih hrest hy, length_cons]

lemma length_insertOrdered_le (x : α) (l : List α) :
    (insertOrdered key x l).length ≤ l.length + 1 := by
  induction l with
  | nil => exact le_rfl
  | cons first rest ih =>
    unfold insertOrdered
    split_ifs
    · exact le_rfl
    · exact Nat.le_succ _
    · exact Nat.succ_le_succ ih

lemma Ordered.find?_eq_some [DecidableEq K] (h : Ordered key l) {k : K} :
    l.find? (fun x => key x = k) = some x ↔ x ∈ l ∧ key x = k := by
  constructor
  · intro hfind
    exact ⟨mem_of_find?_eq_some hfind, by simpa using find?_some hfind⟩
  rintro ⟨hx, hkey⟩
  cases hfind : l.find? fun x => key x = k with
  | none => exact absurd hkey (by simpa using find?_eq_none.mp hfind x hx)
  | some y =>
    have hy := mem_of_find?_eq_some hfind
    have hykey : key y = k := by simpa using find?_some hfind
    rw [h.eq_of_key_eq hy hx (hykey.trans hkey.symm)]

lemma find?_insertOrdered_self [DecidableEq K] (key : α → K) (x : α) (l : List α) :
    (insertOrdered key x l).find? (fun y => key y = key x) = some x := by
  induction l with
  | nil => simp [insertOrdered]
  | cons first rest ih =>
    unfold insertOrdered
    split_ifs with hlt heq
    · simp
    · simp
    · rw [find?_cons_of_neg (by simpa using Ne.symm heq), ih]

lemma find?_insertOrdered_of_ne [DecidableEq K] (key : α → K) {k : K} (hne : key x ≠ k)
    (l : List α) :
    (insertOrdered key x l).find? (fun y => key y = k) = l.find? fun y => key y = k := by
  induction l with
  | nil => simp [insertOrdered, hne]
  | cons first rest ih =>
    unfold insertOrdered
    split_ifs with hlt heq
    · rw [find?_cons_of_neg (by simpa using hne)]
    · rw [find?_cons_of_neg (by simpa using hne),
        find?_cons_of_neg (by simpa using heq ▸ hne)]
    · rw [find?_cons, find?_cons, ih]

end KeyValue
