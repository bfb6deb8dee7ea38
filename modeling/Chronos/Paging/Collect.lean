import Mathlib.Data.List.Sort
import Mathlib.Data.List.TakeDrop
import Mathlib.Order.Basic

/-! Lists that are read page by page in the order of a key. A page starts after the last key of the
page before, and a page that names no next key ends the listing. -/

namespace Paging

open List

structure Page (α K : Type) where
  records : List α
  next : Option K
  deriving DecidableEq

/-- Follows the pages from a start until one names no next key, or until the fuel is spent. -/
def collect {α K : Type} (page : Option K → Option (Page α K)) : Nat → Option K → Option (List α)
  | 0, _ => none
  | fuel + 1, start => do
    let p ← page start
    match p.next with
    | none => some p.records
    | some key => (collect page fuel (some key)).map (p.records ++ ·)

variable {α K : Type} [LinearOrder K] (key : α → K)

def after (l : List α) : Option K → List α
  | none => l
  | some start => l.filter fun x => start < key x

def cut (limit : Nat) (l : List α) : Page α K where
  records := l.take limit
  next := if limit < l.length then l[limit - 1]?.map key else none

/-- Pages of a list that may stop too early: `more` decides whether a next page is named. -/
structure Cuts (l : List α) (limit : Nat) (more : List α → Prop)
    (page : Option K → Option (Page α K)) : Prop where
  sound : ∀ r, more r → limit < r.length
  page_more : ∀ start, more (after key l start) →
    page start = some (cut key limit (after key l start))
  page_last : ∀ start, ¬ more (after key l start) →
    page start = some ⟨(after key l start).take limit, none⟩

variable {key} {l : List α} {limit : Nat} {more : List α → Prop}
  {page : Option K → Option (Page α K)}

variable {n fuel : Nat} {x : α} {start : Option K}

lemma filter_lt_eq_drop (hsorted : l.Pairwise fun a b => key a < key b)
    (hx : l[n]? = some x) : l.filter (fun y => key x < key y) = l.drop (n + 1) := by
  induction l generalizing n with
  | nil => simp at hx
  | cons head tail ih =>
    obtain ⟨hhead, htail⟩ := pairwise_cons.mp hsorted
    cases n with
    | zero =>
      obtain rfl : head = x := by simpa using hx
      have hall : ∀ y ∈ tail, decide (key head < key y) = true := fun y hy =>
        decide_eq_true (hhead y hy)
      rw [filter_cons_of_neg (by simp), filter_eq_self.mpr hall]
      rfl
    | succ n =>
      have hmem : x ∈ tail := mem_of_getElem? (by simpa using hx)
      rw [filter_cons_of_neg (by simpa using (hhead x hmem).le)]
      exact ih htail (by simpa using hx)

lemma after_next (hsorted : l.Pairwise fun a b => key a < key b)
    (hx : (after key l start)[n]? = some x) :
    after key l (some (key x)) = (after key l start).drop (n + 1) := by
  cases start with
  | none => exact filter_lt_eq_drop hsorted hx
  | some start =>
    have hstart : start < key x := by
      have hmem := mem_of_getElem? hx
      simpa using (mem_filter.mp hmem).2
    have hdrop := filter_lt_eq_drop (l := after key l (some start)) (hsorted.filter _) hx
    rw [← hdrop]
    simp only [after, filter_filter]
    refine filter_congr fun y _ => ?_
    by_cases hy : key x < key y
    · simp [hy, hstart.trans hy]
    · simp [hy]

lemma drop_takeWhile_le {l : List K} (hsorted : l.Pairwise (· < ·)) (start : K) :
    l.drop (l.takeWhile (· ≤ start)).length = l.filter (start < ·) := by
  induction l with
  | nil => rfl
  | cons head tail ih =>
    obtain ⟨hhead, htail⟩ := pairwise_cons.mp hsorted
    by_cases hle : head ≤ start
    · rw [takeWhile_cons_of_pos (by simpa using hle), length_cons, drop_succ_cons,
        ih htail, filter_cons_of_neg (by simpa using hle)]
    have hall : ∀ y ∈ head :: tail, decide (start < y) = true := by
      rw [forall_mem_cons]
      exact ⟨by simpa using hle, fun y hy => by simpa using (not_le.mp hle).trans (hhead y hy)⟩
    rw [takeWhile_cons_of_neg (by simpa using hle), filter_eq_self.mpr hall]
    rfl

lemma filter_filterMap {f : K → Option α} (hf : ∀ {k x}, f k = some x → key x = k) (l : List K)
    (start : K) :
    (l.filterMap f).filter (fun x => start < key x) = (l.filter (start < ·)).filterMap f := by
  induction l with
  | nil => rfl
  | cons head tail ih =>
    cases hx : f head with
    | none => by_cases hlt : start < head <;> simp [hx, hlt, ih]
    | some x => by_cases hlt : start < head <;> simp [hx, hlt, hf hx, ih]

lemma filterMap_take {β : Type} {f : β → Option α} {l : List β} (hl : ∀ x ∈ l, (f x).isSome)
    (n : Nat) : (l.take n).filterMap f = (l.filterMap f).take n := by
  induction l generalizing n with
  | nil => simp
  | cons head tail ih =>
    rw [forall_mem_cons] at hl
    obtain ⟨x, hx⟩ := Option.isSome_iff_exists.mp hl.1
    cases n with
    | zero => rfl
    | succ n => simp [hx, ih hl.2]

lemma collect_eq_iff (h : Cuts key l limit more page) (hlimit : 0 < limit)
    (hsorted : l.Pairwise fun a b => key a < key b)
    (hfuel : (after key l start).length < fuel) :
    ∃ out, collect page fuel start = some out ∧ (out = after key l start ↔
      ∀ j, (j + 1) * limit < (after key l start).length →
        more ((after key l start).drop (j * limit))) := by
  induction fuel generalizing start with
  | zero => omega
  | succ fuel ih =>
    generalize hr : after key l start = r at hfuel ⊢
    by_cases hmore : more r
    · -- a next page is named: the rest is what comes after the last key of this one
      have hlong : limit < r.length := h.sound r hmore
      obtain ⟨x, hx⟩ : ∃ x, r[limit - 1]? = some x :=
        ⟨r[limit - 1], List.getElem?_eq_getElem (by omega)⟩
      have hpage : page start = some ⟨r.take limit, some (key x)⟩ := by
        rw [h.page_more start (hr ▸ hmore), hr, cut, if_pos hlong, hx]
        rfl
      have hnext : after key l (some (key x)) = r.drop limit := by
        rw [after_next hsorted (hr ▸ hx), hr, Nat.sub_add_cancel hlimit]
      have hless : (after key l (some (key x))).length < fuel := by
        rw [hnext, List.length_drop]
        omega
      obtain ⟨out, hout, hiff⟩ := ih hless
      refine ⟨r.take limit ++ out, by simp [collect, hpage, hout], ?_⟩
      have hwhole : r.take limit ++ out = r ↔ out = r.drop limit := by
        conv_lhs => rhs; rw [← List.take_append_drop limit r]
        exact List.append_right_inj _
      rw [hwhole, ← hnext, hiff, hnext]
      constructor
      · intro hlater j hj
        cases j with
        | zero => simpa using hmore
        | succ j =>
          have hdrop := hlater j (by rw [List.length_drop]; rw [Nat.add_mul] at hj; omega)
          rwa [List.drop_drop, Nat.add_comm, ← Nat.succ_mul] at hdrop
      · intro hall j hj
        rw [List.length_drop] at hj
        have hdrop := hall (j + 1) (by rw [Nat.add_mul]; omega)
        rwa [List.drop_drop, Nat.add_comm, ← Nat.succ_mul]
    · -- the last page
      have hpage : page start = some ⟨r.take limit, none⟩ := by
        rw [h.page_last start (hr ▸ hmore), hr]
      refine ⟨r.take limit, by simp [collect, hpage], ?_⟩
      rw [List.take_eq_self_iff]
      constructor
      · intro hshort j hj
        have : limit ≤ (j + 1) * limit := Nat.le_mul_of_pos_left limit (Nat.succ_pos j)
        omega
      intro hall
      by_contra hlong
      exact hmore (by simpa using hall 0 (by omega))

lemma collect_eq (hpage : ∀ start, page start = some (cut key limit (after key l start)))
    (hlimit : 0 < limit) (hsorted : l.Pairwise fun a b => key a < key b)
    (hfuel : l.length < fuel) : collect page fuel none = some l := by
  have hcuts : Cuts key l limit (fun r => limit < r.length) page := by
    refine ⟨fun _ h => h, fun start _ => hpage start, fun start hshort => ?_⟩
    rw [hpage, cut, if_neg hshort]
  have hwhole : (after key l none).length < fuel := hfuel
  obtain ⟨out, hout, hiff⟩ := collect_eq_iff hcuts hlimit hsorted hwhole
  have hall : out = l := by
    refine hiff.mpr fun j hj => ?_
    rw [Nat.add_mul] at hj
    rw [length_drop]
    omega
  rw [hout, hall]

end Paging
