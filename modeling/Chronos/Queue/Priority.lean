import Mathlib.Data.List.Sort

/-! Priority queues: the smallest item is taken first. The items are kept in increasing order, so
that a queue is determined by the collection of its items. -/

@[ext]
structure PriorityQueue (α : Type) [LinearOrder α] where
  items : List α
  sorted : items.Pairwise (· ≤ ·)

namespace PriorityQueue

variable {α : Type} [LinearOrder α] {q q' : PriorityQueue α} {x : α}

def empty : PriorityQueue α := ⟨[], .nil⟩

def push (q : PriorityQueue α) (x : α) : PriorityQueue α :=
  ⟨q.items.orderedInsert (· ≤ ·) x, q.sorted.orderedInsert x q.items⟩

def extend (q : PriorityQueue α) (xs : List α) : PriorityQueue α := xs.foldl push q

def pop (q : PriorityQueue α) : Option (α × PriorityQueue α) :=
  match q with
  | ⟨[], _⟩ => none
  | ⟨x :: items, sorted⟩ => some (x, ⟨items, sorted.of_cons⟩)

def filter (q : PriorityQueue α) (p : α → Bool) : PriorityQueue α :=
  ⟨q.items.filter p, q.sorted.filter p⟩

@[simp] lemma items_empty : (empty : PriorityQueue α).items = [] := rfl

lemma items_push_perm : (q.push x).items.Perm (x :: q.items) :=
  List.perm_orderedInsert _ x q.items

lemma items_extend_perm (xs : List α) : (q.extend xs).items.Perm (xs ++ q.items) := by
  induction xs generalizing q with
  | nil => exact .refl _
  | cons x xs ih =>
    have hrest : ((q.push x).extend xs).items.Perm (xs ++ (q.push x).items) := ih
    exact hrest.trans ((items_push_perm.append_left xs).trans List.perm_middle)

lemma pop_eq_some : q.pop = some (x, q') ↔ q.items = x :: q'.items := by
  obtain ⟨items, sorted⟩ := q
  obtain ⟨items', sorted'⟩ := q'
  cases items with
  | nil => simp [pop]
  | cons y items => simp [pop]

lemma exists_pop_of_items {items : List α} (h : q.items = x :: items) :
    ∃ rest, q.pop = some (x, rest) ∧ rest.items = items := by
  have hsorted := q.sorted
  rw [h] at hsorted
  exact ⟨⟨items, hsorted.of_cons⟩, pop_eq_some.mpr h, rfl⟩

lemma pop_eq_none : q.pop = none ↔ q.items = [] := by
  obtain ⟨items, sorted⟩ := q
  cases items with
  | nil => simp [pop]
  | cons y items => simp [pop]

end PriorityQueue
