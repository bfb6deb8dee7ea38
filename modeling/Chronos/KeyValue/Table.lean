import Chronos.KeyValue.Ordered
import Chronos.KeyValue.Store

/-! A key-value store that is also read in ranges: its entries in the order of their keys, each with
the revision it was last written at. -/

namespace KeyValue

open List Option

structure Entry (K V : Type) where
  key : K
  value : V
  modRevision : Nat
  deriving DecidableEq

structure Table (K V : Type) where
  revision : Nat
  entries : List (Entry K V)

namespace Table

variable {K V : Type}

instance : Preorder (Table K V) where
  le t t' := t.revision ≤ t'.revision ∧
    ∀ e ∈ t'.entries, e ∈ t.entries ∨ t.revision < e.modRevision
  le_refl t := ⟨Nat.le_refl _, fun _ he => .inl he⟩
  le_trans t₁ t₂ t₃ h h' := by
    refine ⟨h.1.trans h'.1, fun e he => ?_⟩
    rcases h'.2 e he with hold | hnew
    · exact h.2 e hold
    · exact .inr (h.1.trans_lt hnew)

variable {t t' : Table K V} {e : Entry K V}

lemma mem_of_le (h : t ≤ t') (he : e ∈ t'.entries) (hrev : e.modRevision ≤ t.revision) :
    e ∈ t.entries :=
  (h.2 e he).resolve_right hrev.not_gt

/-- What was found under a key when the table was at revision `r`: of what is under the key now,
nothing else is that old. -/
structure Read (k : K) (found : Option (Entry K V)) (r : Nat) (t : Table K V) : Prop where
  bounded : r ≤ t.revision
  same : ∀ e ∈ t.entries, e.key = k → e.modRevision ≤ r → found = some e
  old : ∀ e, found = some e → e.key = k ∧ 0 < e.modRevision ∧ e.modRevision ≤ r

lemma Read.mono {k : K} {found : Option (Entry K V)} {r : Nat} (h : Read k found r t)
    (hle : t ≤ t') : Read k found r t' where
  bounded := h.bounded.trans hle.1
  same e he hkey hold := h.same e (mem_of_le hle he (hold.trans h.bounded)) hkey hold
  old := h.old

variable [LinearOrder K]

def get (t : Table K V) (k : K) : Option (Entry K V) := t.entries.find? fun e => e.key = k

def range (t : Table K V) (start stop : K) (limit : Nat) : List (Entry K V) :=
  (t.entries.filter fun e => start ≤ e.key ∧ e.key < stop).take limit

def modRevision (t : Table K V) (k : K) : Nat := ((t.get k).map Entry.modRevision).getD 0

def admits (t : Table K V) (x : Txn K V) : Bool :=
  x.compares.all fun c => t.modRevision c.1 = c.2

def write (revision : Nat) (entries : List (Entry K V)) (w : Write K V) : List (Entry K V) :=
  match w.value with
  | some value => insertOrdered Entry.key ⟨w.key, value, revision⟩ entries
  | none => entries.filter fun e => e.key ≠ w.key

def commit (t : Table K V) (x : Txn K V) : Table K V where
  revision := t.revision + 1
  entries := x.writes.foldl (write (t.revision + 1)) t.entries

structure Sound (t : Table K V) : Prop where
  ordered : Ordered Entry.key t.entries
  positive : ∀ e ∈ t.entries, 0 < e.modRevision
  bounded : ∀ e ∈ t.entries, e.modRevision ≤ t.revision

variable {x : Txn K V} {k : K}

lemma get_eq_some (hs : t.Sound) : t.get k = some e ↔ e ∈ t.entries ∧ e.key = k :=
  hs.ordered.find?_eq_some

lemma get_eq_none : t.get k = none ↔ ∀ e ∈ t.entries, e.key ≠ k := by
  simp [get, find?_eq_none]

lemma mem_of_mem_range {start stop : K} {limit : Nat} (h : e ∈ t.range start stop limit) :
    e ∈ t.entries ∧ e.key < stop := by
  have hfilter := mem_of_mem_take h
  rw [mem_filter] at hfilter
  exact ⟨hfilter.1, (of_decide_eq_true hfilter.2).2⟩

lemma read_get (hs : t.Sound) (k : K) : Read k (t.get k) t.revision t where
  bounded := le_rfl
  same _ he hkey _ := (get_eq_some hs).mpr ⟨he, hkey⟩
  old e hget := by
    obtain ⟨he, hkey⟩ := (get_eq_some hs).mp hget
    exact ⟨hkey, hs.positive e he, hs.bounded e he⟩

lemma read_of_mem (hs : t.Sound) (he : e ∈ t.entries) : Read e.key (some e) t.revision t := by
  have hget : t.get e.key = some e := (get_eq_some hs).mpr ⟨he, rfl⟩
  exact hget ▸ read_get hs e.key

lemma Read.mem {r : Nat} (h : Read k (some e) r t) (hs : t.Sound)
    (hrev : t.modRevision k = e.modRevision) : e ∈ t.entries := by
  obtain ⟨-, hpos, hold⟩ := h.old e rfl
  cases hget : t.get k with
  | none =>
    rw [modRevision, hget] at hrev
    exact absurd hrev hpos.ne
  | some e' =>
    obtain ⟨he', hkey⟩ := (get_eq_some hs).mp hget
    have hsame : e'.modRevision = e.modRevision := by rwa [modRevision, hget] at hrev
    exact some.inj (h.same e' he' hkey (hsame ▸ hold)) ▸ he'

lemma admits_iff : t.admits x = true ↔ ∀ c ∈ x.compares, t.modRevision c.1 = c.2 := by
  simp [admits]

section

variable {revision : Nat} {entries : List (Entry K V)} {w : Write K V}

lemma mem_write (h : Ordered Entry.key entries) : e ∈ write revision entries w ↔
    (e.key = w.key ∧ w.value = some e.value ∧ e.modRevision = revision) ∨
      (e ∈ entries ∧ e.key ≠ w.key) := by
  unfold write
  cases hvalue : w.value with
  | none => simp
  | some value =>
    rw [mem_insertOrdered h]
    refine or_congr_left ⟨?_, ?_⟩
    · rintro rfl
      exact ⟨rfl, rfl, rfl⟩
    rintro ⟨hkey, heq, hrev⟩
    obtain ⟨key, val', modRevision⟩ := e
    cases some.inj heq
    cases hkey
    cases hrev
    rfl

lemma ordered_write (h : Ordered Entry.key entries) :
    Ordered Entry.key (write revision entries w) := by
  unfold write
  split
  · exact h.insert
  · exact h.filter _

lemma ordered_foldl_write {writes : List (Write K V)} (h : Ordered Entry.key entries) :
    Ordered Entry.key (writes.foldl (write revision) entries) := by
  induction writes generalizing entries with
  | nil => exact h
  | cons w rest ih => exact ih (ordered_write h)

lemma mem_foldl_write {writes : List (Write K V)} (h : Ordered Entry.key entries)
    (hnodup : (writes.map Write.key).Nodup) : e ∈ writes.foldl (write revision) entries ↔
      (∃ w ∈ writes, e.key = w.key ∧ w.value = some e.value ∧ e.modRevision = revision) ∨
        (e ∈ entries ∧ ∀ w ∈ writes, e.key ≠ w.key) := by
  induction writes generalizing entries with
  | nil => simp
  | cons w rest ih =>
    rw [List.map_cons, List.nodup_cons] at hnodup
    -- no later write is to the key of this one
    have hlater : e.key = w.key → ∀ w' ∈ rest, e.key ≠ w'.key := by
      intro hkey w' hw' hkey'
      exact hnodup.1 (List.mem_map.mpr ⟨w', hw', hkey'.symm.trans hkey⟩)
    rw [List.foldl_cons, ih (ordered_write h) hnodup.2, mem_write h]
    simp only [List.exists_mem_cons_iff, List.forall_mem_cons]
    by_cases hkey : e.key = w.key
    · have hrest : ¬ ∃ w' ∈ rest, e.key = w'.key ∧ w'.value = some e.value ∧
          e.modRevision = revision := fun ⟨w', hw', hkey', _⟩ => hlater hkey w' hw' hkey'
      tauto
    · simp only [hkey, false_and, false_or, ne_eq, not_false_eq_true, and_true, true_and]

lemma mem_commit (hs : t.Sound) (hnodup : (x.writes.map Write.key).Nodup) :
    e ∈ (t.commit x).entries ↔ (∃ w ∈ x.writes, e.key = w.key ∧ w.value = some e.value ∧
        e.modRevision = t.revision + 1) ∨
        (e ∈ t.entries ∧ ∀ w ∈ x.writes, e.key ≠ w.key) :=
  mem_foldl_write hs.ordered hnodup

lemma Sound.commit (hs : t.Sound) (hnodup : (x.writes.map Write.key).Nodup) :
    (t.commit x).Sound := by
  refine ⟨ordered_foldl_write hs.ordered, fun e he => ?_, fun e he => ?_⟩
  · rcases (mem_commit hs hnodup).mp he with ⟨w, -, -, -, hrev⟩ | ⟨hold, -⟩
    · exact hrev ▸ Nat.succ_pos _
    · exact hs.positive e hold
  rcases (mem_commit hs hnodup).mp he with ⟨w, -, -, -, hrev⟩ | ⟨hold, -⟩
  · exact hrev.le
  · exact (hs.bounded e hold).trans (Nat.le_succ _)

lemma le_commit (hs : t.Sound) (hnodup : (x.writes.map Write.key).Nodup) : t ≤ t.commit x := by
  refine ⟨Nat.le_succ _, fun e he => ?_⟩
  rcases (mem_commit hs hnodup).mp he with ⟨w, -, -, -, hrev⟩ | ⟨hold, -⟩
  · exact .inr (hrev ▸ Nat.lt_succ_self _)
  · exact .inl hold

lemma deleted_of_get_commit (hs : t.Sound) (hnodup : (x.writes.map Write.key).Nodup)
    (he : e ∈ t.entries) (hgone : (t.commit x).get e.key = none) :
    ∃ w ∈ x.writes, w.key = e.key ∧ w.value = none := by
  rw [get_eq_none] at hgone
  by_cases hwritten : ∃ w ∈ x.writes, e.key = w.key
  · obtain ⟨w, hw, hkey⟩ := hwritten
    refine ⟨w, hw, hkey.symm, ?_⟩
    cases hvalue : w.value with
    | none => rfl
    | some value =>
      have hnew := (mem_commit (e := ⟨e.key, value, t.revision + 1⟩) hs hnodup).mpr
        (.inl ⟨w, hw, hkey, hvalue, rfl⟩)
      exact absurd rfl (hgone ⟨e.key, value, t.revision + 1⟩ hnew)
  · push Not at hwritten
    exact absurd rfl (hgone e ((mem_commit hs hnodup).mpr (.inr ⟨he, hwritten⟩)))

end

end Table

end KeyValue
