import Mathlib.Data.List.Nodup
import Mathlib.Data.List.Infix

/-! A key-value store with one revision counter and atomic conditional transactions. -/

namespace KeyValue

open List Option

lemma eq_of_pairwise_lt {α : Type} {f : α → Nat} {l : List α}
    (h : l.Pairwise fun newer old => f old < f newer) {x y : α} (hx : x ∈ l) (hy : y ∈ l)
    (hf : f x = f y) : x = y :=
  List.inj_on_of_nodup_map (List.pairwise_map.mpr (h.imp fun hlt => hlt.ne')) hx hy hf

/-- The versions of every key, newest first, each with the revision it was written at. -/
structure Store (K V : Type) where
  revision : Nat
  history : K → List (Nat × Option V)

structure Write (K V : Type) where
  key : K
  value : Option V

/-- All writes are made at one new revision if every compared key has its revision; the revision
of an absent key is zero. -/
structure Txn (K V : Type) where
  compares : List (K × Nat)
  writes : List (Write K V)

namespace Store

variable {K V : Type}

def get (s : Store K V) (k : K) : Option (V × Nat) :=
  match (s.history k).head? with
  | some (revision, some value) => some (value, revision)
  | _ => none

def modRevision (s : Store K V) (k : K) : Nat := ((s.get k).map Prod.snd).getD 0

def admits (s : Store K V) (t : Txn K V) : Bool :=
  t.compares.all fun c => s.modRevision c.1 = c.2

def commit [DecidableEq K] (s : Store K V) (t : Txn K V) : Store K V where
  revision := s.revision + 1
  history k :=
    match t.writes.find? fun x => x.key = k with
    | some x => (s.revision + 1, x.value) :: s.history k
    | none => s.history k

def ofEntries (revision : Nat) (entries : K → Option (V × Nat)) : Store K V where
  revision := revision
  history k := (entries k).toList.map fun e => (e.2, some e.1)

def Written (s : Store K V) (k : K) (value : V) (revision : Nat) : Prop :=
  (revision, some value) ∈ s.history k

structure Sound (s : Store K V) : Prop where
  order : ∀ k, (s.history k).Pairwise fun newer older => older.1 < newer.1
  positive : ∀ k, ∀ x ∈ s.history k, 0 < x.1
  bounded : ∀ k, ∀ x ∈ s.history k, x.1 ≤ s.revision

variable {s : Store K V} {t : Txn K V} {k : K} {value : V} {revision : Nat}

lemma get_eq_some : s.get k = some (value, revision) ↔
    (s.history k).head? = some (revision, some value) := by
  unfold get
  split
  · next hhead => simp [hhead, and_comm]
  · next hnot =>
    constructor
    · intro h
      cases h
    · intro h
      exact absurd h (hnot revision value)

lemma written_of_get (h : s.get k = some (value, revision)) : s.Written k value revision :=
  mem_of_mem_head? (get_eq_some.mp h)

variable {entries : K → Option (V × Nat)}

lemma get_ofEntries : (ofEntries revision entries).get k = entries k := by
  cases hentry : entries k with
  | none => simp [get, ofEntries, hentry]
  | some e => simp [get, ofEntries, hentry]

lemma Sound.ofEntries (h : ∀ k e, entries k = some e → 0 < e.2 ∧ e.2 ≤ revision) :
    Sound (ofEntries revision entries) := by
  have hentries : ∀ k, ∀ x ∈ (Store.ofEntries revision entries).history k, 0 < x.1 ∧
      x.1 ≤ revision := by
    intro k x hx
    obtain ⟨e, he, rfl⟩ := mem_map.mp hx
    exact h k e (mem_toList.mp he)
  refine ⟨fun k => ?_, fun k x hx => (hentries k x hx).1, fun k x hx => (hentries k x hx).2⟩
  cases hentry : entries k with
  | none => simp [Store.ofEntries, hentry]
  | some e => simp [Store.ofEntries, hentry]

lemma Written.get_eq (h : s.Written k value revision) (hs : s.Sound)
    (hrev : s.modRevision k = revision) : s.get k = some (value, revision) := by
  have hpos : 0 < revision := hs.positive k _ h
  cases hget : s.get k with
  | none => simp [modRevision, hget] at hrev; omega
  | some e =>
    obtain ⟨val', rev'⟩ := e
    have hsame : rev' = revision := by simpa [modRevision, hget] using hrev
    subst hsame
    have hversion := eq_of_pairwise_lt (hs.order k) (written_of_get hget) h rfl
    simp only [Prod.mk.injEq, some.injEq, true_and] at hversion
    rw [hversion]

lemma get_eq_none (hs : s.Sound) (h : s.modRevision k = 0) : s.get k = none := by
  cases hget : s.get k with
  | none => rfl
  | some e =>
    have hpos := hs.positive k _ (written_of_get hget)
    simp [modRevision, hget] at h
    omega

lemma admits_iff : s.admits t = true ↔ ∀ c ∈ t.compares, s.modRevision c.1 = c.2 := by
  simp [admits]

lemma get_of_history_eq {s' : Store K V} (h : s'.history k = s.history k) :
    s'.get k = s.get k := by
  rw [get, get, h]

section

variable [DecidableEq K]

lemma history_commit (k : K) : (s.commit t).history k = s.history k ∨ ∃ x ∈ t.writes, x.key = k ∧
      (s.commit t).history k = (s.revision + 1, x.value) :: s.history k := by
  cases hfind : t.writes.find? fun x => x.key = k with
  | none => exact .inl (by simp [commit, hfind])
  | some x =>
    have hkey : x.key = k := by simpa using find?_some hfind
    exact .inr ⟨x, mem_of_find?_eq_some hfind, hkey, by simp [commit, hfind]⟩

lemma history_suffix_commit (k : K) : s.history k <:+ (s.commit t).history k := by
  rcases history_commit (t := t) k with heq | ⟨x, -, -, heq⟩
  · rw [heq]
  · rw [heq]
    exact suffix_cons _ _

lemma get_commit_of_find {x : Write K V} (h : t.writes.find? (fun x => x.key = k) = some x) :
    (s.commit t).get k = x.value.map fun value => (value, s.revision + 1) := by
  cases hvalue : x.value with
  | none => simp [get, commit, h, hvalue]
  | some value => simp [get, commit, h, hvalue]

lemma Sound.commit (hs : s.Sound) : (s.commit t).Sound := by
  have hold : ∀ k, ∀ x ∈ s.history k, x.1 < s.revision + 1 := fun k x hx =>
    Nat.lt_succ_of_le (hs.bounded k x hx)
  refine ⟨fun k => ?_, fun k => ?_, fun k => ?_⟩
  all_goals
    rcases history_commit (t := t) k with heq | ⟨x, -, -, heq⟩
    all_goals rw [heq]
  · exact hs.order k
  · exact pairwise_cons.mpr ⟨hold k, hs.order k⟩
  · exact hs.positive k
  · exact forall_mem_cons.mpr ⟨Nat.succ_pos _, hs.positive k⟩
  · exact fun x hx => (hold k x hx).le
  · exact forall_mem_cons.mpr ⟨le_rfl, fun x hx => (hold k x hx).le⟩

end

end Store

end KeyValue
