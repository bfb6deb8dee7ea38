import Chronos.RuntimeCache.Store

/-! What an eviction does. It walks through the candidates in the order of their recorded ticks and
takes the first one that is evictable; the current ones before it are queued again with the tick
their entry has now, the outdated ones are dropped. -/

namespace Chronos.TimelineCacheStore

open List

section

variable (s : TimelineCacheStore) (held : List Handle) (candidate : EvictionCandidate)

/-- The loop evicts the entry of this candidate: its tick is the one that was queued, and no
reference to it is left but the cache's. -/
def evictable : Bool :=
  s.isCurrent candidate && (s.timelines.lookup candidate.key).any fun entry =>
    entry.lastAccessTick = candidate.tick && s.strongCount held entry.timeline = 1

def requeue : Option EvictionCandidate :=
  if s.isCurrent candidate then
    (s.timelines.lookup candidate.key).map fun entry =>
      { candidate with tick := entry.lastAccessTick }
  else none

def withoutEntry (key : String) (candidates : PriorityQueue EvictionCandidate) :
    TimelineCacheStore :=
  { s with
    timelines := s.timelines.erase key
    evictionGenerations := s.evictionGenerations.erase key
    evictionCandidates := candidates
    entryCount := s.entryCount - 1 }

end

section

variable {s : TimelineCacheStore} {held : List Handle} {candidate : EvictionCandidate}
  {rest : PriorityQueue EvictionCandidate} {rounds : Nat} {deferred : List EvictionCandidate}

@[simp] lemma isCurrent_setCandidates :
    isCurrent { s with evictionCandidates := rest } candidate = s.isCurrent candidate := rfl

@[simp] lemma strongCount_setCandidates {timeline : Handle} :
    strongCount { s with evictionCandidates := rest } held timeline = s.strongCount held timeline :=
      rfl

@[simp] lemma requeue_setCandidates :
    requeue { s with evictionCandidates := rest } = s.requeue := rfl

lemma evictLoop_of_evictable (hpop : s.evictionCandidates.pop = some (candidate, rest))
    (h : s.evictable held candidate = true) :
    evictLoop held (rounds + 1) s deferred =
      (true, s.withoutEntry candidate.key (rest.extend deferred), []) := by
  obtain ⟨hcurrent, hentry⟩ := (Bool.and_eq_true _ _).mp h
  obtain ⟨entry, hlook, hidle⟩ := (Option.any_eq_true ..).mp hentry
  obtain ⟨htick, hcount⟩ := (Bool.and_eq_true _ _).mp hidle
  have hstay : ¬(entry.lastAccessTick ≠ candidate.tick ∨ ¬s.strongCount held entry.timeline =
      1) := by
    simp [of_decide_eq_true htick, of_decide_eq_true hcount]
  rw [evictLoop, hpop]
  simp only [isCurrent_setCandidates, strongCount_setCandidates, hcurrent, hlook, hstay,
    Bool.not_true, Bool.false_eq_true, if_false]
  rfl

lemma evictLoop_of_not_evictable (hpop : s.evictionCandidates.pop = some (candidate, rest))
    (h : s.evictable held candidate = false) :
    evictLoop held (rounds + 1) s deferred = evictLoop held rounds
      { s with evictionCandidates := rest }
        (deferred ++ (s.requeue candidate).toList) := by
  rw [evictLoop, hpop]
  by_cases hcurrent : s.isCurrent candidate = true
  · rcases hlook : s.timelines.lookup candidate.key with _ | entry
    · simp [requeue, hcurrent, hlook]
    have hbusy : entry.lastAccessTick ≠ candidate.tick ∨
        ¬s.strongCount held entry.timeline = 1 := by
      by_contra hstay
      push Not at hstay
      simp [evictable, hcurrent, hlook, hstay] at h
    simp [requeue, hcurrent, hlook, hbusy]
  · simp [requeue, hcurrent]

lemma evictLoop_eq_false {items : List EvictionCandidate}
    (hitems : s.evictionCandidates.items = items) (hrounds : items.length ≤ rounds)
    (h : ∀ c ∈ items, s.evictable held c = false) :
    evictLoop held rounds s deferred =
      (false, { s with evictionCandidates := .empty }, deferred ++ items.filterMap s.requeue) := by
  induction items generalizing s deferred rounds with
  | nil =>
    have hempty : s.evictionCandidates = .empty := PriorityQueue.ext hitems
    have hpop := PriorityQueue.pop_eq_none.mpr hitems
    cases rounds with
    | zero => simp [evictLoop, ← hempty]
    | succ rounds => simp [evictLoop, hpop, ← hempty]
  | cons first items ih =>
    obtain ⟨rounds, rfl⟩ : ∃ n, rounds = n + 1 :=
      Nat.exists_eq_add_one.mpr (Nat.lt_of_lt_of_le (Nat.zero_lt_succ _) hrounds)
    obtain ⟨rest, hpop, hrest⟩ := PriorityQueue.exists_pop_of_items hitems
    have hnext : evictLoop held rounds { s with evictionCandidates := rest }
        (deferred ++ (s.requeue first).toList) = _ :=
      ih hrest (Nat.le_of_succ_le_succ hrounds) fun c hc => h c (mem_cons_of_mem _ hc)
    rw [evictLoop_of_not_evictable hpop (h first mem_cons_self), hnext, append_assoc]
    cases hrequeue : s.requeue first with
    | none => simp [hrequeue]
    | some again => simp [hrequeue]

variable (rest) in
lemma evictLoop_eq_true {before : List EvictionCandidate}
    (hitems : s.evictionCandidates.items = before ++ candidate :: rest.items)
    (hbefore : ∀ c ∈ before, s.evictable held c = false)
    (h : s.evictable held candidate = true) (hrounds : before.length < rounds) :
    evictLoop held rounds s deferred = (true, s.withoutEntry candidate.key
        (rest.extend (deferred ++ before.filterMap s.requeue)), []) := by
  induction before generalizing s deferred rounds with
  | nil =>
    obtain ⟨rounds, rfl⟩ := Nat.exists_eq_add_one.mpr hrounds
    rw [evictLoop_of_evictable (PriorityQueue.pop_eq_some.mpr hitems) h, filterMap_nil,
      append_nil]
  | cons first before ih =>
    obtain ⟨rounds, rfl⟩ : ∃ n, rounds = n + 1 := Nat.exists_eq_add_one.mpr
      (Nat.zero_lt_of_lt hrounds)
    obtain ⟨middle, hpop, hmiddle⟩ := PriorityQueue.exists_pop_of_items hitems
    have hnext : evictLoop held rounds { s with evictionCandidates := middle }
        (deferred ++ (s.requeue first).toList) = _ :=
      ih hmiddle (fun c hc => hbefore c (mem_cons_of_mem _ hc)) h
        (Nat.lt_of_succ_lt_succ hrounds)
    rw [evictLoop_of_not_evictable hpop (hbefore first mem_cons_self), hnext,
      append_assoc]
    cases hrequeue : s.requeue first with
    | none => simp [hrequeue, withoutEntry]
    | some again => simp [hrequeue, withoutEntry]

end

section

variable (s : TimelineCacheStore)

def compacted : PriorityQueue EvictionCandidate :=
  s.maybeCompactEvictionCandidates.evictionCandidates

lemma maybeCompact_eq :
    s.maybeCompactEvictionCandidates = { s with evictionCandidates := s.compacted } := by
  unfold compacted maybeCompactEvictionCandidates compactEvictionCandidates
  dsimp only
  split_ifs <;> rfl

lemma compacted_items : s.compacted.items = s.evictionCandidates.items ∨
    s.compacted.items = s.evictionCandidates.items.filter s.isCurrent := by
  unfold compacted maybeCompactEvictionCandidates
  dsimp only
  split_ifs
  · exact .inl rfl
  · exact .inr rfl
  · exact .inl rfl
  · exact .inr rfl

variable {s}

lemma length_compacted (h : 0 < s.entryCount) :
    s.compacted.items.length ≤ max (s.entryCount * 4 + 8) 16 ∨
      s.compacted.items = s.evictionCandidates.items.filter s.isCurrent := by
  unfold compacted maybeCompactEvictionCandidates
  rw [if_neg h.ne']
  split_ifs with hshort
  · exact .inl hshort
  · exact .inr rfl

lemma filter_compacted :
    s.compacted.items.filter s.isCurrent = s.evictionCandidates.items.filter s.isCurrent := by
  rcases s.compacted_items with heq | heq
  · rw [heq]
  · rw [heq, filter_filter]
    simp

lemma mem_of_mem_compacted {c : EvictionCandidate} (h : c ∈ s.compacted.items) :
    c ∈ s.evictionCandidates.items := by
  rcases s.compacted_items with heq | heq
  · rwa [heq] at h
  · rw [heq] at h
    exact mem_of_mem_filter h

lemma mem_compacted {c : EvictionCandidate} (h : c ∈ s.evictionCandidates.items)
    (hcurrent : s.isCurrent c = true) : c ∈ s.compacted.items := by
  have hmem : c ∈ s.compacted.items.filter s.isCurrent := by
    rw [filter_compacted]
    exact mem_filter.mpr ⟨h, hcurrent⟩
  exact mem_of_mem_filter hmem

lemma length_compacted_le : s.compacted.items.length ≤ s.evictionCandidates.items.length := by
  rcases s.compacted_items with heq | heq
  · rw [heq]
  · rw [heq]
    exact length_filter_le _ _

end

section

variable {s s' : TimelineCacheStore} {held : List Handle}

structure Refreshed (s : TimelineCacheStore) (held : List Handle) (s' : TimelineCacheStore) :
    Prop where
  none_evictable : ∀ c ∈ s.compacted.items, s.evictable held c = false
  eq : s' = { s with evictionCandidates := s'.evictionCandidates }
  items : s'.evictionCandidates.items.Perm (s.compacted.items.filterMap s.requeue)

structure Evicted (s : TimelineCacheStore) (held : List Handle) (c : EvictionCandidate)
    (before after : List EvictionCandidate) (s' : TimelineCacheStore) : Prop where
  split : s.compacted.items = before ++ c :: after
  first : ∀ b ∈ before, s.evictable held b = false
  evictable : s.evictable held c = true
  eq : s' = s.withoutEntry c.key s'.evictionCandidates
  items : s'.evictionCandidates.items.Perm (before.filterMap s.requeue ++ after)

lemma evictOneIdleEntry_cases (s : TimelineCacheStore) (held : List Handle) :
    (∃ s', s.evictOneIdleEntry held = (false, s') ∧ s.Refreshed held s') ∨
      ∃ s' c before after, s.evictOneIdleEntry held = (true, s') ∧
        s.Evicted held c before after s' := by
  have hrounds : min s.compacted.items.length
      (max s.compacted.items.length evictionCandidateBatchLimit) = s.compacted.items.length := by
    omega
  unfold evictOneIdleEntry tryEvictIdleEntryBatch
  rw [maybeCompact_eq]
  dsimp only
  rw [hrounds]
  cases hfind : s.compacted.items.find? (s.evictable held) with
  | none =>
    have hnone : ∀ c ∈ s.compacted.items, s.evictable held c = false := by simpa using hfind
    have hloop : evictLoop held s.compacted.items.length
        { s with evictionCandidates := s.compacted } [] = _ :=
      evictLoop_eq_false rfl (Nat.le_refl _) hnone
    rw [hloop]
    refine .inl ⟨_, rfl, hnone, rfl, ?_⟩
    simpa using PriorityQueue.empty.items_extend_perm (s.compacted.items.filterMap s.requeue)
  | some c =>
    obtain ⟨hc, before, after, hsplit, hbefore⟩ := find?_eq_some_iff_append.mp hfind
    have hfirst : ∀ b ∈ before, s.evictable held b = false := by simpa using hbefore
    have hsorted : after.Pairwise (· ≤ ·) := by
      have h := s.compacted.sorted
      rw [hsplit] at h
      exact (pairwise_append.mp h).2.1.of_cons
    have hlt : before.length < s.compacted.items.length := by
      rw [hsplit, length_append, length_cons]
      omega
    have hloop : evictLoop held s.compacted.items.length
        { s with evictionCandidates := s.compacted } [] = _ :=
      evictLoop_eq_true ⟨after, hsorted⟩ hsplit hfirst hc hlt
    rw [hloop]
    refine .inr ⟨_, c, before, after, rfl, hsplit, hfirst, hc, rfl, ?_⟩
    exact PriorityQueue.items_extend_perm (before.filterMap s.requeue)

end

end Chronos.TimelineCacheStore
