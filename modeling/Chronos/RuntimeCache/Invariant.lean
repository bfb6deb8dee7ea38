import Chronos.KeyValue.Assoc
import Chronos.RuntimeCache.Eviction

/-! The representation of the cache: every cached timeline has exactly one current candidate in the
queue, outdated candidates do not pile up, and the count and the generations follow the entries. -/

namespace Chronos

open Option

namespace TimelineCacheStore

/-- With one entry the queue may be one longer: after the last removal sixteen outdated candidates
may be left, and the next insertion adds its own before a removal compacts again. -/
def QueueBounded (entries queue : Nat) : Prop :=
  queue ≤ max 16 (4 * (entries + 1) + 8) ∨ entries = 1 ∧ queue ≤ 17

structure Inv (maxEntries : Nat) (s : TimelineCacheStore) : Prop where
  capacity : s.maxEntries = maxEntries
  count : s.entryCount = s.timelines.keys.length
  room : s.entryCount ≤ maxEntries
  generations : ∀ key, key ∈ s.evictionGenerations ↔ key ∈ s.timelines
  live : ((s.evictionCandidates.items.filter s.isCurrent).map (·.key)).Perm s.timelines.keys
  lag : ∀ c ∈ s.evictionCandidates.items, s.isCurrent c = true →
    ∀ entry, s.timelines.lookup c.key = some entry → c.tick ≤ entry.lastAccessTick
  ticks : ∀ key entry, s.timelines.lookup key = some entry → entry.lastAccessTick < s.accessCounter
  fresh : ∀ c ∈ s.evictionCandidates.items, c.generation < s.evictionGenerationCounter
  bounded : QueueBounded s.entryCount s.evictionCandidates.items.length

section

variable {entries queue q' : Nat}

lemma QueueBounded.shorter (h : QueueBounded entries queue) (hle : q' ≤ queue) :
    QueueBounded entries q' := by
  unfold QueueBounded at *
  omega

lemma QueueBounded.grow (h : QueueBounded entries queue) : QueueBounded (entries + 1)
    (queue + 1) := by
  unfold QueueBounded at *
  omega

lemma QueueBounded.of_compacted (hpos : 0 < entries)
    (h : queue ≤ max (entries * 4 + 8) 16 ∨ queue ≤ entries) :
    QueueBounded (entries - 1) queue := by
  unfold QueueBounded
  omega

end

lemma inv_new (maxEntries : Nat) : (new maxEntries).Inv maxEntries where
  capacity := rfl
  count := rfl
  room := Nat.zero_le _
  generations key := Iff.rfl
  live := .refl _
  lag c hc := absurd hc List.not_mem_nil
  ticks key entry h := absurd h (by simp [new])
  fresh c hc := absurd hc List.not_mem_nil
  bounded := .inl (Nat.zero_le _)

variable {maxEntries : Nat}

section

variable {s : TimelineCacheStore} {key : String} {c : EvictionCandidate}

variable {entry : TimelineCacheEntry}

lemma mem_of_lookup (h : s.timelines.lookup key = some entry) :
    key ∈ s.timelines := AList.lookup_isSome.mp (isSome_iff_exists.mpr ⟨entry, h⟩)

lemma Inv.lookup_of_current (h : s.Inv maxEntries) (hcurrent : s.isCurrent c = true) :
    ∃ entry, s.timelines.lookup c.key = some entry := by
  have hgeneration := of_decide_eq_true hcurrent
  have hmem := AList.lookup_isSome.mp (isSome_iff_exists.mpr ⟨_, hgeneration⟩)
  exact isSome_iff_exists.mp (AList.lookup_isSome.mpr ((h.generations _).mp hmem))

lemma keys_insert_perm (h : key ∈ s.timelines) :
    (s.timelines.insert key entry).keys.Perm s.timelines.keys := by
  rw [AList.keys_insert]
  exact (List.perm_cons_erase (AList.mem_keys.mp h)).symm

end

section

variable {s : TimelineCacheStore} {key : String} {old entry : TimelineCacheEntry}

lemma Inv.overwrite (h : s.Inv maxEntries) (hlook : s.timelines.lookup key = some old)
    (hold : old.lastAccessTick ≤ entry.lastAccessTick) {counter : Nat}
    (hcounter : s.accessCounter ≤ counter) (htick : entry.lastAccessTick < counter) :
    Inv maxEntries { s.put key entry with accessCounter := counter } := by
  have hmem : key ∈ s.timelines := mem_of_lookup hlook
  have hperm : (s.timelines.insert key entry).keys.Perm s.timelines.keys := keys_insert_perm hmem
  refine ⟨h.capacity, h.count.trans hperm.length_eq.symm, h.room, fun other => ?_,
    h.live.trans hperm.symm, fun c hc hcurrent e he => ?_, fun other e he => ?_, h.fresh, h.bounded⟩
  · have hinsert : other ∈ s.timelines.insert key entry ↔ other ∈ s.timelines :=
      (AList.mem_insert _).trans (or_iff_right_of_imp fun hkey => hkey ▸ hmem)
    exact (h.generations other).trans hinsert.symm
  · rcases KeyValue.lookup_insert_eq_some he with ⟨hkey, rfl⟩ | ⟨-, he⟩
    · exact (h.lag c hc hcurrent old (hkey ▸ hlook)).trans hold
    · exact h.lag c hc hcurrent e he
  rcases KeyValue.lookup_insert_eq_some he with ⟨-, rfl⟩ | ⟨-, he⟩
  · exact htick
  · exact (h.ticks other e he).trans_le hcounter

lemma Inv.stamp (h : s.Inv maxEntries) (hlook : s.timelines.lookup key = some old) :
    (s.stamp key entry).Inv maxEntries :=
  h.overwrite hlook (h.ticks key old hlook).le (Nat.le_succ _) (Nat.lt_succ_self _)

lemma Inv.put (h : s.Inv maxEntries) (hlook : s.timelines.lookup key = some old)
    (hsame : entry.lastAccessTick = old.lastAccessTick) : (s.put key entry).Inv maxEntries :=
  h.overwrite hlook hsame.ge (Nat.le_refl s.accessCounter) (hsame.trans_lt (h.ticks key old hlook))

lemma Inv.touchEntry (h : s.Inv maxEntries) (hlook : s.timelines.lookup key = some old)
    (force : Bool) :
    (s.touchEntry key old force).Inv maxEntries := by
  unfold TimelineCacheStore.touchEntry
  split_ifs
  · exact h.stamp hlook
  · exact h.put hlook rfl
  · exact h.stamp hlook

lemma Inv.timelineHandle (h : s.Inv maxEntries) (key : String) :
    (s.timelineHandle key).2.Inv maxEntries := by
  unfold TimelineCacheStore.timelineHandle
  split
  · next entry hlook => exact h.touchEntry hlook false
  · exact h

end

section

variable {s : TimelineCacheStore} {key : String}

lemma insertVacant_eq (h : s.Inv maxEntries) (hnew : s.timelines.lookup key = none)
    (timeline : Handle) :
    s.insertVacant key timeline = { s with
        timelines := s.timelines.insert key ⟨timeline, s.accessCounter, 1⟩
        accessCounter := s.accessCounter + 1
        entryCount := s.entryCount + 1
        evictionGenerations := s.evictionGenerations.insert key s.evictionGenerationCounter
        evictionGenerationCounter := s.evictionGenerationCounter + 1
        evictionCandidates := s.evictionCandidates.push
          ⟨s.accessCounter, s.evictionGenerationCounter, key⟩ } := by
  have hgeneration := AList.lookup_eq_none.mpr fun hmem =>
      AList.lookup_eq_none.mp hnew ((h.generations key).mp hmem)
  simp only [insertVacant, TimelineCacheStore.stamp, put, recordEvictionCandidate,
    ensureEvictionGeneration, hgeneration]

lemma isCurrent_insert {generations : AList fun _ : String => Nat} {generation : Nat}
    {c : EvictionCandidate} (hnew : generations.lookup key = none)
      (hfresh : c.generation < generation) :
    (generations.insert key generation).lookup c.key = some c.generation ↔
      generations.lookup c.key = some c.generation := by
  by_cases hkey : c.key = key
  · rw [hkey, AList.lookup_insert, hnew]
    constructor
    · intro heq
      exact absurd (some.inj heq) hfresh.ne'
    · intro heq
      cases heq
  · rw [AList.lookup_insert_ne hkey]

lemma Inv.insertVacant (h : s.Inv maxEntries) (hnew : s.timelines.lookup key = none)
    (hroom : s.entryCount < maxEntries) (timeline : Handle) :
    (s.insertVacant key timeline).Inv maxEntries := by
  rw [insertVacant_eq h hnew]
  have hnot : key ∉ s.timelines := AList.lookup_eq_none.mp hnew
  have hkeys : (s.timelines.insert key ⟨timeline, s.accessCounter, 1⟩).keys =
      key :: s.timelines.keys := by
    rw [AList.keys_insert, List.erase_of_not_mem (mt AList.mem_keys.mpr hnot)]
  have hgeneration := AList.lookup_eq_none.mpr fun hmem => hnot ((h.generations key).mp hmem)
  let added : EvictionCandidate := ⟨s.accessCounter, s.evictionGenerationCounter, key⟩
  let current : EvictionCandidate → Bool := fun c =>
    (s.evictionGenerations.insert key s.evictionGenerationCounter).lookup c.key = some c.generation
  have hcurrent : ∀ c ∈ s.evictionCandidates.items, current c = s.isCurrent c := fun c hc =>
    decide_eq_decide.mpr (isCurrent_insert hgeneration (h.fresh c hc))
  have hadded : current added = true := decide_eq_true (AList.lookup_insert _)
  have hpush : (s.evictionCandidates.push added).items.Perm (added :: s.evictionCandidates.items) :=
    PriorityQueue.items_push_perm
  refine ⟨h.capacity, ?_, hroom, fun other => ?_, ?_, fun c hc hcur e he => ?_,
    fun other e he => ?_, fun c hc => ?_, ?_⟩
  · rw [hkeys, List.length_cons, h.count]
  · rw [AList.mem_insert, AList.mem_insert, h.generations]
  · have hfilter := (hpush.filter current).map (·.key)
    rw [List.filter_cons_of_pos hadded, List.filter_congr hcurrent, List.map_cons] at hfilter
    rw [hkeys]
    exact hfilter.trans (h.live.cons key)
  · rcases List.mem_cons.mp (hpush.mem_iff.mp hc) with rfl | hc
    · rcases KeyValue.lookup_insert_eq_some he with ⟨-, rfl⟩ | ⟨hne, -⟩
      · exact Nat.le_refl _
      · exact absurd rfl hne
    have hcur : s.isCurrent c = true := (hcurrent c hc).symm.trans hcur
    obtain ⟨e', he'⟩ := h.lookup_of_current hcur
    have hne : c.key ≠ key := by
      rintro rfl
      cases hnew.symm.trans he'
    exact h.lag c hc hcur e (AList.lookup_insert_ne hne ▸ he)
  · rcases KeyValue.lookup_insert_eq_some he with ⟨-, rfl⟩ | ⟨-, he⟩
    · exact Nat.lt_succ_self _
    · exact (h.ticks other e he).trans (Nat.lt_succ_self _)
  · rcases List.mem_cons.mp (hpush.mem_iff.mp hc) with rfl | hc
    · exact Nat.lt_succ_self _
    · exact (h.fresh c hc).trans (Nat.lt_succ_self _)
  · rw [hpush.length_eq, List.length_cons]
    exact h.bounded.grow

end

section

variable {s : TimelineCacheStore} {c c' : EvictionCandidate} {held : List Handle}

lemma requeue_eq_some (hrequeue : s.requeue c = some c') :
    s.isCurrent c = true ∧ c'.key = c.key ∧ c'.generation = c.generation ∧
      ∃ entry, s.timelines.lookup c.key = some entry ∧ c'.tick = entry.lastAccessTick := by
  obtain ⟨hcurrent, hentry⟩ := ite_none_right_eq_some.mp hrequeue
  obtain ⟨entry, hlook, rfl⟩ := map_eq_some_iff.mp hentry
  exact ⟨hcurrent, rfl, rfl, entry, hlook, rfl⟩

lemma Inv.map_key_requeue (h : s.Inv maxEntries) (l : List EvictionCandidate) :
    ((l.filterMap s.requeue).filter s.isCurrent).map (·.key) =
      (l.filter s.isCurrent).map (·.key) := by
  induction l with
  | nil => rfl
  | cons c l ih =>
    by_cases hcurrent : s.isCurrent c = true
    · obtain ⟨entry, hlook⟩ := h.lookup_of_current hcurrent
      have hrequeue : s.requeue c = some { c with tick := entry.lastAccessTick } := by
        simp [requeue, hcurrent, hlook]
      have hagain : s.isCurrent { c with tick := entry.lastAccessTick } = true := hcurrent
      rw [List.filterMap_cons_some hrequeue, List.filter_cons_of_pos hagain,
        List.filter_cons_of_pos hcurrent, List.map_cons, List.map_cons, ih]
    · have hrequeue : s.requeue c = none := by simp [requeue, hcurrent]
      rw [List.filterMap_cons_none hrequeue, List.filter_cons_of_neg hcurrent, ih]

lemma Inv.of_requeue (h : s.Inv maxEntries) (hc : c ∈ s.evictionCandidates.items)
    (hrequeue : s.requeue c = some c') :
    (∀ entry, s.timelines.lookup c'.key = some entry → c'.tick ≤ entry.lastAccessTick) ∧
      c'.generation < s.evictionGenerationCounter := by
  obtain ⟨-, hkey, hgeneration, entry, hlook, htick⟩ := requeue_eq_some hrequeue
  refine ⟨fun e he => ?_, hgeneration ▸ h.fresh c hc⟩
  rw [hkey, hlook] at he
  exact some.inj he ▸ htick.le

lemma Inv.refreshed (h : s.Inv maxEntries) {s' : TimelineCacheStore} (hs : s.Refreshed held s') :
    s'.Inv maxEntries := by
  have hitems := hs.items
  rw [hs.eq]
  have hlive := ((hitems.filter s.isCurrent).map (·.key)).trans
    (.of_eq ((h.map_key_requeue s.compacted.items).trans (congrArg _ filter_compacted)))
  have hmem : ∀ c' ∈ s'.evictionCandidates.items, ∃ c ∈ s.evictionCandidates.items,
      s.requeue c = some c' := by
    intro c' hc'
    obtain ⟨c, hc, hrequeue⟩ := List.mem_filterMap.mp (hitems.mem_iff.mp hc')
    exact ⟨c, mem_of_mem_compacted hc, hrequeue⟩
  refine ⟨h.capacity, h.count, h.room, h.generations, hlive.trans h.live,
    fun c' hc' _ => ?_, h.ticks, fun c' hc' => ?_, ?_⟩
  · obtain ⟨c, hc, hrequeue⟩ := hmem c' hc'
    exact (h.of_requeue hc hrequeue).1
  · obtain ⟨c, hc, hrequeue⟩ := hmem c' hc'
    exact (h.of_requeue hc hrequeue).2
  refine h.bounded.shorter ?_
  rw [hitems.length_eq]
  exact (List.length_filterMap_le _ _).trans length_compacted_le

end

section

variable {s : TimelineCacheStore} {key : String} {held : List Handle}
  {q : PriorityQueue EvictionCandidate} {l : List EvictionCandidate}

lemma isCurrent_withoutEntry (key : String) (q : PriorityQueue EvictionCandidate)
    (c : EvictionCandidate) :
    (s.withoutEntry key q).isCurrent c = (decide (c.key ≠ key) && s.isCurrent c) := by
  by_cases hkey : c.key = key
  · have herased : (s.evictionGenerations.erase key).lookup c.key = none := by
      rw [hkey, AList.lookup_erase]
    simp [isCurrent, withoutEntry, herased, hkey]
  have hkept : (s.evictionGenerations.erase key).lookup c.key =
      s.evictionGenerations.lookup c.key := AList.lookup_erase_ne hkey
  simp [isCurrent, withoutEntry, hkept, hkey]

lemma map_key_filter_withoutEntry : (l.filter (s.withoutEntry key q).isCurrent).map (·.key) =
      ((l.filter s.isCurrent).map (·.key)).filter (· ≠ key) := by
  have hcurrent : (s.withoutEntry key q).isCurrent =
      fun c => decide (c.key ≠ key) && s.isCurrent c := by
    funext c
    exact isCurrent_withoutEntry key q c
  rw [hcurrent, List.filter_map, List.filter_filter]
  rfl

lemma Inv.live_withoutEntry (h : s.Inv maxEntries) (hq : q.items.Perm l)
    (hl : ((l.filter s.isCurrent).map (·.key)).filter (· ≠ key) =
      ((s.evictionCandidates.items.filter s.isCurrent).map (·.key)).filter (· ≠ key)) :
    ((q.items.filter (s.withoutEntry key q).isCurrent).map (·.key)).Perm
      (s.timelines.erase key).keys := by
  have hfilter : s.timelines.keys.filter (· ≠ key) = (s.timelines.erase key).keys := by
    rw [AList.keys_erase, s.timelines.keys_nodup.erase_eq_filter]
    exact List.filter_congr fun other _ => by simp [bne, beq_eq_decide]
  rw [map_key_filter_withoutEntry, ← hfilter]
  exact (((hq.filter _).map _).filter _).trans (hl ▸ h.live.filter _)

lemma Inv.withoutEntry (h : s.Inv maxEntries) (hkey : key ∈ s.timelines) (hq : q.items.Perm l)
    (hl : ((l.filter s.isCurrent).map (·.key)).filter (· ≠ key) =
      ((s.evictionCandidates.items.filter s.isCurrent).map (·.key)).filter (· ≠ key))
    (hlag : ∀ c ∈ l, s.isCurrent c = true → ∀ entry, s.timelines.lookup c.key = some entry →
      c.tick ≤ entry.lastAccessTick)
    (hfresh : ∀ c ∈ l, c.generation < s.evictionGenerationCounter)
    (hbounded : QueueBounded (s.entryCount - 1) q.items.length) :
    (s.withoutEntry key q).Inv maxEntries := by
  refine ⟨h.capacity, ?_, (Nat.sub_le _ _).trans h.room, fun other => ?_,
    h.live_withoutEntry hq hl, fun c hc hcurrent entry hentry => ?_, fun other entry hentry => ?_,
    fun c hc => hfresh c (hq.mem_iff.mp hc), hbounded⟩
  · show s.entryCount - 1 = (s.timelines.erase key).keys.length
    rw [AList.keys_erase, List.length_erase_of_mem (AList.mem_keys.mp hkey), h.count]
  · show other ∈ s.evictionGenerations.erase key ↔ other ∈ s.timelines.erase key
    rw [AList.mem_erase, AList.mem_erase, h.generations]
  · rw [isCurrent_withoutEntry, Bool.and_eq_true] at hcurrent
    exact hlag c (hq.mem_iff.mp hc) hcurrent.2 entry (KeyValue.lookup_erase_eq_some hentry).2
  · exact h.ticks other entry (KeyValue.lookup_erase_eq_some hentry).2

lemma Inv.length_compacted_le (h : s.Inv maxEntries) (hpos : 0 < s.entryCount) :
    s.compacted.items.length ≤ max (s.entryCount * 4 + 8) 16 ∨
      s.compacted.items.length ≤ s.entryCount := by
  rcases length_compacted hpos with hshort | hcurrent
  · exact .inl hshort
  right
  have hlen := h.live.length_eq
  rw [List.length_map, ← hcurrent] at hlen
  rw [hlen, h.count]

variable {c : EvictionCandidate}

lemma evictable_mem (h : s.evictable held c = true) : c.key ∈ s.timelines := by
  obtain ⟨entry, hlook, -⟩ := (any_eq_true ..).mp ((Bool.and_eq_true _ _).mp h).2
  exact mem_of_lookup hlook

lemma Inv.entryCount_pos (h : s.Inv maxEntries) (hkey : key ∈ s.timelines) : 0 < s.entryCount := by
  rw [h.count]
  exact List.length_pos_of_mem (AList.mem_keys.mp hkey)

lemma Inv.evicted (h : s.Inv maxEntries) {before after : List EvictionCandidate}
    {s' : TimelineCacheStore} (hs : s.Evicted held c before after s') : s'.Inv maxEntries := by
  have hmem : c.key ∈ s.timelines := evictable_mem hs.evictable
  have hpos := h.entryCount_pos hmem
  have hcurrent : s.isCurrent c = true := ((Bool.and_eq_true _ _).mp hs.evictable).1
  have hold : ∀ x ∈ before ++ c :: after, x ∈ s.evictionCandidates.items := fun x hx =>
    mem_of_mem_compacted (hs.split ▸ hx)
  have hknown : ∀ x ∈ before.filterMap s.requeue ++ after,
      (s.isCurrent x = true → ∀ entry, s.timelines.lookup x.key = some entry →
        x.tick ≤ entry.lastAccessTick) ∧ x.generation < s.evictionGenerationCounter := by
    intro x hx
    rcases List.mem_append.mp hx with hagain | hafter
    · obtain ⟨b, hb, hrequeue⟩ := List.mem_filterMap.mp hagain
      have hrequeued := h.of_requeue (hold b (List.mem_append_left _ hb)) hrequeue
      exact ⟨fun _ => hrequeued.1, hrequeued.2⟩
    · have hx := hold x (List.mem_append_right _ (List.mem_cons_of_mem _ hafter))
      exact ⟨h.lag x hx, h.fresh x hx⟩
  rw [hs.eq]
  refine h.withoutEntry hmem hs.items ?_ (fun x hx => (hknown x hx).1)
    (fun x hx => (hknown x hx).2) ?_
  · rw [List.filter_append, List.map_append, h.map_key_requeue, ← filter_compacted, hs.split]
    simp [List.filter_cons_of_pos hcurrent]
  have hlen : s'.evictionCandidates.items.length ≤ s.compacted.items.length := by
    rw [hs.items.length_eq, hs.split, List.length_append, List.length_append, List.length_cons]
    have hle := List.length_filterMap_le s.requeue before
    omega
  exact (QueueBounded.of_compacted hpos (h.length_compacted_le hpos)).shorter hlen

def detached (s : TimelineCacheStore) (key : String) : TimelineCacheStore :=
  { s with
    timelines := s.timelines.erase key
    evictionGenerations := s.evictionGenerations.erase key }

lemma removeTimeline_eq {entry : TimelineCacheEntry} (h : s.timelines.lookup key = some entry) :
    s.removeTimeline key = s.withoutEntry key (s.detached key).compacted := by
  have hcompact : maybeCompactEvictionCandidates { s with
        timelines := s.timelines.erase key
        evictionGenerations := s.evictionGenerations.erase key } =
      { s.detached key with evictionCandidates := (s.detached key).compacted } :=
    maybeCompact_eq (s.detached key)
  unfold removeTimeline
  rw [h]
  dsimp only
  rw [hcompact]
  rfl

lemma Inv.removeTimeline (h : s.Inv maxEntries) (key : String) :
    (s.removeTimeline key).Inv maxEntries := by
  rcases hlook : s.timelines.lookup key with _ | entry
  · unfold TimelineCacheStore.removeTimeline
    rw [hlook]
    exact h
  have hmem : key ∈ s.timelines := mem_of_lookup hlook
  have hpos := h.entryCount_pos hmem
  have hold : ∀ c ∈ (s.detached key).compacted.items, c ∈ s.evictionCandidates.items :=
    fun c hc => mem_of_mem_compacted (s := s.detached key) hc
  have hkeys : (((s.detached key).compacted.items.filter s.isCurrent).map (·.key)).filter
      (· ≠ key) = ((s.evictionCandidates.items.filter s.isCurrent).map (·.key)).filter
      (· ≠ key) := by
    rw [← map_key_filter_withoutEntry (q := s.evictionCandidates),
      ← map_key_filter_withoutEntry (q := s.evictionCandidates)]
    exact congrArg _ (filter_compacted (s := s.detached key))
  rw [removeTimeline_eq hlook]
  refine h.withoutEntry hmem (.refl _) hkeys (fun c hc => h.lag c (hold c hc))
    (fun c hc => h.fresh c (hold c hc)) (QueueBounded.of_compacted hpos ?_)
  rcases length_compacted (s := s.detached key) hpos with hshort | hcurrent
  · exact .inl hshort
  right
  have hlive := h.live.length_eq
  have hfewer : (s.evictionCandidates.items.filter (s.detached key).isCurrent).length ≤
      (s.evictionCandidates.items.filter s.isCurrent).length := by
    rw [← List.countP_eq_length_filter, ← List.countP_eq_length_filter]
    refine List.countP_mono_left fun c _ hc => ?_
    exact decide_eq_true (KeyValue.lookup_erase_eq_some (of_decide_eq_true hc)).2
  rw [List.length_map] at hlive
  rw [hcurrent, h.count, ← hlive]
  exact hfewer

end

section

variable {s : TimelineCacheStore} {key : String} {held : List Handle}

lemma Inv.clear (h : s.Inv maxEntries) : s.clear.Inv maxEntries where
  capacity := h.capacity
  count := rfl
  room := Nat.zero_le _
  generations _ := Iff.rfl
  live := .refl _
  lag _ hc := absurd hc List.not_mem_nil
  ticks _ _ hlookup := absurd hlookup (by simp [TimelineCacheStore.clear])
  fresh _ hc := absurd hc List.not_mem_nil
  bounded := .inl (Nat.zero_le _)

lemma makeRoom_cases (s : TimelineCacheStore) (held : List Handle) :
    (s.entryCount < s.maxEntries ∧ s.makeRoom held = (true, s)) ∨
    (s.maxEntries ≤ s.entryCount ∧ ∃ s', s.makeRoom held = (false, s') ∧ s.Refreshed held s') ∨
    (s.maxEntries ≤ s.entryCount ∧ ∃ s' c before after, s.makeRoom held = (true, s') ∧
      s.Evicted held c before after s') := by
  unfold makeRoom
  by_cases hfull : s.maxEntries ≤ s.entryCount
  · rw [if_pos hfull]
    rcases evictOneIdleEntry_cases s held with hfails | hevicts
    · exact .inr (.inl ⟨hfull, hfails⟩)
    · exact .inr (.inr ⟨hfull, hevicts⟩)
  · rw [if_neg hfull]
    exact .inl ⟨Nat.lt_of_not_le hfull, rfl⟩

variable {s' : TimelineCacheStore}

lemma Inv.makeRoom_false (h : s.Inv maxEntries) (hroom : s.makeRoom held = (false, s')) :
    s'.Inv maxEntries := by
  rcases makeRoom_cases s held with ⟨-, heq⟩ | ⟨-, s1, heq, hs1⟩ | ⟨-, s1, c, before, after, heq, -⟩
  · cases heq.symm.trans hroom
  · cases heq.symm.trans hroom
    exact h.refreshed hs1
  · cases heq.symm.trans hroom

lemma Inv.makeRoom_true (h : s.Inv maxEntries) (hnew : s.timelines.lookup key = none)
    (hroom : s.makeRoom held = (true, s')) :
    s'.Inv maxEntries ∧ s'.timelines.lookup key = none ∧ s'.entryCount < maxEntries := by
  rcases makeRoom_cases s held with
    ⟨hlt, heq⟩ | ⟨-, s1, heq, -⟩ | ⟨hfull, s1, c, before, after, heq, hs1⟩
  · cases heq.symm.trans hroom
    exact ⟨h, hnew, h.capacity ▸ hlt⟩
  · cases heq.symm.trans hroom
  cases heq.symm.trans hroom
  have hpos := h.entryCount_pos (evictable_mem hs1.evictable)
  have hle := h.room
  refine ⟨h.evicted hs1, ?_, ?_⟩
  · rw [hs1.eq]
    show (s.timelines.erase c.key).lookup key = none
    by_cases hkey : key = c.key
    · rw [hkey, AList.lookup_erase]
    · rw [AList.lookup_erase_ne hkey, hnew]
  · rw [hs1.eq]
    show s.entryCount - 1 < maxEntries
    omega

lemma Inv.insertTimeline (h : s.Inv maxEntries) (held : List Handle) (key : String)
    (timeline : Handle) :
    (s.insertTimeline held key timeline).2.Inv maxEntries := by
  unfold TimelineCacheStore.insertTimeline
  split
  · next existing hlook => exact h.stamp hlook
  · next hnew =>
    split
    · next s' hroom => exact h.makeRoom_false hroom
    · next s' hroom =>
      obtain ⟨hs', hnew', hlt⟩ := h.makeRoom_true hnew hroom
      exact hs'.insertVacant hnew' hlt timeline

lemma timelineHandleOrInsertWith_of_new (hnew : s.timelines.lookup key = none) (timeline : Handle) :
    Prod.map (Except.map fun _ => ()) id (s.timelineHandleOrInsertWith held key timeline) =
      s.insertTimeline held key timeline := by
  rw [timelineHandleOrInsertWith, TimelineCacheStore.insertTimeline, hnew]
  rcases s.makeRoom held with ⟨_ | _, s'⟩ <;> rfl

lemma Inv.timelineHandleOrInsertWith (h : s.Inv maxEntries) (held : List Handle) (key : String)
    (timeline : Handle) : (s.timelineHandleOrInsertWith held key timeline).2.Inv maxEntries := by
  rcases hlook : s.timelines.lookup key with _ | existing
  · have hinsert := h.insertTimeline held key timeline
    rwa [← timelineHandleOrInsertWith_of_new hlook] at hinsert
  · rw [TimelineCacheStore.timelineHandleOrInsertWith, hlook]
    exact h.touchEntry hlook false

end

section

variable {s : TimelineCacheStore} {key : String} {entry : TimelineCacheEntry}

lemma Inv.exists_candidate (h : s.Inv maxEntries) (hlook : s.timelines.lookup key = some entry) :
    ∃ generation candidate, s.evictionGenerations.lookup key = some generation ∧
      (s.evictionCandidates.items.filter fun c => c.key = key ∧ c.generation = generation) =
        [candidate] ∧ candidate.tick ≤ entry.lastAccessTick := by
  have hmem : key ∈ s.timelines := mem_of_lookup hlook
  obtain ⟨generation, hgeneration⟩ : ∃ g, s.evictionGenerations.lookup key = some g :=
    isSome_iff_exists.mp (AList.lookup_isSome.mpr ((h.generations key).mpr hmem))
  have hiff : ∀ c ∈ s.evictionCandidates.items, decide (c.key = key ∧ c.generation = generation) =
        (decide (c.key = key) && s.isCurrent c) := by
    intro c _
    by_cases hkey : c.key = key
    · have hcurrent : s.isCurrent c = decide (generation = c.generation) := by
        rw [isCurrent, hkey, hgeneration]
        simp
      simp [hkey, hcurrent, eq_comm]
    · simp [hkey]
  have hone : (s.evictionCandidates.items.filter fun c =>
      c.key = key ∧ c.generation = generation).length = 1 := by
    have hcount := h.live.count_eq key
    rw [s.timelines.keys_nodup.count, if_pos (AList.mem_keys.mp hmem)] at hcount
    rw [List.count, List.countP_map, List.countP_eq_length_filter] at hcount
    rw [List.filter_congr hiff, ← List.filter_filter, ← hcount]
    exact congrArg List.length (List.filter_congr fun c _ => by simp [beq_eq_decide])
  obtain ⟨candidate, hcandidate⟩ := List.length_eq_one_iff.mp hone
  refine ⟨generation, candidate, hgeneration, hcandidate, ?_⟩
  have hc := List.mem_filter.mp (hcandidate ▸ List.mem_singleton_self candidate)
  obtain ⟨hkey, hgen⟩ := of_decide_eq_true hc.2
  have hcurrent : s.isCurrent candidate = true := decide_eq_true (by rw [hkey, hgeneration, hgen])
  exact h.lag candidate hc.1 hcurrent entry (hkey ▸ hlook)

end

end TimelineCacheStore

namespace CacheWorld

variable {w w' : CacheWorld} {call : CacheCall}

lemma getOrInsert_store {key : String} {timeline : Handle} : (w.getOrInsert key timeline).2.store =
      (w.store.timelineHandleOrInsertWith w.held key timeline).2 := by
  unfold getOrInsert
  split <;> simp_all

variable {maxEntries : Nat}

lemma inv_step (h : w.store.Inv maxEntries) (hstep : w.step call = some w') :
    w'.store.Inv maxEntries := by
  cases call with
  | createHandle =>
    cases hstep
    exact h
  | cloneHandle timeline =>
    obtain ⟨-, heq⟩ := ite_none_right_eq_some.mp hstep
    cases heq
    exact h
  | dropHandle timeline =>
    obtain ⟨-, heq⟩ := ite_none_right_eq_some.mp hstep
    cases heq
    exact h
  | timelineHandle key =>
    cases hstep
    exact h.timelineHandle key
  | timelineHandleOrInsertWith key build =>
    obtain ⟨timeline, -, rfl⟩ := map_eq_some_iff.mp hstep
    rw [getOrInsert_store]
    exact h.timelineHandleOrInsertWith w.held key timeline
  | insertTimeline key timeline =>
    obtain ⟨-, heq⟩ := ite_none_right_eq_some.mp hstep
    cases heq
    exact h.insertTimeline w.held key timeline
  | removeTimeline key =>
    cases hstep
    exact h.removeTimeline key
  | clear =>
    cases hstep
    exact h.clear

lemma Reachable.inv (h : Reachable maxEntries w) : w.store.Inv maxEntries :=
  Transition.Reach.invariant (I := fun w => w.store.Inv maxEntries) h
    (TimelineCacheStore.inv_new maxEntries) fun _ _ _ hs _ hstep => inv_step hs hstep

end CacheWorld

/-- After every sequential history the count is that of the cached timelines and within the
capacity, the keys with a generation are the cached ones, each of them has exactly one candidate of
its generation, queued with a tick not later than its own, and the queue is at most
`max 16 (4 * (entries + 1) + 8)` long, or 17 with one entry. -/
theorem runtime_cache_representation (maxEntries : Nat) (w : CacheWorld)
    (hw : w.Reachable maxEntries) :
    w.store.entryCount = w.store.timelines.keys.length ∧ w.store.entryCount ≤ maxEntries ∧
    (∀ key, key ∈ w.store.evictionGenerations ↔ key ∈ w.store.timelines) ∧
    (∀ key entry, w.store.timelines.lookup key = some entry → ∃ generation candidate,
      w.store.evictionGenerations.lookup key = some generation ∧
      (w.store.evictionCandidates.items.filter fun c => c.key = key ∧ c.generation = generation) =
        [candidate] ∧ candidate.tick ≤ entry.lastAccessTick) ∧
    TimelineCacheStore.QueueBounded w.store.entryCount w.store.evictionCandidates.items.length := by
  have h := hw.inv
  exact ⟨h.count, h.room, h.generations, fun key entry hlook => h.exists_candidate hlook, h.bounded⟩

def churnCalls : List CacheCall :=
  (List.range 16).flatMap (fun timeline =>
    [.createHandle, .insertTimeline "a" timeline, .removeTimeline "a"]) ++
  [.createHandle, .insertTimeline "a" 16]

theorem runtime_cache_representation_of_churn :
    ∃ w, CacheWorld.Reachable 1 w ∧ w.store.entryCount = 1 ∧
      w.store.evictionCandidates.items.length ≤ 17 := by
  have hrun : (Transition.run CacheWorld.step (fun _ _ => True) churnCalls (.new 1)).any
      (fun w => w.store.entryCount = 1) = true := by decide +kernel
  obtain ⟨w, hw, hcount⟩ := Transition.Reach.exists_of_run hrun
  have hone : w.store.entryCount = 1 := of_decide_eq_true hcount
  have hbounded := (runtime_cache_representation 1 w hw).2.2.2.2
  rw [hone, TimelineCacheStore.QueueBounded] at hbounded
  exact ⟨w, hw, hone, by omega⟩

/-- The seventeenth insertion finds sixteen outdated candidates, one more than the bound allows
together with its own. -/
theorem runtime_cache_queue_exceeds_bound : ∃ w, CacheWorld.Reachable 1 w ∧
      ¬ w.store.evictionCandidates.items.length ≤ max 16 (4 * (w.store.entryCount + 1) + 8) := by
  have hrun : (Transition.run CacheWorld.step (fun _ _ => True) churnCalls (.new 1)).any
      (fun w => w.store.entryCount = 1 ∧ w.store.evictionCandidates.items.length = 17) = true := by
    decide +kernel
  obtain ⟨w, hw, hend⟩ := Transition.Reach.exists_of_run hrun
  obtain ⟨hone, hlen⟩ := of_decide_eq_true hend
  refine ⟨w, hw, ?_⟩
  rw [hone, hlen]
  decide

end Chronos
