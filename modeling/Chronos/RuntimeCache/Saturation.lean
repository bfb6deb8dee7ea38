import Chronos.RuntimeCache.Invariant

/-! When an insertion into a full cache fails, and which entry it evicts. -/

namespace Chronos

open TimelineCacheStore List

inductive Insertion where
  | getOrInsert (build : Build)
  | insert (timeline : Handle)
  deriving DecidableEq

namespace CacheWorld

variable (w : CacheWorld)

def attempt (key : String) : Insertion → Option (Except TsoError Unit × CacheWorld)
  | .getOrInsert build => (w.built build).map fun timeline =>
    ((w.getOrInsert key timeline).1.map fun _ => (), (w.getOrInsert key timeline).2)
  | .insert timeline => if timeline ∈ w.held then some (w.insert key timeline) else none

def Full : Prop := w.store.maxEntries ≤ w.store.entryCount

def AllHeld : Prop :=
  ∀ key entry, w.store.timelines.lookup key = some entry → entry.timeline ∈ w.held

structure Evictable (key : String) (entry : TimelineCacheEntry) : Prop where
  cached : w.store.timelines.lookup key = some entry
  not_held : entry.timeline ∉ w.held
  sole : ∀ other entry', w.store.timelines.lookup other = some entry' →
    entry'.timeline = entry.timeline → other = key
  queued : ∃ c ∈ w.store.evictionCandidates.items,
    w.store.isCurrent c = true ∧ c.key = key ∧ c.tick = entry.lastAccessTick

def evictedKeys (w' : CacheWorld) : List String :=
  w.store.timelines.keys.filter fun key => (w'.store.timelines.lookup key).isNone

end CacheWorld

section

variable {s : TimelineCacheStore} {held : List Handle} {key : String} {entry : TimelineCacheEntry}

lemma mem_entries (h : s.timelines.lookup key = some entry) :
    (⟨key, entry⟩ : Sigma fun _ : String => TimelineCacheEntry) ∈ s.timelines.entries :=
  AList.mem_lookup_iff.mp h

lemma strongCount_eq_one_iff (hlook : s.timelines.lookup key = some entry) :
    s.strongCount held entry.timeline = 1 ↔ entry.timeline ∉ held ∧
      ∀ other entry', s.timelines.lookup other = some entry' →
        entry'.timeline = entry.timeline → other = key := by
  have hpos : 0 < s.timelines.entries.countP fun e => e.2.timeline = entry.timeline :=
    countP_pos_iff.mpr ⟨_, mem_entries hlook, decide_eq_true rfl⟩
  have hsum : s.strongCount held entry.timeline = 1 ↔ held.count entry.timeline = 0 ∧
      (s.timelines.entries.countP fun e => e.2.timeline = entry.timeline) = 1 := by
    unfold strongCount
    omega
  rw [hsum, count_eq_zero, countP_eq_length_filter]
  refine and_congr_right fun _ => ⟨fun hone other entry' hother hsame => ?_, fun hsole => ?_⟩
  · obtain ⟨only, honly⟩ := length_eq_one_iff.mp hone
    have hkey :=
      mem_singleton.mp (honly ▸ mem_filter.mpr ⟨mem_entries hlook, decide_eq_true rfl⟩)
    have hother :=
      mem_singleton.mp (honly ▸ mem_filter.mpr ⟨mem_entries hother, decide_eq_true hsame⟩)
    exact congrArg Sigma.fst (hother.trans hkey.symm)
  · have hall : ∀ e ∈ s.timelines.entries.filter fun e => e.2.timeline = entry.timeline,
        ⟨key, entry⟩ = e := by
      rintro ⟨other, entry'⟩ he
      obtain ⟨hmem, hsame⟩ := mem_filter.mp he
      have hother := AList.mem_lookup_iff.mpr hmem
      obtain rfl := hsole other entry' hother (of_decide_eq_true hsame)
      cases hlook.symm.trans hother
      rfl
    have hcnt := count_eq_length.mpr hall
    have hnodup := nodup_iff_count_le_one.mp (s.timelines.nodupKeys.nodup.filter
      fun e => decide (e.2.timeline = entry.timeline)) ⟨key, entry⟩
    rw [countP_eq_length_filter] at hpos
    omega

end

section

variable {w w' : CacheWorld} {maxEntries : Nat} {key : String} {call : Insertion}
  {res : Except TsoError Unit}

open CacheWorld

lemma evictable_iff {c : EvictionCandidate} (hc : c ∈ w.store.evictionCandidates.items) :
    w.store.evictable w.held c = true ↔ w.store.isCurrent c = true ∧
      ∃ entry, w.Evictable c.key entry ∧ c.tick = entry.lastAccessTick := by
  constructor
  · intro h
    obtain ⟨hcurrent, hentry⟩ := (Bool.and_eq_true _ _).mp h
    obtain ⟨entry, hlook, hidle⟩ := (Option.any_eq_true ..).mp hentry
    obtain ⟨htick, hcount⟩ := (Bool.and_eq_true _ _).mp hidle
    have htick := of_decide_eq_true htick
    obtain ⟨hheld, hsole⟩ := (strongCount_eq_one_iff hlook).mp (of_decide_eq_true hcount)
    exact ⟨hcurrent, entry, ⟨hlook, hheld, hsole, c, hc, hcurrent, rfl, htick.symm⟩, htick.symm⟩
  · rintro ⟨hcurrent, entry, hentry, htick⟩
    have hcount := (strongCount_eq_one_iff hentry.cached).mpr ⟨hentry.not_held, hentry.sole⟩
    simp [evictable, hcurrent, hentry.cached, hcount, htick]

/-- What an insertion under a new key can do: there is room, nothing can be evicted, or one entry is
evicted first. -/
inductive InsertionOutcome (w : CacheWorld) (key : String) :
    Except TsoError Unit → CacheWorld → Prop where
  | room {w' : CacheWorld} {timeline : Handle} : ¬w.Full →
      w'.store = w.store.insertVacant key timeline → InsertionOutcome w key (.ok ()) w'
  | saturated {w' : CacheWorld} : w.Full → w.store.Refreshed w.held w'.store →
      InsertionOutcome w key (.error (.timelineRuntimeCacheSaturated key w.store.maxEntries)) w'
  | evicts {w' : CacheWorld} {s' : TimelineCacheStore} {c : EvictionCandidate}
      {before after : List EvictionCandidate} {timeline : Handle} : w.Full →
      w.store.Evicted w.held c before after s' → w'.store = s'.insertVacant key timeline →
      InsertionOutcome w key (.ok ()) w'

lemma insertTimeline_outcome (hnew : w.store.timelines.lookup key = none) (timeline : Handle)
    (hw' : w'.store = (w.store.insertTimeline w.held key timeline).2) :
    InsertionOutcome w key (w.store.insertTimeline w.held key timeline).1 w' := by
  unfold TimelineCacheStore.insertTimeline at hw' ⊢
  rw [hnew] at hw' ⊢
  rcases makeRoom_cases w.store w.held with
    ⟨hlt, heq⟩ | ⟨hfull, s', heq, hs'⟩ | ⟨hfull, s', c, before, after, heq, hs'⟩
  · rw [heq] at hw' ⊢
    exact .room (Nat.not_le.mpr hlt) hw'
  · have hmax : s'.maxEntries = w.store.maxEntries := by rw [hs'.eq]
    rw [heq] at hw' ⊢
    dsimp only at hw' ⊢
    rw [hmax]
    exact .saturated hfull (hw' ▸ hs')
  · rw [heq] at hw' ⊢
    exact .evicts hfull hs' hw'

lemma getOrInsert_outcome (hnew : w.store.timelines.lookup key = none) (timeline : Handle) :
    InsertionOutcome w key ((w.getOrInsert key timeline).1.map fun _ => ())
      (w.getOrInsert key timeline).2 := by
  have hsame : _ = w.store.insertTimeline w.held key timeline :=
    timelineHandleOrInsertWith_of_new hnew timeline
  have hout : ∀ w' : CacheWorld, w'.store = _ → InsertionOutcome w key _ w' :=
    fun _ => insertTimeline_outcome hnew timeline
  rw [← hsame] at hout
  unfold CacheWorld.getOrInsert
  split
  · next handle store hcall =>
    rw [hcall] at hout
    exact hout _ rfl
  · next err store hcall =>
    rw [hcall] at hout
    exact hout _ rfl

lemma attempt_outcome (hnew : w.store.timelines.lookup key = none)
    (hcall : w.attempt key call = some (res, w')) : InsertionOutcome w key res w' := by
  cases call with
  | getOrInsert build =>
    obtain ⟨timeline, -, heq⟩ := Option.map_eq_some_iff.mp hcall
    cases heq
    exact getOrInsert_outcome hnew timeline
  | insert timeline =>
    obtain ⟨-, heq⟩ := Option.ite_none_right_eq_some.mp hcall
    cases heq
    exact insertTimeline_outcome hnew timeline rfl

variable {entry : TimelineCacheEntry} {other : String}

lemma lookup_insertVacant {s : TimelineCacheStore} {timeline : Handle} (h : s.Inv maxEntries)
    (hnew : s.timelines.lookup key = none) (hother : s.timelines.lookup other = some entry) :
    (s.insertVacant key timeline).timelines.lookup other = some entry := by
  have hne : other ≠ key := by
    rintro rfl
    cases hnew.symm.trans hother
  rw [insertVacant_eq h hnew]
  exact (AList.lookup_insert_ne hne).trans hother

variable {s' : TimelineCacheStore} {c : EvictionCandidate} {before after : List EvictionCandidate}

lemma lookup_of_evicted (h : w.store.Inv maxEntries) (hnew : w.store.timelines.lookup key = none)
    (hs : w.store.Evicted w.held c before after s') {timeline : Handle} (hne : other ≠ c.key)
    (hother : w.store.timelines.lookup other = some entry) :
    (s'.insertVacant key timeline).timelines.lookup other = some entry := by
  have hlook : ∀ k, s'.timelines.lookup k = (w.store.timelines.erase c.key).lookup k := by
    intro k
    rw [hs.eq]
    rfl
  have hnew' : s'.timelines.lookup key = none := by
    rw [hlook]
    by_cases hkey : key = c.key
    · rw [hkey, AList.lookup_erase]
    · rw [AList.lookup_erase_ne hkey, hnew]
  refine lookup_insertVacant (h.evicted hs) hnew' ?_
  rw [hlook, AList.lookup_erase_ne hne, hother]

lemma length_evictedKeys_le (other : String)
    (hgone : ∀ k entry, w.store.timelines.lookup k = some entry →
    k ≠ other → (w'.store.timelines.lookup k).isSome) : (w.evictedKeys w').length ≤ 1 := by
  have hall : ∀ k ∈ w.evictedKeys w', other = k := by
    intro k hk
    obtain ⟨hmem, hnone⟩ := mem_filter.mp hk
    obtain ⟨entry, hentry⟩ := Option.isSome_iff_exists.mp
      (AList.lookup_isSome.mpr (AList.mem_keys.mpr hmem))
    by_contra hne
    have hsome := hgone k entry hentry (Ne.symm hne)
    rw [Option.isNone_iff_eq_none.mp hnone] at hsome
    cases hsome
  have hnodup : (w.evictedKeys w').Nodup := w.store.timelines.keys_nodup.filter _
  have hcount := nodup_iff_count_le_one.mp hnodup other
  rwa [count_eq_length.mpr hall] at hcount

lemma not_evictable_of_refreshed (hs : w.store.Refreshed w.held s') :
    ¬∃ key entry, w.Evictable key entry := by
  rintro ⟨key, entry, hentry⟩
  obtain ⟨c, hc, hcurrent, rfl, htick⟩ := hentry.queued
  have hevictable := (evictable_iff hc).mpr ⟨hcurrent, entry, hentry, htick⟩
  have hnot := hs.none_evictable c (mem_compacted hc hcurrent)
  cases hevictable.symm.trans hnot

lemma evictable_of_evicted (hs : w.store.Evicted w.held c before after s') :
    ∃ entry, w.Evictable c.key entry ∧ c.tick = entry.lastAccessTick := by
  have hc : c ∈ w.store.evictionCandidates.items := by
    refine mem_of_mem_compacted ?_
    rw [hs.split]
    exact mem_append_right _ mem_cons_self
  exact ((evictable_iff hc).mp hs.evictable).2

lemma tick_le_of_evicted (hs : w.store.Evicted w.held c before after s')
    (hentry : w.Evictable other entry) : c.tick ≤ entry.lastAccessTick := by
  obtain ⟨c', hc', hcurrent, rfl, htick⟩ := hentry.queued
  have hevictable := (evictable_iff hc').mpr ⟨hcurrent, entry, hentry, htick⟩
  have hmem := mem_compacted hc' hcurrent
  have hsorted := w.store.compacted.sorted
  rw [hs.split] at hmem hsorted
  rw [← htick]
  rcases mem_append.mp hmem with hbefore | hrest
  · have hnot := hs.first c' hbefore
    cases hevictable.symm.trans hnot
  rcases mem_cons.mp hrest with rfl | hafter
  · exact Nat.le_refl _
  · have hle := (pairwise_cons.mp (pairwise_append.mp hsorted).2.1).1 c' hafter
    exact EvictionCandidate.tick_le_of_le hle

end

/-- In a state that a sequential history reaches, the insertion of an absent key fails only if the
cache is full of entries that are held outside, and otherwise succeeds and evicts at most one entry,
exactly if a full cache with an entry that is not held has one that can be evicted at once. -/
theorem runtime_cache_saturation_iff (maxEntries : Nat) (w : CacheWorld)
    (hw : w.Reachable maxEntries) (key : String)
    (hnew : w.store.timelines.lookup key = none) (call : Insertion)
    (result : Except TsoError Unit) (w' : CacheWorld)
    (hcall : w.attempt key call = some (result, w')) :
    ((result = .error (.timelineRuntimeCacheSaturated key maxEntries) → w.Full ∧ w.AllHeld) ∧
      (¬(w.Full ∧ w.AllHeld) → result = .ok () ∧ (w.evictedKeys w').length ≤ 1)) ↔
    (w.Full → ¬w.AllHeld → ∃ key entry, w.Evictable key entry) := by
  have h := hw.inv
  have hmax := h.capacity
  cases attempt_outcome hnew hcall with
  | room hroom hstore =>
    have hkept : (w.evictedKeys w').length ≤ 1 := by
      refine length_evictedKeys_le key fun k entry hentry _ => ?_
      rw [hstore, lookup_insertVacant h hnew hentry]
      rfl
    simp [hroom, hkept]
  | saturated hfull hs =>
    have hnone := not_evictable_of_refreshed hs
    rw [hmax]
    constructor
    · rintro ⟨honly, -⟩ - hnot
      exact absurd (honly rfl).2 hnot
    intro hcond
    have hall : w.AllHeld := by
      by_contra hnot
      exact hnone (hcond hfull hnot)
    exact ⟨fun _ => ⟨hfull, hall⟩, fun hnot => absurd ⟨hfull, hall⟩ hnot⟩
  | @evicts _ s' c _ _ _ hfull hs hstore =>
    obtain ⟨entry, hentry, -⟩ := evictable_of_evicted hs
    have hone : (w.evictedKeys w').length ≤ 1 := by
      refine length_evictedKeys_le c.key fun k entry hentry hne => ?_
      rw [hstore, lookup_of_evicted h hnew hs hne hentry]
      rfl
    have hsome : ∃ key entry, w.Evictable key entry := ⟨c.key, entry, hentry⟩
    simp [hone, hsome]

def replacementCalls : List CacheCall :=
  [.createHandle, .insertTimeline "a" 0, .createHandle, .insertTimeline "a" 1, .createHandle]

/-- The entry was inserted a second time: its tick moved on and its place in the queue did not, so
it is passed over, and the full cache reports that it is saturated. -/
theorem runtime_cache_saturated_by_idle_entry :
    ∃ w w', CacheWorld.Reachable 1 w ∧ w.store.timelines.lookup "b" = none ∧
      w.attempt "b" (.insert 2) = some (.error (.timelineRuntimeCacheSaturated "b" 1), w') ∧
      ¬w.AllHeld := by
  have hrun : (Transition.run CacheWorld.step (fun _ _ => True) replacementCalls (.new 1)).any
      (fun w => w.store.timelines.lookup "b" = none ∧ (w.attempt "b" (.insert 2)).map (·.1) =
          some (.error (.timelineRuntimeCacheSaturated "b" 1)) ∧
        (w.store.timelines.lookup "a").any (fun entry => entry.timeline ∉ w.held)) = true := by
    decide +kernel
  obtain ⟨w, hw, hend⟩ := Transition.Reach.exists_of_run hrun
  obtain ⟨hnew, hsaturated, hidle⟩ := of_decide_eq_true hend
  obtain ⟨⟨_, w'⟩, hcall, rfl⟩ := Option.map_eq_some_iff.mp hsaturated
  obtain ⟨entry, hentry, hnot⟩ := (Option.any_eq_true ..).mp hidle
  refine ⟨w, w', hw, hnew, hcall, fun hall => ?_⟩
  exact of_decide_eq_true hnot (hall "a" entry hentry)

theorem runtime_cache_saturation_of_idle_entry :
    ∃ w result w', CacheWorld.Reachable 1 w ∧ ¬w.AllHeld ∧
      w.attempt "b" (.insert 1) = some (result, w') ∧
      result = .ok () ∧ (w.evictedKeys w').length ≤ 1 := by
  have hrun : (Transition.run CacheWorld.step (fun _ _ => True)
      [.createHandle, .insertTimeline "a" 0, .createHandle] (.new 1)).any
      (fun w => w.store.timelines.lookup "b" = none ∧ (w.attempt "b" (.insert 1)).isSome ∧
        w.store.evictionCandidates.items.any (w.store.evictable w.held)) = true := by
    decide +kernel
  obtain ⟨w, hw, hend⟩ := Transition.Reach.exists_of_run hrun
  obtain ⟨hnew, hsome, hany⟩ := of_decide_eq_true hend
  obtain ⟨⟨result, w'⟩, hcall⟩ := Option.isSome_iff_exists.mp hsome
  obtain ⟨c, hc, hevictable⟩ := List.any_eq_true.mp hany
  obtain ⟨-, entry, hentry, -⟩ := (evictable_iff hc).mp hevictable
  have hnot : ¬w.AllHeld := fun hall => hentry.not_held (hall c.key entry hentry.cached)
  have h := (runtime_cache_saturation_iff 1 w hw "b" hnew (.insert 1) result w' hcall).mpr
    fun _ _ => ⟨c.key, entry, hentry⟩
  exact ⟨w, result, w', hw, hnot, hcall, h.2 fun hfull => hnot hfull.2⟩

/-- When the insertion of an absent key evicts an entry, that entry is not held outside and no other
entry that is not held has an older tick, exactly if every entry that is not held was accessed no
earlier than some entry that can be evicted at once. -/
theorem eviction_order_iff (maxEntries : Nat) (w : CacheWorld)
    (hw : w.Reachable maxEntries) (key : String)
    (hnew : w.store.timelines.lookup key = none) (call : Insertion)
    (result : Except TsoError Unit) (w' : CacheWorld)
    (hcall : w.attempt key call = some (result, w')) (evictedKey : String)
    (evicted : TimelineCacheEntry) (hcached : w.store.timelines.lookup evictedKey = some evicted)
    (hgone : w'.store.timelines.lookup evictedKey = none) :
    (evicted.timeline ∉ w.held ∧ ∀ other entry, other ≠ evictedKey →
      w.store.timelines.lookup other = some entry → entry.timeline ∉ w.held →
        ¬entry.lastAccessTick < evicted.lastAccessTick) ↔
    ∀ other entry, w.store.timelines.lookup other = some entry → entry.timeline ∉ w.held →
      ∃ key' entry', w.Evictable key' entry' ∧ entry'.lastAccessTick ≤ entry.lastAccessTick := by
  have h := hw.inv
  cases attempt_outcome hnew hcall with
  | room hroom hstore =>
    rw [hstore, lookup_insertVacant h hnew hcached] at hgone
    cases hgone
  | saturated hfull hs =>
    rw [hs.eq] at hgone
    cases (show w.store.timelines.lookup evictedKey = none from hgone).symm.trans hcached
  | @evicts _ s' c _ _ _ hfull hs hstore =>
    obtain ⟨entry, hentry, htick⟩ := evictable_of_evicted hs
    obtain rfl : evictedKey = c.key := by
      by_contra hne
      rw [hstore, lookup_of_evicted h hnew hs hne hcached] at hgone
      cases hgone
    obtain rfl : entry = evicted := Option.some.inj (hentry.cached.symm.trans hcached)
    constructor
    · rintro ⟨-, hfirst⟩ other entry' hother hidle
      refine ⟨c.key, entry, hentry, ?_⟩
      by_cases hsame : other = c.key
      · rw [hsame, hcached] at hother
        cases hother
        exact Nat.le_refl _
      · exact Nat.not_lt.mp (hfirst other entry' hsame hother hidle)
    · intro hcond
      refine ⟨hentry.not_held, fun other entry' _ hother hidle => Nat.not_lt.mpr ?_⟩
      obtain ⟨_, oldest, holdest, hle⟩ := hcond other entry' hother hidle
      exact htick ▸ Nat.le_trans (tick_le_of_evicted hs holdest) hle

/-- A replaced timeline is passed over, and the entry inserted after it is evicted instead. -/
theorem younger_entry_evicted : ∃ w result w' older younger, CacheWorld.Reachable 2 w ∧
      w.store.timelines.lookup "c" = none ∧ w.attempt "c" (.insert 3) = some (result, w') ∧
      w.store.timelines.lookup "b" = some younger ∧ w'.store.timelines.lookup "b" = none ∧
      w.store.timelines.lookup "a" = some older ∧ older.timeline ∉ w.held ∧
      older.lastAccessTick < younger.lastAccessTick := by
  have hrun : (Transition.run CacheWorld.step (fun _ _ => True)
      (replacementCalls ++ [.insertTimeline "b" 2, .createHandle]) (.new 2)).any
      (fun w => w.store.timelines.lookup "c" = none ∧
        (w.attempt "c" (.insert 3)).any (fun r => r.2.store.timelines.lookup "b" = none) ∧
        (w.store.timelines.lookup "a").any (fun older => older.timeline ∉ w.held ∧
          (w.store.timelines.lookup "b").any fun younger =>
            older.lastAccessTick < younger.lastAccessTick)) = true := by
    decide +kernel
  obtain ⟨w, hw, hend⟩ := Transition.Reach.exists_of_run hrun
  obtain ⟨hnew, hevicts, hidle⟩ := of_decide_eq_true hend
  obtain ⟨⟨result, w'⟩, hcall, hgone⟩ := (Option.any_eq_true ..).mp hevicts
  obtain ⟨older, holder, hboth⟩ := (Option.any_eq_true ..).mp hidle
  obtain ⟨hnot, hless⟩ := of_decide_eq_true hboth
  obtain ⟨younger, hyounger, hlt⟩ := (Option.any_eq_true ..).mp hless
  exact ⟨w, result, w', older, younger, hw, hnew, hcall, hyounger, of_decide_eq_true hgone, holder,
    hnot, of_decide_eq_true hlt⟩

theorem eviction_order_of_two_entries : ∃ w result w' evicted, CacheWorld.Reachable 2 w ∧
      w.attempt "c" (.insert 2) = some (result, w') ∧
      w.store.timelines.lookup "a" = some evicted ∧ w'.store.timelines.lookup "a" = none ∧
      ∀ other entry, other ≠ "a" → w.store.timelines.lookup other = some entry →
        entry.timeline ∉ w.held → ¬entry.lastAccessTick < evicted.lastAccessTick := by
  have hrun : (Transition.run CacheWorld.step (fun _ _ => True)
      [.createHandle, .insertTimeline "a" 0, .createHandle, .insertTimeline "b" 1, .createHandle]
      (.new 2)).any
      (fun w => w.store.timelines.lookup "c" = none ∧
        (w.attempt "c" (.insert 2)).any (fun r => r.2.store.timelines.lookup "a" = none) ∧
        (w.store.timelines.lookup "a").isSome ∧
        w.store.evictionCandidates.items.all (w.store.evictable w.held)) = true := by
    decide +kernel
  obtain ⟨w, hw, hend⟩ := Transition.Reach.exists_of_run hrun
  obtain ⟨hnew, hevicts, hsome, hall⟩ := of_decide_eq_true hend
  obtain ⟨⟨result, w'⟩, hcall, hgone⟩ := (Option.any_eq_true ..).mp hevicts
  obtain ⟨evicted, hevicted⟩ := Option.isSome_iff_exists.mp hsome
  have hgone := of_decide_eq_true hgone
  have h := (eviction_order_iff 2 w hw "c" hnew (.insert 2) result w' hcall "a" evicted hevicted
    hgone).mpr fun other entry hother hidle => by
      -- every entry is evictable, so each one is its own bound
      obtain ⟨generation, c, hgeneration, hcandidate, -⟩ :=
        (CacheWorld.Reachable.inv hw).exists_candidate hother
      have hc : c ∈ w.store.evictionCandidates.items.filter
          fun c => c.key = other ∧ c.generation = generation := by
        rw [hcandidate]
        exact List.mem_singleton_self c
      obtain ⟨hmem, hkey⟩ := List.mem_filter.mp hc
      obtain ⟨rfl, -⟩ := of_decide_eq_true hkey
      obtain ⟨-, entry', hentry, -⟩ := (evictable_iff hmem).mp (List.all_eq_true.mp hall c hmem)
      cases hother.symm.trans hentry.cached
      exact ⟨c.key, entry, hentry, Nat.le_refl _⟩
  exact ⟨w, result, w', evicted, hw, hcall, hevicted, hgone, h.2⟩

end Chronos
