import Chronos.Listing.Specs
import Chronos.Memory.Store

/-! Timelines in memory, listed page by page in the order of their keys. The sorted list of the keys
is cached: a list call reads the cached list, takes a snapshot of the keys if there is none, and
publishes it in separate steps, and a creation drops the cached list after it has inserted its
record. -/

namespace Chronos.Memory

open Paging List Option

/-- Records are stored under their own keys, in the current schema version. -/
structure Timelines where
  records : Entries String TimelineRecord
  own : ∀ {key e}, records.lookup key = some e → e.1.key = key
  current : ∀ {key e}, records.lookup key = some e →
    e.1.schemaVersion = currentMetadataSchemaVersion

namespace Timelines

variable (timelines : Timelines) (timelineKeys : List String) (startAfter : Option String)
  (limit : Nat)

def sortedTimelineKeys : List String := timelines.records.keys.insertionSort (· ≤ ·)

def loadPage : List String → Except TsoError (List TimelineRecord)
  | [] => .ok []
  | timelineKey :: rest =>
    match timelines.records.lookup timelineKey with
    | none => loadPage rest
    | some (record, _) => do
      record.validateSchemaVersion
      return record :: (← loadPage rest)

/-- `timelineKeys` is what `sorted_timeline_keys` has returned. -/
def listTimelinesPage : Except TsoError TimelineRecordListPage :=
  if limit = 0 then .ok emptyPage
  else
    let startIndex := startAfter.elim 0 fun start => (timelineKeys.takeWhile (· ≤ start)).length
    (timelines.loadPage ((timelineKeys.drop startIndex).take (usizeSucc limit))).map
      (cut TimelineRecord.key limit)

def listTimelinesByStatusFilterPage (parse : List Char → Option Nat)
    (states : List TimelineLifecycleState) (owner : Option String) :
    Option (Except TsoError TimelineRecordListPage) :=
  if states.isEmpty && owner.isNone then
    some (timelines.listTimelinesPage timelineKeys startAfter limit)
  else if limit = 0 then some (.ok emptyPage)
  else (scanPages (timelines.listTimelinesPage timelineKeys · limit)
    (timelineMatchesStatusFilter parse states owner) limit (timelineKeys.length + 1) startAfter
      []).map (Except.map (cut TimelineRecord.key limit))

def insertStamped (record : TimelineRecord) : Timelines where
  records := timelines.records.insert record.key (record.stampedForPersistence, 1)
  own h := by
    obtain ⟨rfl, rfl⟩ | ⟨-, hold⟩ := KeyValue.lookup_insert_eq_some h
    · rfl
    · exact timelines.own hold
  current h := by
    obtain ⟨rfl, rfl⟩ | ⟨-, hold⟩ := KeyValue.lookup_insert_eq_some h
    · rfl
    · exact timelines.current hold

/-- Also the insertion of `create_timeline_with_limit`, after its own checks. -/
def createTimeline (record : TimelineRecord) : Except TsoError Timelines :=
  match record.validateSchemaVersion with
  | .error e => .error e
  | .ok () =>
    if record.key ∈ timelines.records then .error .metadataAlreadyExists
    else .ok (timelines.insertStamped record)

def empty : Timelines := ⟨∅, nofun, nofun⟩

def recordAt (timelineKey : String) : Option TimelineRecord :=
  (timelines.records.lookup timelineKey).map Prod.fst

def sortedRecords : List TimelineRecord :=
  timelines.sortedTimelineKeys.filterMap timelines.recordAt

variable {timelines timelineKeys startAfter limit}

variable {record : TimelineRecord} {key : String}

lemma mem_createTimeline {timelines' : Timelines}
    (h : timelines.createTimeline record = .ok timelines') (key : String) :
    key ∈ timelines'.records ↔ key = record.key ∨ key ∈ timelines.records := by
  unfold createTimeline at h
  split at h
  · cases h
  split_ifs at h
  cases h
  exact AList.mem_insert ..

lemma key_of_recordAt (h : timelines.recordAt key = some record) : record.key = key := by
  obtain ⟨e, he, rfl⟩ := map_eq_some_iff.mp h
  exact timelines.own he

lemma loadPage_eq : timelines.loadPage timelineKeys =
    .ok (timelineKeys.filterMap timelines.recordAt) := by
  induction timelineKeys with
  | nil => rfl
  | cons key rest ih =>
    unfold loadPage
    cases hlookup : timelines.records.lookup key with
    | none => simp [ih, recordAt, hlookup]
    | some e =>
      simp only [ih, TimelineRecord.validateSchemaVersion, timelines.current hlookup, if_true,
        filterMap_cons, recordAt, hlookup, map_some]
      rfl

lemma sorted_sortedTimelineKeys : timelines.sortedTimelineKeys.Pairwise (· < ·) := by
  have hnodup : timelines.sortedTimelineKeys.Nodup :=
    (perm_insertionSort _ _).nodup_iff.mpr timelines.records.keys_nodup
  exact (pairwise_insertionSort (· ≤ ·) timelines.records.keys).imp₂
    (fun _ _ hle hne => lt_of_le_of_ne hle hne) hnodup

lemma mem_sortedTimelineKeys :
    key ∈ timelines.sortedTimelineKeys ↔ key ∈ timelines.records := mem_insertionSort ..

lemma length_sortedRecords_le :
    timelines.sortedRecords.length ≤ timelines.records.keys.length := by
  rw [← length_insertionSort (· ≤ ·) timelines.records.keys]
  exact length_filterMap_le ..

lemma sorted_sortedRecords : Sorted timelines.sortedRecords :=
  sorted_sortedTimelineKeys.filterMap _ fun _ _ hlt record hrecord record' hrecord' => by
    rwa [key_of_recordAt hrecord, key_of_recordAt hrecord']

lemma mem_sortedRecords : record ∈ timelines.sortedRecords ↔
    ∃ rev, timelines.records.lookup record.key = some (record, rev) := by
  simp only [sortedRecords, mem_filterMap, mem_sortedTimelineKeys]
  constructor
  · rintro ⟨key, -, hrecord⟩
    obtain rfl := key_of_recordAt hrecord
    obtain ⟨e, he, rfl⟩ := map_eq_some_iff.mp hrecord
    exact ⟨e.2, he⟩
  · rintro ⟨rev, hlook⟩
    exact ⟨record.key, AList.lookup_isSome.mp (by rw [hlook]; rfl), by rw [recordAt, hlook]; rfl⟩

lemma after_sortedRecords (startAfter : Option String) :
    after TimelineRecord.key timelines.sortedRecords startAfter =
      (timelines.sortedTimelineKeys.drop (startAfter.elim 0 fun start =>
        (timelines.sortedTimelineKeys.takeWhile (· ≤ start)).length)).filterMap
          timelines.recordAt := by
  cases startAfter with
  | none => rfl
  | some start =>
    rw [elim_some, drop_takeWhile_le sorted_sortedTimelineKeys]
    exact filter_filterMap key_of_recordAt _ start

lemma listTimelinesPage_eq (hlimit : PageLimit limit) (startAfter : Option String) :
    timelines.listTimelinesPage timelines.sortedTimelineKeys startAfter limit =
      .ok (cut TimelineRecord.key limit
        (after TimelineRecord.key timelines.sortedRecords startAfter)) := by
  have hsome : ∀ key ∈ timelines.sortedTimelineKeys, (timelines.recordAt key).isSome := by
    intro key hkey
    rw [recordAt, isSome_map, AList.lookup_isSome]
    exact mem_sortedTimelineKeys.mp hkey
  unfold listTimelinesPage
  dsimp only
  rw [if_neg hlimit.1.ne', loadPage_eq, after_sortedRecords,
    filterMap_take fun key hkey => hsome key (mem_of_mem_drop hkey)]
  exact congrArg Except.ok (cut_take hlimit.lt_usizeSucc)

lemma listTimelinesByStatusFilterPage_eq (hlimit : PageLimit limit) (startAfter : Option String)
    (parse : List Char → Option Nat) (states : List TimelineLifecycleState) (own : Option String) :
    timelines.listTimelinesByStatusFilterPage timelines.sortedTimelineKeys startAfter limit parse
        states own =
      some (.ok (cut TimelineRecord.key limit (after TimelineRecord.key
        (timelines.sortedRecords.filter (timelineMatchesStatusFilter parse states own))
          startAfter))) := by
  unfold listTimelinesByStatusFilterPage
  split_ifs with hall
  · obtain ⟨hstates, hown⟩ : states = [] ∧ own = none := by simpa using hall
    subst hstates hown
    have hwanted : timelineMatchesStatusFilter parse [] none = fun _ => true := rfl
    rw [listTimelinesPage_eq hlimit, hwanted, List.filter_true]
  · exact absurd ‹limit = 0› hlimit.1.ne'
  · exact scanPages_cut (listTimelinesPage_eq hlimit) sorted_sortedRecords hlimit.1 _
      (Nat.lt_succ_of_le (List.length_filterMap_le _ _))

end Timelines

/-- A list call stands in `listing` from the read that found no cached list until it publishes, with
the snapshot it has taken; a creation stands in `creating` until it has dropped the cached list. -/
structure KeyCache where
  timelines : Timelines
  cached : Option (List String)
  listing : List (Option (List String))
  creating : List String

inductive KeyCacheStep where
  | readCached
  | snapshot (call : Nat)
  | publish (call : Nat)
  | create (record : TimelineRecord)
  | invalidate (call : Nat)
  deriving DecidableEq

namespace KeyCache

def step (s : KeyCache) : KeyCacheStep → Option KeyCache
  | .readCached => some (if s.cached.isSome then s else { s with listing := s.listing ++ [none] })
  | .snapshot call => match s.listing[call]? with
    | some none =>
      some { s with listing := s.listing.set call (some s.timelines.sortedTimelineKeys) }
    | _ => none
  | .publish call => match s.listing[call]? with
    | some (some keys) =>
      some { s with cached := s.cached.or (some keys), listing := s.listing.eraseIdx call }
    | _ => none
  | .create record => match s.timelines.createTimeline record with
    | .ok timelines => some { s with timelines, creating := s.creating ++ [record.key] }
    | .error _ => some s
  | .invalidate call => match s.creating[call]? with
    | some _ => some { s with cached := none, creating := s.creating.eraseIdx call }
    | none => none

/-- Whoever drops the cached list finds no snapshot that misses the key it has inserted. -/
def DropsLast (s : KeyCache) : KeyCacheStep → Prop
  | .invalidate call => ∀ key, s.creating[call]? = some key → ∀ keys, some keys ∈ s.listing →
      key ∈ keys
  | _ => True

def start : KeyCache := ⟨.empty, none, [], []⟩

/-- With no call in progress the cached list is the sorted list of all keys, and a page walk, which
uses the cached list if there is one, returns every timeline. -/
def Coherent (s : KeyCache) : Prop :=
  s.listing = [] → s.creating = [] →
    (∀ keys, s.cached = some keys → keys = s.timelines.sortedTimelineKeys) ∧
    ∀ limit fuel, PageLimit limit → s.timelines.records.keys.length < fuel →
      collect (fun start => (s.timelines.listTimelinesPage
        (s.cached.getD s.timelines.sortedTimelineKeys) start limit).toOption) fuel none =
          some s.timelines.sortedRecords

structure Covers (timelines : Timelines) (creating keys : List String) : Prop where
  sorted : keys.Pairwise (· < ·)
  sound : ∀ key ∈ keys, key ∈ timelines.records
  complete : ∀ key ∈ timelines.records, key ∈ keys ∨ key ∈ creating

structure Inv (s : KeyCache) : Prop where
  cached : ∀ keys, s.cached = some keys → Covers s.timelines s.creating keys
  listing : ∀ keys, some keys ∈ s.listing → Covers s.timelines s.creating keys

variable {s s' : KeyCache} {timelines timelines' : Timelines} {creating keys : List String}

lemma covers_sortedTimelineKeys : Covers timelines creating timelines.sortedTimelineKeys :=
  ⟨Timelines.sorted_sortedTimelineKeys, fun _ => Timelines.mem_sortedTimelineKeys.mp,
    fun _ h => .inl (Timelines.mem_sortedTimelineKeys.mpr h)⟩

lemma Covers.create (h : Covers timelines creating keys) {record : TimelineRecord}
    (hcreate : timelines.createTimeline record = .ok timelines') :
    Covers timelines' (creating ++ [record.key]) keys := by
  have hmem := Timelines.mem_createTimeline hcreate
  refine ⟨h.sorted, fun key hkey => (hmem key).mpr (.inr (h.sound key hkey)), fun key hkey => ?_⟩
  rcases (hmem key).mp hkey with rfl | hold
  · exact .inr (mem_append_right _ (mem_singleton_self _))
  · exact (h.complete key hold).imp_right (mem_append_left _)

lemma Covers.invalidate (h : Covers timelines creating keys) {call : Nat} {created : String}
    (hcall : creating[call]? = some created) (hcreated : created ∈ keys) :
    Covers timelines (creating.eraseIdx call) keys := by
  refine ⟨h.sorted, h.sound, fun key hkey => ?_⟩
  rcases h.complete key hkey with hin | hpending
  · exact .inl hin
  by_cases hsame : key = created
  · exact .inl (hsame ▸ hcreated)
  obtain ⟨i, hi⟩ := mem_iff_getElem?.mp hpending
  have hne : i ≠ call := by
    rintro rfl
    exact hsame (some.inj (hi.symm.trans hcall))
  exact .inr (mem_eraseIdx_iff_getElem?.mpr ⟨i, hne, hi⟩)

lemma Inv.step (h : s.Inv) {l : KeyCacheStep} (hG : s.DropsLast l) (hstep : s.step l = some s') :
    s'.Inv := by
  cases l with
  | readCached =>
    cases hstep
    split_ifs
    · exact h
    · exact ⟨h.cached, fun keys hkeys => h.listing keys (by simpa using hkeys)⟩
  | snapshot call =>
    simp only [KeyCache.step] at hstep
    split at hstep
    · cases hstep
      refine ⟨h.cached, fun keys hkeys => ?_⟩
      rcases mem_or_eq_of_mem_set hkeys with hold | hnew
      · exact h.listing keys hold
      · rw [some.inj hnew]
        exact covers_sortedTimelineKeys
    · cases hstep
  | publish call =>
    simp only [KeyCache.step] at hstep
    split at hstep
    · rename_i published hcall
      cases hstep
      refine ⟨fun keys hkeys => ?_, fun keys hkeys =>
        h.listing keys ((eraseIdx_sublist ..).subset hkeys)⟩
      rcases or_eq_some_iff.mp hkeys with hold | ⟨-, hnew⟩
      · exact h.cached keys hold
      · exact some.inj hnew ▸ h.listing published (mem_of_getElem? hcall)
    · cases hstep
  | create record =>
    simp only [KeyCache.step] at hstep
    split at hstep
    · rename_i timelines hcreate
      cases hstep
      exact ⟨fun keys hkeys => (h.cached keys hkeys).create hcreate,
        fun keys hkeys => (h.listing keys hkeys).create hcreate⟩
    · exact some.inj hstep ▸ h
  | invalidate call =>
    simp only [KeyCache.step] at hstep
    split at hstep
    · rename_i created hcall
      cases hstep
      exact ⟨nofun, fun keys hkeys =>
        (h.listing keys hkeys).invalidate hcall (hG created hcall keys hkeys)⟩
    · cases hstep

lemma Inv.coherent (h : s.Inv) : s.Coherent := by
  intro _ hcreating
  have hcached : ∀ keys, s.cached = some keys → keys = s.timelines.sortedTimelineKeys := by
    intro keys hkeys
    have hcovers := h.cached keys hkeys
    have hsorted : KeyValue.Ordered id keys := hcovers.sorted
    refine hsorted.eq_of_mem_iff Timelines.sorted_sortedTimelineKeys fun key => ?_
    rw [Timelines.mem_sortedTimelineKeys]
    refine ⟨hcovers.sound key, fun hkey => (hcovers.complete key hkey).resolve_right ?_⟩
    rw [hcreating]
    exact List.not_mem_nil
  have hgetD : s.cached.getD s.timelines.sortedTimelineKeys = s.timelines.sortedTimelineKeys := by
    cases hkeys : s.cached with
    | none => rfl
    | some keys => exact hcached keys hkeys
  refine ⟨hcached, fun limit fuel hlimit hfuel => ?_⟩
  rw [hgetD]
  refine collect_eq (fun start => ?_) hlimit.1 Timelines.sorted_sortedRecords
    (Timelines.length_sortedRecords_le.trans_lt hfuel)
  rw [Timelines.listTimelinesPage_eq hlimit]
  rfl

/-- If no cached list is dropped while a list call holds a snapshot without the created key, the
cached list is coherent in every state. -/
theorem cached_keys_coherent (s : KeyCache) (h : Transition.Reach step DropsLast start s) :
    s.Coherent :=
  (h.invariant (I := Inv) ⟨nofun, nofun⟩ fun _ _ _ hinv hG hstep => hinv.step hG hstep).coherent

theorem cached_keys_coherent_sample :
    ∃ s, Transition.Reach step DropsLast start s ∧ s.cached = some ["a"] ∧ s.Coherent := by
  obtain ⟨s, hs, hcached⟩ : ∃ s, Transition.Reach step DropsLast start s ∧
      s.cached = some ["a"] := by
    refine ⟨_, ((((Transition.Reach.refl.tail (l := .create (sampleTimeline "a" .active)) trivial
      rfl).tail (l := .invalidate 0) nofun rfl).tail (l := .readCached) trivial rfl).tail
      (l := .snapshot 0) trivial rfl).tail (l := .publish 0) trivial rfl, ?_⟩
    decide +kernel
  exact ⟨s, hs, hcached, cached_keys_coherent s hs⟩

/-- A list call takes its snapshot, a timeline is created, and the list call publishes: the empty
list stays cached and a page walk misses the timeline. -/
theorem stale_keys_published :
    ∃ s, Transition.Reach step (fun _ _ => True) start s ∧ s.listing = [] ∧ s.creating = [] ∧
      s.cached = some [] ∧ s.timelines.sortedTimelineKeys = ["a"] ∧
      s.timelines.listTimelinesPage [] none 1 = .ok emptyPage := by
  refine ⟨_, ((((Transition.Reach.refl.tail (l := .readCached) trivial rfl).tail
    (l := .snapshot 0) trivial rfl).tail (l := .create (sampleTimeline "a" .active)) trivial
    rfl).tail (l := .invalidate 0) trivial rfl).tail (l := .publish 0) trivial rfl, ?_⟩
  decide +kernel

end KeyCache

end Chronos.Memory
