import Chronos.Listing.MetadataState
import Chronos.Status.Failover
import Mathlib.Data.List.Dedup

/-! The status of one timeline looked up by its key, and the statuses of a page of timelines. -/

namespace Chronos

open Paging List

abbrev LeaseTable := Nat → Option GeneratorLeaseState

structure TimelineStatusListPage where
  statuses : List TimelineStatusSnapshot
  nextStartAfter : Option String
  deriving DecidableEq

section

variable (C : Cluster) (p : Nat) (m : MetadataState) (leases : LeaseTable) (nowMs : Nat)

def cachedLocalGeneratorRecord (generatorId : Nat) : Option GeneratorRecord :=
  match leases generatorId with
  | none => none
  | some lease =>
    if lease.ownerInstanceId ≠ (C.worker p).instanceId || lease.leaseExpireAtMs ≤ nowMs then none
    else some
      { schemaVersion := currentMetadataSchemaVersion
        generatorId
        ownerWorkerEndpoint := (C.worker p).advertiseEndpoint
        ownerInstanceId := lease.ownerInstanceId
        generatorLeaseToken := lease.generatorLeaseToken
        leaseExpireAtMs := some lease.leaseExpireAtMs
        lastIssuedTso := lease.lastPersistedTso
        issuedUpperBound := lease.issuedUpperBound
        updatedAtMs := nowMs }

def getTimelineStatus (timelineKey : String) : Except TsoError TimelineStatusSnapshot := do
  validateTimelineKey timelineKey
  match m.loadTimeline timelineKey with
  | none => .error (.timelineNotFound timelineKey)
  | some timeline =>
    let generator := (m.loadGenerator timeline.route.generatorId).map Prod.fst
    return buildTimelineStatusSnapshot C p nowMs timeline generator

def pageGeneratorIds (records : List TimelineRecord) : List Nat :=
  (records.map fun timeline => timeline.route.generatorId).dedup.insertionSort (· ≤ ·)

/-- The generator records that a page is reported with: first those of the lease table, then those
that are loaded. -/
def generatorCache (generatorIds : List Nat) : List (Nat × Option GeneratorRecord) :=
  let cached := generatorIds.filterMap fun generatorId =>
    (cachedLocalGeneratorRecord C p leases nowMs generatorId).map fun record =>
      (generatorId, some record)
  let metadataGeneratorIds := generatorIds.filter fun generatorId =>
    (cachedLocalGeneratorRecord C p leases nowMs generatorId).isNone
  if metadataGeneratorIds.isEmpty then cached else cached ++ m.loadGenerators metadataGeneratorIds

def pageStatuses (records : List TimelineRecord) : List TimelineStatusSnapshot :=
  let cache := generatorCache C p m leases nowMs (pageGeneratorIds records)
  records.map fun timeline => buildTimelineStatusSnapshot C p nowMs timeline
    ((cache.lookup timeline.route.generatorId).getD none)

def listTimelineStatuses (states : List TimelineLifecycleState)
    (ownerWorkerEndpoint startAfter : Option String) (limit : Nat) :
    Option (Except TsoError TimelineStatusListPage) :=
  match (startAfter.map validateTimelineKey).getD (.ok ()) with
  | .error e => some (.error e)
  | .ok () =>
    if limit = 0 then some (.ok ⟨[], none⟩)
    else
      (listTimelinesByStatusFilterPage m.store states ownerWorkerEndpoint startAfter limit).map
        fun page => .ok ⟨pageStatuses C p m leases nowMs page.records, page.next⟩

def MirrorsMetadata : Prop :=
  ∀ generatorId lease, leases generatorId = some lease → ∃ record revision,
    m.loadGenerator generatorId = some (record, revision) ∧
      runtimeLeaseStateFromRecord revision record = .ok lease

/-- The generator of a timeline is reported alike from the metadata and from the lease table: the
worker has no live lease for it, or the record matches the timeline just when the worker does and
was not updated before the time of the listing as far as the report shows. -/
def ReportedAlike (timeline : TimelineRecord) : Prop :=
  ∀ lease, leases timeline.route.generatorId = some lease →
    lease.ownerInstanceId = (C.worker p).instanceId → nowMs < lease.leaseExpireAtMs →
    ∀ record revision, m.loadGenerator timeline.route.generatorId = some (record, revision) →
      (C.isLocalEndpoint p timeline.route.ownerWorkerEndpoint ↔
        record.generatorId = timeline.route.generatorId ∧
          endpointsMatch C.socketAddr record.ownerWorkerEndpoint
            timeline.route.ownerWorkerEndpoint) ∧
      (C.isLocalEndpoint p timeline.route.ownerWorkerEndpoint →
        max timeline.updatedAtMs nowMs = max timeline.updatedAtMs record.updatedAtMs)

end

section

variable {C : Cluster} {p nowMs : Nat} {m : MetadataState} {leases : LeaseTable}

lemma lookup_filterMap {β : Type} (f : Nat → Option β) (keys : List Nat) (key : Nat) :
    (keys.filterMap fun k => (f k).map fun b => (k, b)).lookup key =
      if key ∈ keys then f key else none := by
  induction keys with
  | nil => rfl
  | cons first rest ih =>
    by_cases hfirst : key = first
    · subst hfirst
      cases hf : f key with
      | none => simp [hf, ih]
      | some b => simp [hf]
    · have hne : (key == first) = false := by simpa using hfirst
      cases hf : f first with
      | none => simp [hf, hfirst, ih]
      | some b => simp [hf, lookup_cons, hne, hfirst, ih]

lemma lookup_loadGenerators (generatorIds : List Nat) (gid : Nat) :
    (m.loadGenerators generatorIds).lookup gid =
      if gid ∈ generatorIds then some ((m.loadGenerator gid).map Prod.fst)
      else none := by
  have hfill := lookup_filterMap (fun id => some ((m.loadGenerator id).map Prod.fst))
    generatorIds gid
  rw [← hfill]
  simp [MetadataState.loadGenerators]

lemma lookup_generatorCache {generatorIds : List Nat} {gid : Nat} (h : gid ∈ generatorIds) :
    ((generatorCache C p m leases nowMs generatorIds).lookup gid).getD none =
      (cachedLocalGeneratorRecord C p leases nowMs gid).or
        ((m.loadGenerator gid).map Prod.fst) := by
  have hcached : (generatorIds.filterMap fun id =>
        (cachedLocalGeneratorRecord C p leases nowMs id).map fun record =>
          (id, some record)).lookup gid =
      (cachedLocalGeneratorRecord C p leases nowMs gid).map some := by
    have hfill := lookup_filterMap (fun id =>
      (cachedLocalGeneratorRecord C p leases nowMs id).map some) generatorIds gid
    simpa [Function.comp_def, h] using hfill
  have hload : ((generatorCache C p m leases nowMs generatorIds).lookup gid) =
      ((cachedLocalGeneratorRecord C p leases nowMs gid).map some).or
        ((m.loadGenerators (generatorIds.filter fun id =>
          (cachedLocalGeneratorRecord C p leases nowMs id).isNone)).lookup gid) := by
    unfold generatorCache
    dsimp only
    split
    · next hempty =>
      rw [isEmpty_iff.mp hempty]
      simpa [MetadataState.loadGenerators] using hcached
    · rw [lookup_append, hcached]
  rw [hload, lookup_loadGenerators]
  cases hlocal : cachedLocalGeneratorRecord C p leases nowMs gid with
  | some record => rfl
  | none => simp [h, hlocal]

variable {timeline : TimelineRecord}

lemma mem_pageGeneratorIds {records : List TimelineRecord}
    (h : timeline ∈ records) : timeline.route.generatorId ∈ pageGeneratorIds records := by
  unfold pageGeneratorIds
  rw [mem_insertionSort, mem_dedup]
  exact mem_map_of_mem h

def listedStatus (C : Cluster) (p : Nat) (m : MetadataState) (leases : LeaseTable) (nowMs : Nat)
    (timeline : TimelineRecord) : TimelineStatusSnapshot :=
  buildTimelineStatusSnapshot C p nowMs timeline
    ((cachedLocalGeneratorRecord C p leases nowMs timeline.route.generatorId).or
      ((m.loadGenerator timeline.route.generatorId).map Prod.fst))

lemma pageStatuses_eq (records : List TimelineRecord) : pageStatuses C p m leases nowMs records =
      records.map (listedStatus C p m leases nowMs) := by
  refine map_congr_left fun timeline htimeline => ?_
  rw [lookup_generatorCache (mem_pageGeneratorIds htimeline)]
  rfl

lemma getTimelineStatus_eq (h : timeline ∈ m.timelines) :
    getTimelineStatus C p m nowMs timeline.key = .ok (buildTimelineStatusSnapshot C p nowMs timeline
      ((m.loadGenerator timeline.route.generatorId).map Prod.fst)) := by
  unfold getTimelineStatus
  rw [m.valid timeline h, m.loadTimeline_eq h]
  rfl

end

section

variable {C : Cluster} {p nowMs : Nat} {m : MetadataState} {leases : LeaseTable}
  {timeline : TimelineRecord}

lemma snapshot_eq_iff {left right : GeneratorRecord} (hlease : left.leaseExpireAtMs.isSome)
    (hexp : left.leaseExpireAtMs = right.leaseExpireAtMs)
    (hinstance : left.ownerInstanceId = right.ownerInstanceId) :
    buildTimelineStatusSnapshot C p nowMs timeline (some left) =
        buildTimelineStatusSnapshot C p nowMs timeline (some right) ↔
      ((matchedGeneratorRecord C timeline (some left)).isSome ↔
        (matchedGeneratorRecord C timeline (some right)).isSome) ∧
      ((matchedGeneratorRecord C timeline (some left)).isSome →
        max timeline.updatedAtMs left.updatedAtMs = max timeline.updatedAtMs
          right.updatedAtMs) := by
  obtain ⟨exp, hsome⟩ := Option.isSome_iff_exists.mp hlease
  have hsome' := hexp ▸ hsome
  have hcases : ∀ gen : GeneratorRecord, matchedGeneratorRecord C timeline (some gen) = some gen ∨
        matchedGeneratorRecord C timeline (some gen) = none := by
    intro gen
    unfold matchedGeneratorRecord Option.filter
    dsimp only
    split
    · exact .inl rfl
    · exact .inr rfl
  unfold buildTimelineStatusSnapshot
  rcases hcases left with hleft | hleft <;> rcases hcases right with hright | hright
  all_goals simp [hleft, hright, hsome, hsome', hinstance]

variable {gid : Nat}

lemma cachedLocalGeneratorRecord_eq_some {record : GeneratorRecord}
    (h : cachedLocalGeneratorRecord C p leases nowMs gid = some record) :
    ∃ lease, leases gid = some lease ∧
      lease.ownerInstanceId = (C.worker p).instanceId ∧ nowMs < lease.leaseExpireAtMs ∧
      record.generatorId = gid ∧
      record.ownerWorkerEndpoint = (C.worker p).advertiseEndpoint ∧
      record.ownerInstanceId = lease.ownerInstanceId ∧
      record.leaseExpireAtMs = some lease.leaseExpireAtMs ∧ record.updatedAtMs = nowMs := by
  unfold cachedLocalGeneratorRecord at h
  split at h
  · cases h
  · next lease hlease =>
    split_ifs at h with hdead
    cases h
    simp only [Bool.or_eq_true, decide_eq_true_eq, not_or, not_not, not_le, ne_eq] at hdead
    exact ⟨lease, hlease, hdead.1, hdead.2, rfl, rfl, rfl, rfl, rfl⟩

lemma cachedLocalGeneratorRecord_eq_none
    (h : cachedLocalGeneratorRecord C p leases nowMs gid = none)
    {lease : GeneratorLeaseState} (hlease : leases gid = some lease)
    (hinstance : lease.ownerInstanceId = (C.worker p).instanceId) :
    lease.leaseExpireAtMs ≤ nowMs := by
  unfold cachedLocalGeneratorRecord at h
  rw [hlease] at h
  dsimp only at h
  split_ifs at h with hdead
  simpa [hinstance] using hdead

lemma listedStatus_eq_iff (hmirrors : MirrorsMetadata m leases) :
    listedStatus C p m leases nowMs timeline = buildTimelineStatusSnapshot C p nowMs timeline
        ((m.loadGenerator timeline.route.generatorId).map Prod.fst) ↔
      ReportedAlike C p m leases nowMs timeline := by
  unfold listedStatus
  cases hcached : cachedLocalGeneratorRecord C p leases nowMs timeline.route.generatorId with
  | none =>
    -- without a live lease both reports are made from the same record
    refine iff_of_true rfl fun lease hlease hinstance hlive => ?_
    have hdead := cachedLocalGeneratorRecord_eq_none hcached hlease hinstance
    exact absurd hlive hdead.not_gt
  | some rebuilt =>
    obtain ⟨lease, hlease, hinstance, hlive, hid, hendpoint, hrebuilt, hexp, hupdated⟩ :=
      cachedLocalGeneratorRecord_eq_some hcached
    obtain ⟨record, rev, hload, hmirror⟩ := hmirrors _ lease hlease
    obtain ⟨hrecordExp, hrecordInstance⟩ : record.leaseExpireAtMs = some lease.leaseExpireAtMs ∧
          record.ownerInstanceId = lease.ownerInstanceId := by
      unfold runtimeLeaseStateFromRecord at hmirror
      split at hmirror
      · cases hmirror
      · next exp hsome =>
        cases hmirror
        exact ⟨hsome, rfl⟩
    have hsnapshot : buildTimelineStatusSnapshot C p nowMs timeline (some rebuilt) =
        buildTimelineStatusSnapshot C p nowMs timeline (some record) ↔ _ :=
      snapshot_eq_iff (by rw [hexp, Option.isSome_some]) (by rw [hexp, hrecordExp])
        (by rw [hrebuilt, hrecordInstance])
    have hlocal : (matchedGeneratorRecord C timeline (some rebuilt)).isSome ↔
        C.isLocalEndpoint p timeline.route.ownerWorkerEndpoint := by
      simp [matchedGeneratorRecord, Option.filter, hid, hendpoint, Cluster.isLocalEndpoint,
        endpointsMatch_comm C.socketAddr (C.worker p).advertiseEndpoint]
    have hmatched : (matchedGeneratorRecord C timeline (some record)).isSome ↔
        record.generatorId = timeline.route.generatorId ∧
          endpointsMatch C.socketAddr record.ownerWorkerEndpoint
            timeline.route.ownerWorkerEndpoint := by
      simp [matchedGeneratorRecord, Option.filter]
    rw [hlocal, hmatched, hupdated] at hsnapshot
    rw [hload]
    refine hsnapshot.trans ⟨fun halike other hother _ _ stored storedRev hstored => ?_,
      fun halike => halike lease hlease hinstance hlive record rev hload⟩
    obtain ⟨rfl, rfl⟩ := Prod.mk.inj (Option.some.inj (hload.symm.trans hstored))
    exact halike

end

/-- A listing reports one status for each timeline of its page. It is the one that a lookup of the
timeline returns exactly if the generator of the timeline is reported alike from the lease table and
from the metadata. -/
theorem status_listing_agrees_iff (C : Cluster) (p : Nat) (m : MetadataState) (leases : LeaseTable)
    (hmirrors : MirrorsMetadata m leases) (nowMs : Nat) (states : List TimelineLifecycleState)
    (ownerWorkerEndpoint startAfter : Option String) (limit : Nat)
    (hstart : ∀ key, startAfter = some key → validateTimelineKey key = .ok ()) :
    ∃ page statuses,
      listTimelinesByStatusFilterPage m.store states ownerWorkerEndpoint startAfter limit =
        some page ∧
      listTimelineStatuses C p m leases nowMs states ownerWorkerEndpoint startAfter limit =
        some (.ok statuses) ∧
      statuses.statuses.length = page.records.length ∧
      ∀ (i : Nat) (timeline : TimelineRecord), page.records[i]? = some timeline →
        ∃ listed single, statuses.statuses[i]? = some listed ∧
          getTimelineStatus C p m nowMs timeline.key = .ok single ∧
          (listed = single ↔ ReportedAlike C p m leases nowMs timeline) := by
  obtain ⟨page, hpage, hsub⟩ := m.exists_page states ownerWorkerEndpoint startAfter limit
  have hvalid : (startAfter.map validateTimelineKey).getD (.ok ()) = .ok () := by
    cases startAfter with
    | none => rfl
    | some key => exact hstart key rfl
  have hlist : listTimelineStatuses C p m leases nowMs states ownerWorkerEndpoint startAfter limit =
      some (.ok ⟨pageStatuses C p m leases nowMs page.records, page.next⟩) := by
    unfold listTimelineStatuses
    rw [hvalid]
    dsimp only
    split
    · next hzero =>
      subst hzero
      have hempty : page = emptyPage :=
        Option.some.inj (hpage.symm.trans (m.page_zero states ownerWorkerEndpoint startAfter))
      rw [hempty]
      rfl
    · rw [hpage]
      rfl
  refine ⟨page, _, hpage, hlist, ?_, fun i timeline hi => ?_⟩
  · rw [pageStatuses_eq, length_map]
  refine ⟨listedStatus C p m leases nowMs timeline, _, ?_,
    getTimelineStatus_eq (hsub (mem_of_getElem? hi)), listedStatus_eq_iff hmirrors⟩
  rw [pageStatuses_eq, getElem?_map, hi, Option.map_some]

def leasedMetadata (updatedAtMs : Nat) : MetadataState where
  timelines := [{ sampleTimeline "orders" .active with
    route := { (sampleTimeline "orders" .active).route with ownerWorkerEndpoint := "a:1" } }]
  sorted := List.pairwise_singleton _ _
  count := by decide
  valid := by decide +kernel
  generators := [⟨1, { (sampleRecords none none).2 with
    ownerWorkerEndpoint := "a:1", leaseExpireAtMs := some 1000, updatedAtMs := updatedAtMs }, 7⟩]
  unique := List.nodup_singleton _

def sampleLeases : LeaseTable := fun generatorId =>
  if generatorId = 1 then
    some { revision := 7, ownerInstanceId := "a", generatorLeaseToken := 1, leaseExpireAtMs := 1000,
           lastPersistedTso := none, issuedUpperBound := none }
  else none

lemma sampleLeases_mirror (updatedAtMs : Nat) :
    MirrorsMetadata (leasedMetadata updatedAtMs) sampleLeases := by
  intro gid lease hlease
  unfold sampleLeases at hlease
  split_ifs at hlease with hid
  subst hid
  cases hlease
  exact ⟨_, 7, rfl, rfl⟩

/-- At the time at which the record was written, both ways report the same. -/
theorem status_listing_agrees_sample : ∃ statuses listed,
      listTimelineStatuses sampleCluster 0 (leasedMetadata 500) sampleLeases 500 [] none none 10 =
        some (.ok statuses) ∧ statuses.statuses[0]? = some listed ∧
      getTimelineStatus sampleCluster 0 (leasedMetadata 500) 500 "orders" = .ok listed := by
  obtain ⟨page, statuses, hpage, hlist, -, hall⟩ := status_listing_agrees_iff sampleCluster 0
    (leasedMetadata 500) sampleLeases (sampleLeases_mirror 500) 500 [] none none 10
    nofun
  have hfirst : (listTimelinesByStatusFilterPage (leasedMetadata 500).store [] none none 10).map
      (·.records) = some (leasedMetadata 500).timelines := by decide +kernel
  rw [hpage, Option.map_some, Option.some.injEq] at hfirst
  obtain ⟨listed, single, hlisted, hsingle, hiff⟩ := hall 0 _ (by rw [hfirst]; rfl)
  have halike : listed = single := hiff.mpr fun lease _ _ _ record rev hload => by
    cases hload
    exact ⟨by decide +kernel, fun _ => rfl⟩
  exact ⟨statuses, listed, hlist, hlisted, halike ▸ hsingle⟩

/-- Four hundred milliseconds later nothing has changed, but the listing shows its own time as the
time of the last update. -/
theorem status_listing_disagrees : MirrorsMetadata (leasedMetadata 100) sampleLeases ∧
    (listTimelineStatuses sampleCluster 0 (leasedMetadata 100) sampleLeases 500 [] none none 10).map
        (fun result => result.toOption.map fun page =>
          page.statuses.map TimelineStatusSnapshot.updatedAtMs) = some (some [500]) ∧
    (getTimelineStatus sampleCluster 0 (leasedMetadata 100) 500 "orders").toOption.map
        TimelineStatusSnapshot.updatedAtMs = some 100 :=
  ⟨sampleLeases_mirror 100, by decide +kernel, by decide +kernel⟩

end Chronos
