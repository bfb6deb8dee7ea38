import Chronos.Listing.MetadataState
import Chronos.Status.Failover
import Mathlib.Data.List.Dedup
import Mathlib.Data.List.DropRight

/-! The timelines that an auto-failover pass looks at. The pass collects the remote owners from the
generator records and walks through the active timelines of each, page by page; whether a timeline
may fail over is decided from the record of its own generator. -/

namespace Chronos

open Paging List

section

variable (C : Cluster) (p : Nat) (m : MetadataState)

/-- The endpoints of the generator records that are neither blank nor local, each once. -/
def autoFailoverRemoteOwnerEndpoints : List String :=
  let endpoints := m.scanGenerators.map fun record => String.ofList
    (trim record.ownerWorkerEndpoint)
  (endpoints.filter fun endpoint =>
    endpoint ≠ "" && !C.isLocalEndpoint p endpoint).dedup.insertionSort
    (· ≤ ·)

def autoFailoverOwnerPages (batchSize : Nat) (ownerEndpoint : String) :
    Option (List TimelineRecord) :=
  collect (listTimelinesByStatusFilterPage m.store [.active] (some ownerEndpoint) · batchSize)
    (m.timelines.length + 1) none

def walkOwners (batchSize : Nat) : List String → Option (List TimelineRecord)
  | [] => some []
  | ownerEndpoint :: rest => do
    let records ← autoFailoverOwnerPages m batchSize ownerEndpoint
    let later ← walkOwners batchSize rest
    return records ++ later

def autoFailoverCandidates (batchSize : Nat) : Option (List TimelineRecord) :=
  walkOwners m batchSize (autoFailoverRemoteOwnerEndpoints C p m)

structure FailoverEligible (nowMs : Nat) (timeline : TimelineRecord) : Prop where
  stored : timeline ∈ m.timelines
  named : trim timeline.route.ownerWorkerEndpoint ≠ []
  remote : ¬ C.isLocalEndpoint p timeline.route.ownerWorkerEndpoint
  passes : ∃ preparation, prepareFailover C p nowMs timeline
    (m.loadGenerator timeline.route.generatorId) = some (.ok preparation)

def OwnerListed (timeline : TimelineRecord) : Prop :=
  timeline.state = .active ∧ ∃ record ∈ m.scanGenerators,
    ¬ C.isLocalEndpoint p record.ownerWorkerEndpoint ∧
      normalizeEndpointComponent record.ownerWorkerEndpoint =
        normalizeEndpointComponent timeline.route.ownerWorkerEndpoint

end

lemma dropWhile_rdropWhile (wanted : Char → Bool) (chars : List Char) :
    ((chars.dropWhile wanted).rdropWhile wanted).dropWhile wanted =
      (chars.dropWhile wanted).rdropWhile wanted := by
  obtain ⟨rest, hrest⟩ := rdropWhile_prefix wanted (chars.dropWhile wanted)
  cases htrimmed : (chars.dropWhile wanted).rdropWhile wanted with
  | nil => rfl
  | cons first others =>
    have hfirst : ¬ wanted first := by
      intro hdropped
      have hlen := congrArg length (dropWhile_idempotent wanted chars)
      rw [← hrest, htrimmed, cons_append, dropWhile_cons_of_pos hdropped,
        length_cons] at hlen
      have hshorter := (dropWhile_suffix wanted (l := others ++ rest)).length_le
      omega
    exact dropWhile_cons_of_neg hfirst

lemma trim_eq (s : String) :
    trim s = (s.toList.dropWhile isWhitespace).rdropWhile isWhitespace := rfl

lemma trim_ofList_trim (s : String) : trim (String.ofList (trim s)) = trim s := by
  rw [trim_eq (String.ofList _), String.toList_ofList, trim_eq, dropWhile_rdropWhile,
    rdropWhile_idempotent]

lemma normalizeEndpointComponent_trim (s : String) :
    normalizeEndpointComponent (String.ofList (trim s)) = normalizeEndpointComponent s := by
  unfold normalizeEndpointComponent
  rw [trim_ofList_trim]

lemma isLocalEndpoint_trim (C : Cluster) (p : Nat) (s : String) :
    C.isLocalEndpoint p (String.ofList (trim s)) = C.isLocalEndpoint p s := by
  unfold Cluster.isLocalEndpoint endpointsMatch
  rw [trim_ofList_trim]

lemma trim_ne_nil_of_normalize_eq {left right : String}
    (h : normalizeEndpointComponent left = normalizeEndpointComponent right)
    (hright : trim right ≠ []) : trim left ≠ [] := by
  intro hleft
  unfold normalizeEndpointComponent at h
  rw [hleft, map_nil, String.ofList_inj] at h
  exact hright (map_eq_nil_iff.mp h.symm)

section

variable {C : Cluster} {p : Nat} {m : MetadataState} {batchSize : Nat} {timeline : TimelineRecord}

lemma mem_autoFailoverRemoteOwnerEndpoints {endpoint : String} :
    endpoint ∈ autoFailoverRemoteOwnerEndpoints C p m ↔ ∃ record ∈ m.scanGenerators,
      endpoint = String.ofList (trim record.ownerWorkerEndpoint) ∧
      trim record.ownerWorkerEndpoint ≠ [] ∧
          ¬ C.isLocalEndpoint p record.ownerWorkerEndpoint := by
  unfold autoFailoverRemoteOwnerEndpoints
  rw [mem_insertionSort, mem_dedup, mem_filter, mem_map]
  constructor
  · rintro ⟨⟨record, hrecord, rfl⟩, hwanted⟩
    rw [isLocalEndpoint_trim] at hwanted
    refine ⟨record, hrecord, rfl, ?_, ?_⟩
    · intro hblank
      simp [hblank] at hwanted
    · simp_all
  · rintro ⟨record, hrecord, rfl, hblank, hrem⟩
    refine ⟨⟨record, hrecord, rfl⟩, ?_⟩
    rw [isLocalEndpoint_trim]
    have hname : String.ofList (trim record.ownerWorkerEndpoint) ≠ "" := by
      intro hempty
      have hlist := congrArg String.toList hempty
      rw [String.toList_ofList] at hlist
      exact hblank hlist
    simp [hname, hrem]

lemma walkOwners_eq (hbatch : 0 < batchSize) (owners : List String) :
    walkOwners m batchSize owners = some (owners.flatMap (m.ownedBy [.active])) := by
  induction owners with
  | nil => rfl
  | cons own rest ih =>
    have hpages : autoFailoverOwnerPages m batchSize own = some (m.ownedBy [.active] own) :=
      m.collect_ownerPages [.active] own hbatch (Nat.lt_succ_self _)
    unfold walkOwners
    rw [hpages, ih]
    rfl

end

/-- Of the timelines that could fail over, an auto-failover pass looks at exactly those that are
active and whose owner some generator record of a remote worker names. -/
theorem auto_failover_considers_iff (C : Cluster) (p : Nat) (m : MetadataState)
    (nowMs batchSize : Nat)
    (hbatch : PageLimit batchSize) (timeline : TimelineRecord)
    (h : FailoverEligible C p m nowMs timeline) :
    ∃ candidates, autoFailoverCandidates C p m batchSize = some candidates ∧
      (timeline ∈ candidates ↔ OwnerListed C p m timeline) := by
  refine ⟨_, walkOwners_eq hbatch.1 _, ?_⟩
  rw [mem_flatMap]
  constructor
  · rintro ⟨own, hown, hlisted⟩
    obtain ⟨record, hrecord, rfl, -, hrem⟩ := mem_autoFailoverRemoteOwnerEndpoints.mp hown
    obtain ⟨-, hname, hst⟩ := (m.mem_ownedBy [.active]).mp hlisted
    rw [normalizeEndpointComponent_trim] at hname
    exact ⟨by simpa using hst, record, hrecord, hrem, hname.symm⟩
  · rintro ⟨hst, record, hrecord, hrem, hname⟩
    refine ⟨String.ofList (trim record.ownerWorkerEndpoint),
      mem_autoFailoverRemoteOwnerEndpoints.mpr ⟨record, hrecord, rfl, ?_, hrem⟩, ?_⟩
    · exact trim_ne_nil_of_normalize_eq hname h.named
    · rw [m.mem_ownedBy [.active], normalizeEndpointComponent_trim]
      exact ⟨h.stored, hname.symm, .inr (by simp [hst])⟩

def remoteMetadata (state : TimelineLifecycleState) : MetadataState where
  timelines := [{ sampleTimeline "orders" state with
    route := { (sampleTimeline "orders" state).route with ownerWorkerEndpoint := "b:1" } }]
  sorted := List.pairwise_singleton _ _
  count := show 1 ≤ i64Max by decide
  valid := by cases state <;> decide +kernel
  generators := [⟨1, { (sampleRecords none (some 160)).2 with ownerWorkerEndpoint := "b:1" }, 7⟩]
  unique := List.nodup_singleton _

lemma remoteMetadata_eligible (state : TimelineLifecycleState) :
    ∀ timeline ∈ (remoteMetadata state).timelines,
      FailoverEligible sampleCluster 0 (remoteMetadata state) 100000 timeline := by
  intro timeline htimeline
  obtain rfl := mem_singleton.mp htimeline
  have hnamed : trim "b:1" ≠ [] := by decide +kernel
  have hrem : ¬ sampleCluster.isLocalEndpoint 0 "b:1" := by decide +kernel
  refine ⟨mem_cons_self, hnamed, hrem, ⟨none, some 160, 100000⟩, ?_⟩
  have hload : (remoteMetadata state).loadGenerator 1 =
      some ({ (sampleRecords none (some 160)).2 with ownerWorkerEndpoint := "b:1" }, 7) := rfl
  exact (congrArg _ hload).trans (prepareFailover_some _ 7)

theorem auto_failover_considers_sample :
    ∃ candidates, autoFailoverCandidates sampleCluster 0 (remoteMetadata .active) 16 =
      some candidates ∧
      ∀ timeline ∈ (remoteMetadata .active).timelines, timeline ∈ candidates := by
  have hall := fun timeline htimeline => auto_failover_considers_iff sampleCluster 0
    (remoteMetadata .active) 100000 16 ⟨by decide, by decide⟩ timeline
      (remoteMetadata_eligible .active timeline htimeline)
  obtain ⟨candidates, hcandidates, hiff⟩ := hall _ List.mem_cons_self
  refine ⟨candidates, hcandidates, fun timeline htimeline => ?_⟩
  obtain rfl := List.mem_singleton.mp htimeline
  exact hiff.mpr ⟨rfl, _, List.mem_cons_self, by decide +kernel, rfl⟩

/-- A timeline that was handed to `b:1` and is still recovering could fail over, but no pass looks
at it. -/
theorem auto_failover_overlooks_recovering : (∀ timeline ∈ (remoteMetadata .recovering).timelines,
      FailoverEligible sampleCluster 0 (remoteMetadata .recovering) 100000 timeline) ∧
    autoFailoverCandidates sampleCluster 0 (remoteMetadata .recovering) 16 = some [] :=
  ⟨remoteMetadata_eligible .recovering, by decide +kernel⟩

end Chronos
