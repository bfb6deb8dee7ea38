import Chronos.Properties.GeneratorHistory
import Chronos.Service.System

/-! The floor that a reader recovers from a timeline record, along the writes of the record. -/

namespace Chronos

open Interleaving Option

variable {C : Cluster} {p : Nat} {key : String} {w : World} {e : Effect} {v v₀ : TimelineVersion}

def World.cachedState (w : World) (p : Nat) (key : String) : Option TimelineState := do
  let handle ← w.cache p key
  return (← (w.handles p key)[handle]?).state

section

variable (C : Cluster) (p : Nat) (key : String) (w : World) (record : TimelineRecord)

/-- The last issued TSO that a transfer finds in the cache. A failover does not look for one, nor
does a worker that does not own the timeline. -/
def cachedLastFor (reason : TransferReason) : Option Nat :=
  if reason = .failover ∨ !C.isLocalEndpoint p record.route.ownerWorkerEndpoint then none
  else (w.cachedState p key).bind TimelineState.lastIssuedTso

/-- What a transfer has read is still what the store and the cache hold. -/
def UpToDate : TimelineWrite → Prop
  | .transfer reason cachedLast floor => cachedLast = cachedLastFor C p key w record reason ∧
      floor = w.generatorFloor record.route.generatorId
  | .fencedTransfer reason cachedLast state => cachedLast = cachedLastFor C p key w record reason ∧
      w.cachedState p key = some state
  | .create | .activate | .floorFlush _ => True

/-- The floors of a record are at most the last issued TSO that replaces `last_graceful_issued`, or
the one that is kept, and what else the transfer hands over. -/
def FloorsCovered (last handedOver : Option Nat) : Prop :=
  Floor.Le record.recoveryFloorTso (Floor.mergeMax (last.or record.lastGracefulIssued) handedOver) ∧
    (last ≠ none → Floor.Le record.lastGracefulIssued (Floor.mergeMax last handedOver))

/-- A transfer hands over the persisted floor of the old generator, a fenced one the floors of the
cached state. -/
def KeepsFloor : TimelineWrite → Prop
  | .transfer reason .. => FloorsCovered record (cachedLastFor C p key w record reason)
      (w.generatorFloor record.route.generatorId)
  | .fencedTransfer reason .. => ∀ state ∈ w.cachedState p key,
      FloorsCovered record (cachedLastFor C p key w record reason)
        (Floor.mergeMax state.lastIssuedTso state.recoveryFloorTso)
  | .create | .activate | .floorFlush _ => True

end

instance (record : TimelineRecord) (write : TimelineWrite) :
    Decidable (UpToDate C p key w record write) := by
  unfold UpToDate
  split <;> infer_instance

instance (record : TimelineRecord) (last handedOver : Option Nat) :
    Decidable (FloorsCovered record last handedOver) :=
  inferInstanceAs (Decidable (_ ∧ _))

instance (record : TimelineRecord) (write : TimelineWrite) :
    Decidable (KeepsFloor C p key w record write) := by
  unfold KeepsFloor
  split <;> infer_instance

variable {target : TransferTarget} {last floor : Option Nat} {record : TimelineRecord}
  {now : Nat} {reason : TransferReason}

lemma recovered_transferred {state : TimelineLifecycleState} :
    recoveredTimelineFloorTso (transferredRecord record reason last floor target state now) =
      Floor.mergeMax (preparedGraceful reason record last) floor := by
  cases reason with
  | failover => rfl
  | _ => exact Floor.mergeMax_left_idem

lemma recovered_fenced {state : TimelineState} :
    recoveredTimelineFloorTso (fencedRecord record reason last state target now) =
      Floor.mergeMax (Floor.mergeMax state.lastIssuedTso state.recoveryFloorTso)
        (preparedGraceful reason record last) := by
  have hself : recoveredTimelineFloorTso (fencedRecord record reason last state target now) =
      fencedFloor (preparedGraceful reason record last) state := Floor.mergeMax_self
  rw [hself, fencedFloor_eq]

lemma recovered_flushed {localLast : Nat} : Floor.Le (recoveredTimelineFloorTso record)
      (recoveredTimelineFloorTso (flushedTimelineRecord record localLast now)) :=
  Floor.mergeMax_le (Floor.le_mergeMax_left.trans Floor.le_mergeMax_left)
    (Floor.le_mergeMax_left.trans Floor.le_mergeMax_right)

lemma floorsCovered_iff {last handedOver : Option Nat} :
    Floor.Le (recoveredTimelineFloorTso record)
      (Floor.mergeMax (last.or record.lastGracefulIssued) handedOver) ↔
        FloorsCovered record last handedOver := by
  rw [recoveredTimelineFloorTso, Floor.mergeMax_le_iff, FloorsCovered, and_comm]
  refine and_congr_right fun _ => ?_
  cases last with
  | none => exact iff_of_true Floor.le_mergeMax_left (absurd rfl)
  | some last => exact ⟨fun hle _ => hle, fun hle => hle (some_ne_none last)⟩

lemma preparedGraceful_cachedLastFor :
    preparedGraceful reason record (cachedLastFor C p key w record reason) =
      (cachedLastFor C p key w record reason).or record.lastGracefulIssued := by
  cases reason with
  | failover => simp [preparedGraceful, cachedLastFor]
  | _ => rfl

lemma TimelineCommit.keeps_iff (h : TimelineCommit C p key w v)
    (hhead : (w.timelines key).head? = some v₀) (hread : UpToDate C p key w v₀.record v.write) :
    Floor.Le (recoveredTimelineFloorTso v₀.record) (recoveredTimelineFloorTso v.record) ↔
      KeepsFloor C p key w v₀.record v.write := by
  cases hw : v.write with
  | create =>
    rw [TimelineCommit, hw] at h
    simp [h.1] at hhead
  | activate =>
    rw [TimelineCommit, hw] at h
    obtain ⟨v1, hv1, now, hrecord⟩ := h
    obtain rfl := some.inj (hv1.symm.trans hhead)
    have hkept : recoveredTimelineFloorTso v.record = recoveredTimelineFloorTso v1.record := by
      rw [hrecord]
      rfl
    simp [hkept, KeepsFloor, Floor.Le.refl]
  | floorFlush localLast =>
    rw [TimelineCommit, hw] at h
    obtain ⟨v1, hv1, now, hrecord⟩ := h
    cases hv1.symm.trans hhead
    simp [hrecord, KeepsFloor, recovered_flushed]
  | transfer reason cachedLast floor =>
    rw [TimelineCommit, hw] at h
    obtain ⟨v1, hv1, target, state, now, hrecord⟩ := h
    cases hv1.symm.trans hhead
    rw [hw] at hread
    obtain ⟨rfl, rfl⟩ := hread
    rw [hrecord, recovered_transferred, preparedGraceful_cachedLastFor]
    exact floorsCovered_iff
  | fencedTransfer reason cachedLast state =>
    rw [TimelineCommit, hw] at h
    obtain ⟨v1, hv1, -, -, -, target, now, hrecord⟩ := h
    cases hv1.symm.trans hhead
    rw [hw] at hread
    obtain ⟨rfl, hcached⟩ := hread
    rw [hrecord, recovered_fenced, Floor.mergeMax_comm, preparedGraceful_cachedLastFor,
      floorsCovered_iff, KeepsFloor, hcached]
    exact ⟨fun hcovered x hx => some.inj hx ▸ hcovered, fun hall => hall state rfl⟩

def keepsFloors (C : Cluster) : Condition where
  effect p w e :=
    match e with
    | .commitTimeline key v => ∀ v₀ ∈ (w.timelines key).head?,
        UpToDate C p key w v₀.record v.write ∧ KeepsFloor C p key w v₀.record v.write
    | _ => True

instance : (keepsFloors C).Checked where
  effect _ _ _ := by
    unfold keepsFloors
    dsimp only
    split <;> infer_instance

/-- Along the history of every timeline record the recovered floor never goes down. What the service
may write next from what the store and the cache hold keeps it exactly if they cover the floors of
the record. -/
theorem timeline_floor_never_falls {clock : Nat → Nat} {s : State}
    (h : Run C (keepsFloors C) clock s) (key : String) :
    Floor.Rising (fun v => recoveredTimelineFloorTso v.record) (s.world.timelines key) ∧
      ∀ p v v₀, (s.world.timelines key).head? = some v₀ → TimelineCommit C p key s.world v →
        UpToDate C p key s.world v₀.record v.write →
          (Floor.Le (recoveredTimelineFloorTso v₀.record) (recoveredTimelineFloorTso v.record) ↔
            KeepsFloor C p key s.world v₀.record v.write) := by
  refine ⟨?_, fun p v v₀ hhead hcommit hread => hcommit.keeps_iff hhead hread⟩
  refine h.invariant (I := fun w : World =>
      Floor.Rising (fun v : TimelineVersion => recoveredTimelineFloorTso v.record)
        (w.timelines key)) .nil
    (fun p w e _ hI hpermit hK => ?_) fun _ _ _ _ hI _ _ => hI
  rcases hpermit.timelines key with heq | ⟨v, rfl, heq, -, hcommit⟩
  · rwa [heq]
  rw [heq]
  refine hI.cons ?_
  cases hhead : (w.timelines key).head? with
  | none => simp [Floor.latest, hhead]
  | some v₀ =>
    obtain ⟨hread, hkeeps⟩ := (hK.resolve_left Bool.false_ne_true) v₀ hhead
    rw [Floor.latest_of_head hhead]
    exact (hcommit.keeps_iff hhead hread).mpr hkeeps

/-- The timeline moves from the first worker to the second. -/
theorem timeline_floor_never_falls_sample : ∃ s, Run sampleCluster (keepsFloors sampleCluster)
    (fun _ => 10) s ∧
      (s.world.timelines "k").map (fun v => recoveredTimelineFloorTso v.record) = [some 961, none] ∧
      Floor.Rising (fun v => recoveredTimelineFloorTso v.record) (s.world.timelines "k") := by
  obtain ⟨s, hs, hfloors⟩ := Run.of_play (C := sampleCluster) (K := keepsFloors sampleCluster)
    (fun _ => 10)
    (perform 0 0 (.ensureTimeline "k" .shared 5) 60 ++
      perform 1 1 (.transferForRpc "k" "b:1" (some 1) .manual 5) 60)
    (fun s => (s.world.timelines "k").map (fun v => recoveredTimelineFloorTso v.record) =
      [some 961, none]) (by decide +kernel)
  exact ⟨s, hs, of_decide_eq_true hfloors, (timeline_floor_never_falls hs "k").1⟩

/-- The timeline moves from the second worker to the first and back, each time on the request of
the new owner: the second transfer knows only the floor of the first worker's generator. -/
theorem timeline_floor_falls : ∃ s, Run sampleCluster unconditional (fun _ => 10) s ∧
      (s.world.timelines "k").map (fun v => recoveredTimelineFloorTso v.record) =
        [some 961, some 963, none] := by
  obtain ⟨s, hs, hfloors⟩ := Run.of_play (C := sampleCluster) (K := unconditional) (fun _ => 10)
    (perform 0 1 (.ensureTimeline "k" .shared 5) 60 ++
      perform 1 0 (.transferForRpc "k" "a:1" (some 0) .manual 5) 60 ++
      perform 2 1 (.transferForRpc "k" "b:1" (some 1) .manual 5) 60)
    (fun s => (s.world.timelines "k").map (fun v => recoveredTimelineFloorTso v.record) =
      [some 961, some 963, none]) (by decide +kernel)
  exact ⟨s, hs, of_decide_eq_true hfloors⟩

end Chronos
