import Chronos.Service.TimelineRules
import Chronos.Service.Transfer

/-! Transfers keep to the discipline: the record a transfer writes is computed from the version it
replaces. -/

namespace Chronos

open Interleaving Discipline

variable {C : Cluster} {p g : Nat} {w : World} {α : Type} {Q : α → World → Prop} {key : String}
  {record : TimelineRecord} {rev fuel : Nat} {plan : TransferPlan} {floor : Option Nat}
  {route : TimelineRoute} {selection : TransferTargetSelection}

lemma safe_requiredJumpMsForGenerator {target : Nat} (hbase : Base C w) :
    Kept C p (requiredJumpMsForGenerator C g target) w := by
  have hfloor : Kept C p (currentGeneratorFloor C g) w := by
    unfold currentGeneratorFloor
    split
    · exact safe_fail
    refine safe_currentLastIssuedTso hbase fun last w1 _ _ _ => ?_
    refine safe_loadGenerator fun r w2 _ _ _ => ?_
    split
    · exact safe_fail
    · exact safe_done
  refine Safe.bind hfloor hbase fun found w1 _ _ _ => ?_
  split
  · exact safe_done
  split
  · exact safe_fail
  · exact safe_done

lemma safe_validateRecoveryCatchupBudgetForTarget (hbase : Base C w) :
    Kept C p (validateRecoveryCatchupBudgetForTarget C p g floor) w := by
  cases floor with
  | none => exact safe_done
  | some floor =>
    refine Safe.bind (safe_requiredJumpMsForGenerator hbase) hbase fun _ w1 _ _ _ => ?_
    split_ifs
    · exact safe_done
    · exact safe_fail

lemma safe_rejectTransfer {e : TsoError} (hbase : Base C w) :
    Safe C p (rejectTransfer key route selection e : Service α) Q w := by
  refine Safe.bind (R := fun _ _ => True) ?_ hbase fun _ _ _ _ _ => safe_fail
  unfold releaseClaimedDedicatedIfNeeded
  split
  · exact safe_done
  split_ifs
  · exact safe_trivial_call rfl
  · exact safe_done

lemma safe_firstTransferTarget (hbase : Base C w) :
    Kept C p (firstTransferTarget C p key plan) w := by
  unfold firstTransferTarget
  split
  · split
    · exact safe_fail
    split_ifs
    · exact Safe.bind safe_claimSpecificDedicated hbase
        fun _ _ _ _ _ => safe_done
    · exact safe_done
  · split_ifs
    · exact Safe.bind safe_claimDedicated hbase fun _ _ _ _ _ => safe_done
    · exact Safe.bind (safe_pickGeneratorId hbase _) hbase
        fun _ _ _ _ _ => safe_done

lemma safe_isolateJumpAhead (hbase : Base C w) :
    Kept C p (isolateJumpAhead C p key plan floor selection) w := by
  unfold isolateJumpAhead
  split
  · exact safe_done
  split
  · exact safe_done
  refine Safe.bind (safe_requiredJumpMsForGenerator hbase) hbase fun _ w1 _ hbase1 _ => ?_
  split_ifs
  · exact safe_fail
  · exact Safe.bind safe_claimDedicated hbase1 fun _ _ _ _ _ => safe_done
  · exact safe_done

def Addressed (C : Cluster) (p : Nat) (plan : TransferPlan) : Prop :=
  C.isLocalEndpoint p plan.ownerEndpoint = true ∨ plan.generatorId.isSome = true

variable {tier : ResourceTier} {endpoint : String} {reason : TransferReason}

lemma addressed_of_validate {target : Option Nat}
    (h : validateTransferTarget C p key endpoint target = .ok ()) :
    Addressed C p ⟨tier, endpoint, target, reason⟩ := by
  unfold validateTransferTarget at h
  split_ifs at h with hmissing
  cases target with
  | none => exact .inl (by simpa using hmissing)
  | some g => exact .inr rfl

lemma safe_checkTransferTarget (hbase : Base C w) (hplan : Addressed C p plan) :
    Safe C p (checkTransferTarget C p key route plan selection)
      (fun sel _ => TargetChecked C p plan.ownerEndpoint sel.newGeneratorId) w := by
  unfold checkTransferTarget
  simp only
  split_ifs with hlocal howns hnone hforeign
  · exact safe_pure fun _ _ => by rw [TargetChecked, if_pos hlocal]; exact howns
  · exact safe_rejectTransfer hbase
  · simp [Addressed, hlocal, Option.isNone_iff_eq_none.mp hnone] at hplan
  · exact safe_rejectTransfer hbase
  have hchecked : TargetChecked C p plan.ownerEndpoint selection.newGeneratorId := by
    rw [TargetChecked, if_neg hlocal]
    intro hmodulo
    simpa [hmodulo] using hforeign
  refine safe_loadGenerator fun r w1 _ _ _ => ?_
  split
  · exact safe_fail
  · exact safe_pure fun _ _ => hchecked
  refine safe_nowMs fun now w2 _ hbase2 _ => ?_
  split_ifs
  · exact safe_rejectTransfer hbase2
  · exact safe_pure fun _ _ => hchecked

lemma safe_selectTransferTarget (hbase : Base C w) (hplan : Addressed C p plan) :
    Safe C p (selectTransferTarget C p key route plan floor)
      (fun selection _ => TargetChecked C p plan.ownerEndpoint selection.newGeneratorId) w := by
  refine Safe.bind (safe_firstTransferTarget hbase) hbase fun _ w1 _ hbase1 _ => ?_
  refine Safe.bind (safe_isolateJumpAhead hbase1) hbase1 fun _ w2 _ hbase2 _ => ?_
  refine Safe.bind (safe_validateRecoveryCatchupBudgetForTarget hbase2).attempt hbase2
    fun _ w3 _ hbase3 _ => ?_
  split
  · exact safe_rejectTransfer hbase3
  · exact safe_checkTransferTarget hbase3 hplan

lemma safe_prepareTransferApplication :
    Kept C p (prepareTransferApplication C p key record reason) w := by
  refine safe_nowMs fun now w1 _ _ _ => safe_loadGenerator fun r w2 _ hbase2 _ => ?_
  split
  · exact safe_fail
  simp only
  split_ifs
  · split
    · exact safe_fail
    · exact safe_done
  · refine Safe.bind (R := fun _ _ => True) ?_ hbase2 fun _ _ _ _ _ => safe_done
    refine safe_harmless rfl fun cached w3 _ _ => ?_
    split
    · exact safe_done
    · exact safe_harmless rfl fun _ _ _ _ => safe_done
  · exact safe_done

lemma safe_releasePreviousDedicated {target : TransferTarget} :
    Kept C p (releasePreviousDedicated key route target) w := by
  unfold releasePreviousDedicated
  split_ifs
  · exact safe_trivial_call rfl
  · exact safe_done

lemma safe_cacheTransferredTimeline (hload : TimelineLoaded key record rev w) :
    Kept C p (cacheTransferredTimeline C p key plan selection record rev floor) w := by
  unfold cacheTransferredTimeline
  split_ifs
  · exact safe_insertTimeline hload fun _ _ _ => safe_done
  · exact safe_harmless rfl fun _ _ _ _ => safe_harmless rfl fun _ _ _ _ =>
      safe_done
  · exact safe_harmless rfl fun _ _ _ _ => safe_done

lemma safe_synchronizeTransferCompletion (hbase : Base C w)
    (hload : TimelineLoaded key record rev w) :
    Kept C p (synchronizeTransferCompletion C p key route plan selection record rev floor fuel)
      w := by
  refine Safe.bind safe_releasePreviousDedicated hbase fun _ w1 h1 hbase1 _ => ?_
  split_ifs
  · refine Safe.bind (safe_ensureGeneratorLease hbase1 fuel) hbase1 fun _ w2 h2 hbase2 _ => ?_
    refine Safe.bind (safe_activateLocalTimelineRecord hbase2 fuel fuel
      (hload.mono (h1.trans h2))) hbase2 fun x w3 _ _ hx => ?_
    exact safe_cacheTransferredTimeline hx
  · exact safe_cacheTransferredTimeline (hload.mono h1)

section

variable {prep : TransferPreparation}

lemma safe_commitTransfer {state : TimelineLifecycleState} (hload : TimelineLoaded key record rev w)
    (htarget : TargetChecked C p plan.ownerEndpoint selection.newGeneratorId) :
    Kept C p (commitTransfer C p key record rev plan prep selection state fuel) w := by
  refine safe_compareExchangeTimeline (fun w1 v0 h1 hbase1 hhead hrev => ?_) (fun _ => htarget)
    fun r w1 h1 hbase1 hwritten => ?_
  · have hrecord := (hload.mono h1).record_eq hbase1 hhead hrev
    exact ⟨v0, hhead, selection.target plan, state, prep.now, by rw [hrecord]⟩
  split
  · exact safe_rejectTransfer hbase1
  · next newRev =>
    refine safe_harmless rfl fun _ w2 h2 hbase2 => ?_
    refine Safe.bind (safe_synchronizeTransferCompletion hbase2
      ((hwritten newRev rfl).mono h2)) hbase2 fun _ _ _ _ _ => safe_done

lemma safe_applyUnfencedTransferPlan (hbase : Base C w)
    (hload : TimelineLoaded key record rev w) (hplan : Addressed C p plan) :
    Kept C p (applyUnfencedTransferPlan C p key record rev plan prep fuel) w := by
  refine Safe.bind (safe_selectTransferTarget hbase hplan) hbase
    fun selection w1 h1 hbase1 htarget => ?_
  split_ifs
  · refine Safe.bind (safe_ensureGeneratorLease hbase1 fuel).attempt hbase1
      fun res w2 h2 hbase2 _ => ?_
    split
    · exact safe_rejectTransfer hbase2
    · exact safe_commitTransfer (hload.mono (h1.trans h2)) htarget
  · exact safe_commitTransfer (hload.mono h1) htarget

lemma safe_applyFencedLocalTransferPlan {handle : Nat} {timeline : TimelineState}
    (hbase : Base C w) (hload : TimelineLoaded key record rev w)
    (hroute : timeline.route = record.route) (hrevision : timeline.revision = rev)
    (hlocked : ⟨p, key, none, timeline⟩ ∈ w.locks) (hplan : Addressed C p plan) :
    Kept C p (applyFencedLocalTransferPlan C p key record plan prep handle timeline fuel) w := by
  refine Safe.bind (safe_selectTransferTarget hbase hplan) hbase
    fun selection w1 h1 hbase1 htarget => ?_
  refine Safe.bind (safe_ensureGeneratorLease hbase1 fuel).attempt hbase1
    fun res w2 h2 hbase2 _ => ?_
  split
  · exact safe_rejectTransfer hbase2
  refine safe_compareExchangeTimeline (fun w3 v0 h3 hbase3 hhead hrev => ?_) (fun _ => htarget)
    fun r w3 _ hbase3 hwritten => ?_
  · have hrecord := (hload.mono (h1.trans (h2.trans h3))).record_eq hbase3 hhead
      (hrev.trans hrevision)
    exact ⟨v0, hhead, by rw [hrecord, hroute], hrev.symm,
      (h1.trans (h2.trans h3)).locks.mem hlocked, selection.target plan, prep.now, by rw [hrecord]⟩
  split
  · exact safe_rejectTransfer hbase3
  · next newRev =>
    refine Safe.bind safe_releasePreviousDedicated hbase3 fun _ w4 h4 _ _ => ?_
    have hfloored : Floored key (timeline.reroute (fencedRecord record plan.reason
        prep.cachedLast timeline (selection.target plan) prep.now) (fencedFloor
          (preparedGraceful plan.reason record prep.cachedLast) timeline) newRev) w4 := by
      obtain ⟨v, hv, hrecord, hrev⟩ := (hwritten newRev rfl).mono h4
      exact ⟨v, hv, by rw [hrecord]; rfl, hrev, by rw [hrecord]; exact Floor.le_mergeMax_right⟩
    exact safe_storeHandle hfloored.handleFact (.inl hfloored)
      fun _ _ _ => safe_done

end

lemma safe_applyTransferPlan (hbase : Base C w)
    (hload : TimelineLoaded key record rev w) (hplan : Addressed C p plan) :
    Kept C p (applyTransferPlan C p key record rev plan fuel) w := by
  refine Safe.bind safe_prepareTransferApplication hbase fun prep w1 h1 hbase1 _ => ?_
  split_ifs
  · refine safe_harmless rfl fun cached w2 h2 hbase2 => ?_
    split
    · exact safe_applyUnfencedTransferPlan hbase2 (hload.mono (h1.trans h2)) hplan
    refine safe_lockHandle fun timeline w3 h3 hbase3 _ hlocked => ?_
    have h03 := h1.trans (h2.trans h3)
    split_ifs with hfenced
    · rw [Bool.and_eq_true, decide_eq_true_eq, decide_eq_true_eq] at hfenced
      refine Safe.bind (safe_applyFencedLocalTransferPlan hbase3 (hload.mono h03)
        hfenced.1 hfenced.2 hlocked hplan).attempt hbase3 fun res w4 _ _ _ => ?_
      exact safe_harmless rfl fun _ _ _ _ => safe_ofExcept fun _ _ _ _ => trivial
    · refine safe_harmless rfl fun _ w4 h4 hbase4 => ?_
      exact safe_applyUnfencedTransferPlan hbase4 (hload.mono (h03.trans h4)) hplan
  · exact safe_applyUnfencedTransferPlan hbase1 (hload.mono h1) hplan

lemma safe_transferTimelineForRpc {target : Option Nat} :
    Kept C p (transferTimelineForRpc C p key endpoint target reason fuel) w := by
  unfold transferTimelineForRpc
  split
  · exact safe_fail
  · exact safe_fail
  next hvalid =>
  refine safe_loadTimeline fun r w1 _ hbase1 hload => ?_
  split
  · exact safe_fail
  · exact safe_fail
  simp only
  split
  · exact safe_fail
  · exact safe_applyTransferPlan hbase1 (hload _ _ rfl) (addressed_of_validate hvalid)

lemma safe_transferTimeline {target : Option Nat} :
    Kept C p (transferTimeline C p key tier endpoint target fuel) w := by
  unfold transferTimeline
  split
  · exact safe_fail
  · exact safe_fail
  next hvalid =>
  refine safe_loadTimeline fun r w1 _ hbase1 hload => ?_
  split
  · exact safe_fail
  · exact safe_fail
  exact Safe.bind
    (safe_applyTransferPlan hbase1 (hload _ _ rfl) (addressed_of_validate hvalid)) hbase1
    fun _ _ _ _ _ => safe_done

end Chronos
