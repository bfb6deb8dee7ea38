import Chronos.Service.LeaseSafety
import Chronos.Service.Timeline
import Mathlib.Data.List.Pairwise

/-! Rules for the operations on timeline records, on cached timeline states and on the cursor, and
the safety of the programs that keep cached states in step with records. -/

namespace Chronos

open Interleaving Discipline List

variable {C : Cluster} {p g : Nat} {w : World} {α : Type} {Q : α → World → Prop} {key : String}
  {record : TimelineRecord} {revision : Nat}

lemma World.timelineRevisionIs_iff : w.timelineRevisionIs key revision = true ↔
      ∃ v, (w.timelines key).head? = some v ∧ v.revision = revision := by
  simp [World.timelineRevisionIs, Option.any_eq_true]

lemma safe_loadTimeline {k : Except TsoError (Option (TimelineRecord × Nat)) → Service α}
    (hnext : ∀ r w1, w ≤ w1 → Base C w1 → (∀ record revision, r = .ok (some (record, revision)) →
        TimelineLoaded key record revision w1) → Safe C p (k r) Q w1) :
    Safe C p (call (.loadTimeline key) >>= k) Q w := by
  refine safe_call (R := fun r w1 => ∀ record revision, r = .ok (some (record, revision)) →
    TimelineLoaded key record revision w1) (fun w1 c r e _ hbase h => ?_) hnext
  refine ⟨permit_of_harmless rfl h, fun record revision hr => ?_⟩
  cases c <;> simp only [act, reduceCtorEq] at h
  next out =>
    cases h
    exact exists_of_storeRead_head? hr

lemma safe_loadTimelineWithSingleflight (hbase : Base C w)
    {k : Option (TimelineRecord × Nat) → Service α}
    (hnext : ∀ r w1, w ≤ w1 → Base C w1 →
      (∀ record revision, r = some (record, revision) → TimelineLoaded key record revision w1) →
      Safe C p (k r) Q w1) :
    Safe C p (loadTimelineWithSingleflight key >>= k) Q w := by
  refine Safe.bind (R := fun r w1 => ∀ record revision, r = some (record, revision) →
    TimelineLoaded key record revision w1) ?_ hbase hnext
  refine safe_checked hbase fun w1 _ _ => ?_
  refine safe_call (R := fun r w1 => ∀ record revision, r = .ok (some (record, revision)) →
    TimelineLoaded key record revision w1) (fun w1 c r e _ hbase h => ?_)
    fun r w2 _ _ hload => safe_ofExcept fun found hfound w3 h3 record revision hrecord =>
      (hload record revision (by rw [hfound, hrecord])).mono h3
  refine ⟨permit_of_harmless rfl h, fun record revision hr => ?_⟩
  cases c <;> simp only [act, reduceCtorEq] at h
  · cases h
    cases hr
  · next i =>
    cases h
    obtain ⟨v, hv, heq⟩ := Option.map_eq_some_iff.mp (Except.ok.inj hr)
    obtain ⟨rfl, rfl⟩ := Prod.mk.inj heq
    exact ⟨v, mem_of_getElem? hv, rfl, rfl⟩

variable {v : TimelineVersion} {tier : ResourceTier} {h : Nat}

lemma timelineLoaded_apply :
    TimelineLoaded key v.record v.revision (w.apply p (.commitTimeline key v)) :=
  ⟨v, by simp [World.apply], rfl, rfl⟩

lemma safe_createTimelineOp {now : Nat} {k : Except TsoError Nat → Service α}
    (hrecord : record = createdTimelineRecord key (C.worker p).advertiseEndpoint g tier now)
    (hnext : ∀ r w1, w ≤ w1 → Base C w1 →
      (∀ rev, r = .ok rev → TimelineLoaded key record rev w1) → Safe C p (k r) Q w1) :
    Safe C p (call (.createTimeline key record) >>= k) Q w := by
  refine safe_call (fun w1 c r e _ _ h => ?_) hnext
  cases c <;> simp only [act, reduceCtorEq] at h
  next out =>
    rcases storeWrite_cases (Option.some.inj h) with ⟨hempty, rfl, hr⟩ | ⟨rfl, hr⟩
    · refine ⟨⟨rfl, ⟨isEmpty_iff.mp hempty, g, tier, now, hrecord⟩,
        fun h => absurd h Bool.false_ne_true⟩, fun rev hrev => ?_⟩
      obtain rfl := hr rev hrev
      exact timelineLoaded_apply
    · exact ⟨trivial, fun rev hrev => absurd hrev (hr rev)⟩

lemma safe_compareExchangeTimeline {write : TimelineWrite} {k : Except TsoError Nat → Service α}
    (hcommit : ∀ w1 v0, w ≤ w1 → Base C w1 → (w1.timelines key).head? = some v0 →
      v0.revision = revision → TimelineCommit C p key w1 ⟨w1.revision + 1, record, write⟩)
    (htarget : write.isTransfer = true →
      TargetChecked C p record.route.ownerWorkerEndpoint record.route.generatorId)
    (hnext : ∀ r w1, w ≤ w1 → Base C w1 →
      (∀ rev, r = .ok rev → TimelineLoaded key record rev w1) → Safe C p (k r) Q w1) :
    Safe C p (call (.compareExchangeTimeline write key revision record) >>= k) Q w := by
  refine safe_call (fun w1 c r e hle hbase h => ?_) hnext
  cases c <;> simp only [act, reduceCtorEq] at h
  next out =>
    rcases storeWrite_cases (Option.some.inj h) with ⟨hholds, rfl, hr⟩ | ⟨rfl, hr⟩
    · obtain ⟨v0, hhead, hrev0⟩ := World.timelineRevisionIs_iff.mp hholds
      refine ⟨⟨rfl, hcommit w1 v0 hle hbase hhead hrev0, htarget⟩, fun rev hrev => ?_⟩
      obtain rfl := hr rev hrev
      exact timelineLoaded_apply
    · exact ⟨trivial, fun rev hrev => absurd hrev (hr rev)⟩

lemma TimelineLoaded.record_eq {v0 : TimelineVersion}
    (h : TimelineLoaded key record revision w) (hbase : Base C w)
    (hhead : (w.timelines key).head? = some v0) (hrev : v0.revision = revision) :
    v0.record = record := by
  obtain ⟨v, hv, rfl, hrev'⟩ := h
  rw [KeyValue.eq_of_pairwise_lt ((hbase.timelineOrder key).imp And.left)
    (mem_of_mem_head? hhead) hv
    (hrev.trans hrev'.symm)]

lemma safe_insertTimeline {floor : Option Nat} {k : Unit → Service α}
    (hload : TimelineLoaded key record revision w)
    (hnext : ∀ w1, w ≤ w1 → Base C w1 → Safe C p (k ()) Q w1) :
    Safe C p (call (.insertTimeline key record revision floor) >>= k) Q w := by
  refine safe_call (R := fun _ _ => True) (fun w1 c r e hle _ h => ⟨?_, trivial⟩)
    fun _ w1 hle hbase _ => hnext w1 hle hbase
  cases c <;> simp only [act, reduceCtorEq] at h
  cases h
  split_ifs
  · exact (hload.mono hle).handleFact
  · trivial

lemma safe_timelineHandleOrInsert {k : Nat → Service α}
    (hload : TimelineLoaded key record revision w)
    (hnext : ∀ r w1, w ≤ w1 → Base C w1 → Safe C p (k r) Q w1) :
    Safe C p (call (.timelineHandleOrInsert key record revision) >>= k) Q w := by
  refine safe_call (R := fun _ _ => True) (fun w1 c r e hle _ h => ⟨?_, trivial⟩)
    fun r w1 hle hbase _ => hnext r w1 hle hbase
  cases c <;> simp only [act, reduceCtorEq] at h
  split at h
  · cases h
    trivial
  · cases h
    exact (hload.mono hle).handleFact

lemma safe_syncHandle {k : Unit → Service α} (hload : TimelineLoaded key record revision w)
    (hnext : ∀ w1, w ≤ w1 → Base C w1 → Safe C p (k ()) Q w1) :
    Safe C p (call (.syncHandle key h record revision) >>= k) Q w := by
  refine safe_call (R := fun _ _ => True) (fun w1 c r e hle _ h => ⟨?_, trivial⟩)
    fun _ w1 hle hbase _ => hnext w1 hle hbase
  cases c <;> simp only [act, Option.map_eq_some_iff, reduceCtorEq] at h
  obtain ⟨state, -, heq⟩ := h
  obtain ⟨-, rfl⟩ := Prod.mk.inj heq
  have hfloored : Floored key (state.syncWith record revision) w1 := by
    obtain ⟨v, hv, rfl, rfl⟩ := hload.mono hle
    exact ⟨v, hv, rfl, rfl, Floor.le_mergeMax_right.trans Floor.le_mergeMax_right⟩
  exact ⟨hfloored.handleFact, .inl hfloored⟩

lemma safe_storeHandle {state : TimelineState} {k : Unit → Service α}
    (hhandle : HandleFact key state w) (hstore : StoreFact p key state w)
    (hnext : ∀ w1, w ≤ w1 → Base C w1 → Safe C p (k ()) Q w1) :
    Safe C p (call (.storeHandle key h state) >>= k) Q w := by
  refine safe_call (R := fun _ _ => True) (fun w1 c r e hle _ h => ⟨?_, trivial⟩)
    fun _ w1 hle hbase _ => hnext w1 hle hbase
  cases c <;> simp only [act, reduceCtorEq] at h
  cases h
  exact ⟨hhandle.mono hle, hstore.mono hle⟩

lemma safe_lockHandle {checked : Option TimelineRoute} {k : TimelineState → Service α}
    (hnext : ∀ state w1, w ≤ w1 → Base C w1 → HandleFact key state w1 →
      ⟨p, key, checked, state⟩ ∈ w1.locks → Safe C p (k state) Q w1) :
    Safe C p (call (.lockHandle key h checked) >>= k) Q w := by
  refine safe_call (R := fun state w1 => HandleFact key state w1 ∧
    ⟨p, key, checked, state⟩ ∈ w1.locks) (fun w1 c r e _ hbase h => ?_)
    fun state w1 hle hbase hR => hnext state w1 hle hbase hR.1 hR.2
  have hpermit := permit_of_harmless rfl h
  refine ⟨hpermit, ?_⟩
  cases c <;> simp only [act, Option.map_eq_some_iff, reduceCtorEq] at h
  obtain ⟨st, hst, heq⟩ := h
  obtain ⟨rfl, rfl⟩ := Prod.mk.inj heq
  obtain ⟨hd, hhd, rfl⟩ := World.exists_handle_of_unlockedState hst
  exact ⟨(hbase.handles p key hd hhd).mono hpermit.grows, by simp [World.apply]⟩

lemma Base.route_eq (hbase : Base C w) {v' : TimelineVersion} (hv : v ∈ w.timelines key)
    (hv' : v' ∈ w.timelines key) (hepoch : v.record.route.epoch = v'.record.route.epoch) :
    v.record.route = v'.record.route := by
  have hpair : (w.timelines key).Pairwise fun v v' =>
      v.record.route.epoch = v'.record.route.epoch → v.record.route = v'.record.route := by
    refine (hbase.timelineOrder key).imp fun {newer old} hsucceeds heq => ?_
    rcases hsucceeds.2 with hroute | hlt
    · exact hroute
    · exact absurd heq hlt.1.ne'
  have hsymm : Std.Symm fun v v' : TimelineVersion =>
      v.record.route.epoch = v'.record.route.epoch → v.record.route = v'.record.route :=
    ⟨fun _ _ h heq => (h heq.symm).symm⟩
  exact List.Pairwise.forall_of_forall (fun _ _ _ => rfl) hpair hv hv' hepoch

lemma Base.epoch_le (hbase : Base C w) (hv : v ∈ w.timelines key) :
    v.record.route.epoch ≤ w.committedEpoch key := by
  obtain ⟨v0, old, hlist⟩ := exists_cons_of_ne_nil (ne_nil_of_mem hv)
  have horder := hbase.timelineOrder key
  rw [hlist] at hv horder
  have hepoch : w.committedEpoch key = v0.record.route.epoch := by
    simp [World.committedEpoch, hlist]
  rw [hepoch]
  rcases mem_cons.mp hv with rfl | hv
  · exact le_rfl
  rcases ((pairwise_cons.mp horder).1 v hv).2 with hroute | hlt
  · rw [hroute]
  · exact hlt.1.le

lemma safe_invoke {k : Nat × Nat → Service α}
    (hnext : ∀ r w1, w ≤ w1 → Base C w1 → InvokeFact key r.1 r.2 w1 → Safe C p (k r) Q w1) :
    Safe C p (call (.invoke key) >>= k) Q w := by
  refine safe_call (fun w1 c r e _ hbase h => ?_) hnext
  refine ⟨permit_of_harmless rfl h, ?_⟩
  cases c <;> simp only [act, reduceCtorEq] at h
  cases h
  refine ⟨le_rfl, fun i _ a s ha hs hkey => ?_⟩
  obtain ⟨v, hv, hroute, -⟩ := (hbase.issued a (mem_of_getElem? ha) s hs).handle
  rw [← hroute]
  exact hbase.epoch_le (hkey ▸ hv)

lemma safe_compareExchangeNextIndex {old : Nat} {a : Allocation} {k : Bool → Service α}
    (hissue : ∀ w1, w ≤ w1 → Base C w1 → (w1.runtime p a.generatorId).nextIndex = old →
      IssueFact C p a w1)
    (hnext : ∀ r w1, w ≤ w1 → Base C w1 → (r = true → a ∈ w1.issued) → Safe C p (k r) Q w1) :
    Safe C p (call (.compareExchangeNextIndex old a) >>= k) Q w := by
  refine safe_call (fun w1 c r e hle hbase h => ?_) hnext
  cases c <;> simp only [act, reduceCtorEq] at h
  split_ifs at h with hold
  · cases h
    exact ⟨hissue w1 hle hbase hold, fun _ => by simp [World.apply]⟩
  · cases h
    exact ⟨trivial, fun h => absurd h Bool.false_ne_true⟩

section

lemma safe_trivial_call {o : Op} (ho : o.harmless = true) :
    Kept C p (call o) w :=
  safe_harmless ho fun _ _ _ _ => safe_done

lemma safe_claimSpecificDedicated :
    Kept C p (claimSpecificDedicated C p g key) w := by
  unfold claimSpecificDedicated
  split_ifs
  · exact safe_fail
  · exact safe_harmless rfl fun _ _ _ _ => safe_ofExcept fun _ _ _ _ => trivial

lemma safe_claimFirstDedicated (ids : List Nat) :
    Kept C p (claimFirstDedicated C p key ids) w := by
  induction ids generalizing w with
  | nil => exact safe_fail
  | cons g rest ih =>
    unfold claimFirstDedicated
    split_ifs
    · refine safe_harmless rfl fun r w1 _ _ => ?_
      split
      · exact safe_done
      · exact ih
      · exact safe_fail
    · exact ih

lemma safe_claimDedicated : Kept C p (claimDedicated C p key) w := by
  refine safe_harmless rfl fun r w1 _ _ => ?_
  split
  · exact safe_done
  · exact safe_claimFirstDedicated _

lemma safe_pickGeneratorId (hbase : Base C w) (tier : ResourceTier) :
    Kept C p (pickGeneratorId C p key tier) w := by
  cases tier with
  | shared | warm => exact safe_ofExcept fun _ _ _ _ => trivial
  | dedicated =>
    exact Safe.bind safe_claimDedicated hbase fun _ _ _ _ _ => safe_done

lemma safe_restoreDedicatedClaim (hbase : Base C w) :
    Kept C p (restoreDedicatedClaim C p key record) w := by
  unfold restoreDedicatedClaim
  split_ifs
  · exact safe_done
  · exact Safe.bind safe_claimSpecificDedicated hbase fun _ _ _ _ _ => safe_done

lemma safe_timelineStateHandleFromRecord (hbase : Base C w)
    (hload : TimelineLoaded key record revision w) :
    Kept C p (timelineStateHandleFromRecord C p key record revision) w := by
  refine Safe.bind (safe_restoreDedicatedClaim hbase) hbase fun _ w1 h1 _ _ => ?_
  refine safe_timelineHandleOrInsert (hload.mono h1) fun h w2 h2 _ => ?_
  exact safe_syncHandle (hload.mono (h1.trans h2)) fun _ _ _ => safe_done

lemma safe_activateLocalTimelineRecord (hbase : Base C w) (leaseFuel fuel : Nat)
    (hload : TimelineLoaded key record revision w) :
    Safe C p (activateLocalTimelineRecord C p key leaseFuel fuel record revision)
      (fun x w => TimelineLoaded key x.1 x.2 w) w := by
  induction fuel generalizing w record revision with
  | zero => exact safe_fail
  | succ fuel ih =>
    refine safe_checked hbase fun w1 h1 hbase1 => ?_
    split_ifs
    · exact safe_pure fun w2 h2 => hload.mono (h1.trans h2)
    split
    · exact safe_pure fun w2 h2 => hload.mono (h1.trans h2)
    · exact Safe.bind (safe_ensureGeneratorLease hbase1 leaseFuel) hbase1
        fun _ w2 h2 _ _ => safe_pure fun w3 h3 => hload.mono (h1.trans (h2.trans h3))
    refine safe_nowMs fun now w2 h2 hbase2 _ => ?_
    split_ifs
    · exact safe_pure fun w3 h3 => hload.mono (h1.trans (h2.trans h3))
    refine Safe.bind (safe_ensureGeneratorLease hbase2 leaseFuel) hbase2
      fun _ w3 h3 _ _ => safe_nowMs fun now w4 h4 _ _ => ?_
    have h04 := h1.trans (h2.trans (h3.trans h4))
    refine safe_compareExchangeTimeline (fun w5 v0 h5 hbase5 hhead hrev => ?_) nofun
      fun r w5 _ hbase5 hwritten => ?_
    · have hrecord := (hload.mono (h04.trans h5)).record_eq hbase5 hhead hrev
      exact ⟨v0, hhead, now, by rw [hrecord]⟩
    split
    · next newRev => exact safe_pure fun w6 h6 => (hwritten newRev rfl).mono h6
    · have hbackoff : Kept C p (backoffAfterMetadataContention (return ())) w5 := by
        refine safe_harmless rfl fun left w6 _ _ => ?_
        split_ifs
        · exact safe_done
        · exact safe_fail
      refine Safe.bind hbackoff hbase5 fun _ w6 _ hbase6 _ => ?_
      refine safe_loadTimelineWithSingleflight hbase6 fun found w7 _ hbase7 hfound => ?_
      split
      · exact safe_fail
      · exact ih hbase7 (hfound _ _ rfl)
    · exact safe_fail

variable {leaseFuel : Nat} {retry : Service TimelineRoute}

lemma safe_createTimeline (hbase : Base C w)
    (hretry : ∀ w1, w ≤ w1 → Base C w1 → Kept C p retry w1) :
    Kept C p (createTimeline C p key tier leaseFuel retry) w := by
  refine Safe.bind (safe_pickGeneratorId hbase tier) hbase fun g w1 h1 hbase1 _ => ?_
  refine Safe.bind (safe_ensureGeneratorLease hbase1 leaseFuel) hbase1
    fun _ w2 h2 _ _ => safe_nowMs fun now w3 h3 _ _ => ?_
  refine safe_createTimelineOp rfl fun r w4 h4 hbase4 hwritten => ?_
  split
  · next revision =>
    exact safe_insertTimeline (hwritten revision rfl) fun _ _ _ => safe_done
  · exact hretry w4 (h1.trans (h2.trans (h3.trans h4))) hbase4
  · exact safe_fail

lemma safe_adoptTimeline {fuel : Nat} (hbase : Base C w)
    (hload : TimelineLoaded key record revision w) :
    Kept C p (adoptTimeline C p key record revision fuel) w := by
  unfold adoptTimeline
  split_ifs
  · refine Safe.bind (safe_activateLocalTimelineRecord hbase fuel fuel hload).attempt hbase
      fun res w1 _ hbase1 hres => ?_
    split
    · exact Safe.bind (safe_timelineStateHandleFromRecord hbase1 hres) hbase1
        fun _ _ _ _ _ => safe_done
    · exact Safe.bind (safe_restoreDedicatedClaim hbase1) hbase1
        fun _ _ _ _ _ => safe_done
    · exact safe_fail
  · exact safe_done

lemma safe_ensureTimelineFromMetadata (hbase : Base C w)
    (hretry : ∀ w1, w ≤ w1 → Base C w1 → Kept C p retry w1) :
    Kept C p (ensureTimelineFromMetadata C p key tier leaseFuel retry) w := by
  refine safe_loadTimelineWithSingleflight hbase fun found w1 h1 hbase1 hfound => ?_
  split
  · exact safe_adoptTimeline hbase1 (hfound _ _ rfl)
  · exact safe_createTimeline hbase1 fun w2 h2 => hretry w2 (h1.trans h2)

lemma safe_rejectNewWork {k : Unit → Service α}
    (hnext : ∀ w1, w ≤ w1 → Base C w1 → Safe C p (k ()) Q w1) (hbase : Base C w) :
    Safe C p (rejectNewWorkIfShuttingDown >>= k) Q w := by
  refine Safe.bind (R := fun _ _ => True) ?_ hbase fun _ w1 hle h1 _ => hnext w1 hle h1
  refine safe_harmless rfl fun closing w1 _ _ => ?_
  split_ifs
  · exact safe_fail
  · exact safe_done

lemma safe_ensureTimelineLoop (tier : ResourceTier) (leaseFuel fuel : Nat) (hbase : Base C w) :
    Kept C p (ensureTimelineLoop C p key tier leaseFuel fuel) w := by
  induction fuel generalizing w with
  | zero => exact safe_fail
  | succ fuel ih =>
    refine safe_rejectNewWork (fun w1 _ _ => safe_harmless rfl fun cached w2 _ hbase2 => ?_) hbase
    split
    · refine safe_harmless rfl fun timeline w3 _ hbase3 => ?_
      split_ifs
      · exact safe_done
      · exact safe_ensureTimelineFromMetadata hbase3 fun w4 _ => ih
    · exact safe_ensureTimelineFromMetadata hbase2 fun w4 _ => ih

lemma safe_ensureTimelineWithTier (tier : ResourceTier) (fuel : Nat) (hbase : Base C w) :
    Kept C p (ensureTimelineWithTier C p key tier fuel) w := by
  unfold ensureTimelineWithTier
  split
  · exact safe_fail
  · exact safe_ensureTimelineLoop tier fuel fuel hbase

lemma safe_renewTimelineLease (fuel : Nat) (hbase : Base C w) :
    Kept C p (renewTimelineLease C p key fuel) w := by
  unfold renewTimelineLease
  split
  · exact safe_fail
  refine safe_loadTimelineWithSingleflight hbase fun found w1 _ hbase1 _ => ?_
  split
  · exact safe_fail
  split_ifs
  · exact safe_fail
  · exact Safe.bind (safe_ensureGeneratorLease hbase1 fuel) hbase1
      fun _ w2 _ hbase2 _ => safe_refreshGeneratorLeaseInner hbase2

lemma safe_clearTimelineCache : Kept C p (clearTimelineCache key) w :=
  safe_trivial_call rfl

lemma safe_invalidateTimelineCacheForRouteUpdate {update : TimelineRoute} :
    Kept C p (invalidateTimelineCacheForRouteUpdate C update) w := by
  refine safe_harmless rfl fun cached w1 _ _ => ?_
  split
  · exact safe_done
  refine safe_harmless rfl fun state w2 _ _ => ?_
  split_ifs
  · refine safe_harmless rfl fun state w3 _ _ => ?_
    split_ifs
    · exact safe_harmless rfl fun _ w4 _ _ => safe_clearTimelineCache
    · exact safe_clearTimelineCache
  · exact safe_done

lemma safe_resetTimelineCache : Kept C p resetTimelineCache w :=
  safe_harmless rfl fun _ _ _ _ => safe_trivial_call rfl

lemma safe_invalidateLocalRuntimeAfterShutdown :
    Kept C p invalidateLocalRuntimeAfterShutdown w :=
  safe_harmless rfl fun _ _ _ _ => safe_harmless rfl fun _ _ _ _ => safe_trivial_call rfl

lemma safe_bestEffortPersistLocalTimelineFloor :
    Kept C p (bestEffortPersistLocalTimelineFloor C p key) w := by
  refine safe_harmless rfl fun cached w1 _ _ => ?_
  split
  · exact safe_done
  refine safe_harmless rfl fun timeline w2 _ _ => ?_
  split
  · exact safe_done
  refine safe_loadTimeline fun r w3 _ _ hload => ?_
  split
  · exact safe_fail
  · exact safe_done
  · next last _ _ record revision =>
    simp only
    split_ifs
    · exact safe_done
    refine safe_nowMs fun now w4 h4 _ _ => ?_
    refine safe_compareExchangeTimeline (fun w5 v0 h5 hbase5 hhead hrev => ?_) nofun
      fun r w5 _ _ _ => ?_
    · have hrecord := ((hload record revision rfl).mono (h4.trans h5)).record_eq hbase5 hhead hrev
      exact ⟨v0, hhead, now, by rw [hrecord]⟩
    split
    · exact safe_done
    · exact safe_done
    · exact safe_fail

end

end Chronos
