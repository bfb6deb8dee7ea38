import Chronos.KeyValue.Store
import Chronos.Service.Lease

/-! The lease code keeps to the discipline: every record it writes is justified by what it read,
and every lease it stores mirrors a committed version whose floor the cursor has passed. -/

namespace Chronos

open Interleaving Discipline List

variable {C : Cluster} {p g : Nat} {w : World} {α : Type} {Q : α → World → Prop}

variable {v0 : GeneratorVersion} {write : GeneratorWrite} {exp : Nat} {w' : World}

lemma GeneratorLoaded.record_eq {record : GeneratorRecord} {rev : Nat}
    (h : GeneratorLoaded g record rev w) (hbase : Base C w)
    (hhead : (w.generators g).head? = some v0) (hrev : v0.revision = rev) :
    v0.record = record := by
  obtain ⟨v, hv, rfl, hrev'⟩ := h
  rw [KeyValue.eq_of_pairwise_lt (hbase.generatorOrder g) (mem_of_mem_head? hhead) hv
    (hrev.trans hrev'.symm)]

lemma safe_checkRequestCancellation : Kept C p checkRequestCancellation w := by
  refine safe_harmless rfl fun cancelled w1 _ _ => ?_
  split_ifs
  · exact safe_fail
  · exact safe_done

lemma safe_checked {k : Unit → Service α} (hbase : Base C w)
    (hnext : ∀ w1, w ≤ w1 → Base C w1 → Safe C p (k ()) Q w1) :
    Safe C p (checkRequestCancellation >>= k) Q w :=
  Safe.bind safe_checkRequestCancellation hbase fun _ w1 hle h1 _ => hnext w1 hle h1

lemma safe_withGeneratorLeaseSingleflight {body : Service α} (hbase : Base C w)
    (hmono : ∀ x w1 w2, w1 ≤ w2 → Q x w1 → Q x w2)
    (hbody : ∀ w1, w ≤ w1 → Base C w1 → Safe C p body Q w1) :
    Safe C p (withGeneratorLeaseSingleflight g body) Q w := by
  refine safe_checked hbase fun w1 h1 hbase1 => ?_
  refine safe_harmless rfl fun _ w2 h2 hbase2 => ?_
  refine Safe.bind (hbody w2 (h1.trans h2) hbase2).attempt hbase2 fun x w3 _ _ hx => ?_
  refine safe_harmless rfl fun _ w4 h4 _ => safe_ofExcept fun a ha w5 h5 => ?_
  subst ha
  exact hmono a w3 w5 (h4.trans h5) hx

lemma safe_isGeneratorLeaseValid : Kept C p (isGeneratorLeaseValid g) w :=
  safe_nowMs fun _ _ _ _ _ => safe_harmless rfl fun _ _ _ _ => safe_done

lemma safe_initAfterFloor {record : GeneratorRecord} {k : Unit → Service α}
    (hg : g < C.layout.maxGenerators) (hbase : Base C w)
    (hnext : ∀ w1, w ≤ w1 → Base C w1 → PastFloor C p g record w1 → Safe C p (k ()) Q w1) :
    Safe C p (initAfterFloor C g (generatorRecoveryFloorTso record) >>= k) Q w := by
  refine Safe.bind ?_ hbase fun _ w1 hle hbase1 h => hnext w1 hle hbase1 h
  unfold initAfterFloor
  split
  · next hfloor => exact safe_pure fun w1 _ floor h => by rw [hfloor] at h; cases h
  · next floor hfloor =>
    split
    · exact safe_fail
    · next idx hidx =>
      refine safe_fetchMaxNextIndex fun w1 hle _ hnext => safe_pure fun w2 h2 f hf => ?_
      cases hfloor.symm.trans hf
      exact (Generator.initIndex_le_iff hg hidx).mp (hnext.trans (h2.nextIndex p g))

lemma safe_installLease {lease : GeneratorLeaseState} (hlease : LeaseFact C p g lease w) :
    Kept C p (installLease g lease) w := by
  refine safe_harmless rfl fun _ w1 hle _ => ?_
  exact safe_upsertLease (hlease.mono hle) fun _ _ _ => safe_done

lemma safe_currentLastIssuedTso {k : Option Nat → Service α} (hbase : Base C w)
    (hnext : ∀ last w1, w ≤ w1 → Base C w1 → LocalLast C p g last w1 → Safe C p (k last) Q w1) :
    Safe C p (currentLastIssuedTso C g >>= k) Q w := by
  refine Safe.bind ?_ hbase hnext
  refine safe_loadNextIndex fun n w1 _ _ hn => safe_ofExcept fun last hlast w2 h2 => ?_
  exact ⟨n, hn.trans (h2.nextIndex p g), hlast⟩

lemma GeneratorLoaded.leaseFact {record : GeneratorRecord} {lease : GeneratorLeaseState}
    (h : GeneratorLoaded g record lease.revision w)
    (hown : record.ownerInstanceId = (C.worker p).instanceId)
    (hleaseOwn : lease.ownerInstanceId = record.ownerInstanceId)
    (hexp : record.leaseExpireAtMs = some lease.leaseExpireAtMs)
    (hbound : record.issuedUpperBound = lease.issuedUpperBound)
    (hlast : Floor.Le record.lastIssuedTso lease.lastPersistedTso)
    (hpast : PastFloor C p g record w) : LeaseFact C p g lease w := by
  obtain ⟨v, hv, rfl, hrev⟩ := h
  exact ⟨v, hv, hrev, hown, hleaseOwn.trans hown, hexp, hbound, hlast, .inr hpast⟩

lemma GeneratorWritten.leaseFact {record : GeneratorRecord}
    {lease : GeneratorLeaseState} (h : GeneratorWritten p g write record lease.revision w)
    (hgrants : write.grants = true)
    (hown : record.ownerInstanceId = (C.worker p).instanceId)
    (hleaseOwn : lease.ownerInstanceId = record.ownerInstanceId)
    (hexp : record.leaseExpireAtMs = some lease.leaseExpireAtMs)
    (hbound : record.issuedUpperBound = lease.issuedUpperBound)
    (hlast : Floor.Le record.lastIssuedTso lease.lastPersistedTso) : LeaseFact C p g lease w := by
  obtain ⟨v, hv, hrev, rfl, hwriter, rfl⟩ := h
  exact ⟨v, hv, hrev, hown, hleaseOwn.trans hown, hexp, hbound, hlast, .inl ⟨hwriter, hgrants⟩⟩

lemma GeneratorWritten.loaded {record : GeneratorRecord} {rev : Nat}
    (h : GeneratorWritten p g write record rev w) : GeneratorLoaded g record rev w := by
  obtain ⟨v, hv, hrev, hrecord, -⟩ := h
  exact ⟨v, hv, hrecord, hrev⟩

lemma safe_reuseGeneratorLease {record : GeneratorRecord} {rev : Nat}
    (hg : g < C.layout.maxGenerators) (hbase : Base C w)
    (hload : GeneratorLoaded g record rev w)
    (hown : record.ownerInstanceId = (C.worker p).instanceId)
    (hexp : record.leaseExpireAtMs = some exp) :
    Kept C p (reuseGeneratorLease C g record rev exp) w := by
  refine safe_initAfterFloor hg hbase fun w1 hle _ hpast => safe_installLease ?_
  exact (hload.mono hle).leaseFact hown rfl hexp rfl Floor.le_mergeMax_left hpast

lemma safe_backoff {retry : Service Unit}
    (hretry : ∀ w1, w ≤ w1 → Base C w1 → Kept C p retry w1) :
    Kept C p (backoffAfterMetadataContention (do checkRequestCancellation; retry)) w := by
  refine safe_harmless rfl fun left w1 h1 hbase1 => ?_
  split_ifs
  · exact safe_checked hbase1 fun w2 h2 hbase2 => hretry w2 (h1.trans h2) hbase2
  · exact safe_fail

section

variable {record : GeneratorRecord} {rev : Nat} {retry : Service Unit}

lemma safe_takeOverGeneratorLease {now : Nat} (hg : g < C.layout.maxGenerators)
    (hload : GeneratorLoaded g record rev w) (hnow : now ∈ w.readings p)
    (hexp : record.leaseExpireAtMs = some exp)
    (hexpired : leaseExpiredWithSafetyGap exp now (C.worker p).safetyGapMs = true)
    (hretry : ∀ w1, w ≤ w1 → Base C w1 → Kept C p retry w1) :
    Kept C p (takeOverGeneratorLease C p g record rev now retry) w := by
  unfold takeOverGeneratorLease
  split
  · exact safe_fail
  · next taken htaken =>
    obtain ⟨hown, hlease, -⟩ := Cluster.takeoverRecord_eq_ok htaken
    refine safe_compareExchangeGenerator (fun w1 v0 hle hbase1 hhead hrev => ?_)
      fun r w1 h1 hbase1 hwritten => ?_
    · have hrecord := (hload.mono hle).record_eq hbase1 hhead hrev
      exact ⟨hg, v0, hhead, now, mem_readings_mono hnow hle, exp, by rw [hrecord, hexp],
        hexpired, by rw [hrecord, htaken]⟩
    split
    · next newRev =>
      refine safe_initAfterFloor hg hbase1 fun w2 h2 _ hpast => safe_installLease ?_
      exact ((hwritten newRev rfl).loaded.mono h2).leaseFact hown rfl hlease rfl Floor.Le.refl hpast
    · exact safe_backoff fun w2 h2 => hretry w2 (h1.trans h2)
    · exact safe_fail

lemma safe_createGeneratorLease (hg : g < C.layout.maxGenerators)
    (hretry : ∀ w1, w ≤ w1 → Base C w1 → Kept C p retry w1) :
    Kept C p (createGeneratorLease C p g retry) w := by
  refine safe_nowMs fun now w1 h1 _ hnow => ?_
  refine safe_createGenerator hg ⟨now, hnow, rfl⟩ fun r w2 h2 _ hwritten => ?_
  split
  · next rev =>
    exact safe_installLease ((hwritten rev rfl).leaseFact rfl rfl rfl rfl rfl Floor.Le.refl)
  · exact safe_backoff fun w3 h3 => hretry w3 (h1.trans (h2.trans h3))
  · exact safe_fail

lemma safe_adoptGeneratorLease (hg : g < C.layout.maxGenerators)
    (hload : GeneratorLoaded g record rev w)
    (hretry : ∀ w1, w ≤ w1 → Base C w1 → Kept C p retry w1) :
    Kept C p (adoptGeneratorLease C p g record rev retry) w := by
  refine safe_nowMs fun now w1 h1 hbase1 hnow => ?_
  simp only
  split_ifs with hlocal hready
  · split
    · exact safe_fail
    · next exp hexp =>
      split_ifs
      · rw [Bool.and_eq_true] at hlocal
        exact safe_reuseGeneratorLease hg hbase1 (hload.mono h1)
          (Cluster.isLocalGeneratorOwner_instanceId hlocal.1) hexp
      · exact safe_fail
  · obtain ⟨exp, hexp, hexpired⟩ := (Option.any_eq_true ..).mp hready
    exact safe_takeOverGeneratorLease hg (hload.mono h1) hnow hexp hexpired
      fun w2 h2 => hretry w2 (h1.trans h2)
  · exact safe_fail

end

lemma safe_acquireGeneratorLease (hg : g < C.layout.maxGenerators) (hbase : Base C w)
    (fuel : Nat) : Kept C p (acquireGeneratorLease C p g fuel) w := by
  induction fuel generalizing w with
  | zero => exact safe_fail
  | succ fuel ih =>
    refine safe_checked hbase fun w1 _ _ => ?_
    refine safe_loadGenerator fun r w2 _ _ hload => ?_
    split
    · exact safe_fail
    · exact safe_adoptGeneratorLease hg (hload _ _ rfl) fun w3 _ hbase3 => ih hbase3
    · exact safe_createGeneratorLease hg fun w3 _ hbase3 => ih hbase3

lemma safe_ensureGeneratorLeaseAfterSingleflight (hbase : Base C w) (fuel : Nat) :
    Kept C p (ensureGeneratorLeaseAfterSingleflight C p g fuel) w := by
  unfold ensureGeneratorLeaseAfterSingleflight
  split
  · exact safe_fail
  · next hrange =>
    have hg := Cluster.ensureGeneratorIdRange_eq_ok hrange
    split_ifs
    · refine Safe.bind safe_isGeneratorLeaseValid hbase fun valid w1 _ hbase1 _ => ?_
      split_ifs
      · exact safe_done
      · exact safe_acquireGeneratorLease hg hbase1 fuel
    · exact safe_fail

lemma safe_ensureGeneratorLease (hbase : Base C w) (fuel : Nat) :
    Kept C p (ensureGeneratorLease C p g fuel) w := by
  refine safe_withGeneratorLeaseSingleflight hbase (fun _ _ _ _ h => h) fun w1 _ hbase1 => ?_
  refine safe_checked hbase1 fun w2 _ hbase2 => ?_
  refine Safe.bind safe_isGeneratorLeaseValid hbase2 fun valid w3 _ hbase3 _ => ?_
  split_ifs
  · exact safe_done
  · exact safe_ensureGeneratorLeaseAfterSingleflight hbase3 fuel

def AllocationBound (C : Cluster) (p g : Nat) (bound : Option Nat) (w : World) : Prop :=
  (∀ u, bound = some u → BoundFact C p g u w) ∧ (bound = none → (p, g, none) ∈ w.finalReads)

lemma AllocationBound.mono {bound : Option Nat}
    (h : AllocationBound C p g bound w) (hle : w ≤ w') : AllocationBound C p g bound w' :=
  ⟨fun u hu => (h.1 u hu).mono hle, fun hnone => hle.finalReads.mem (h.2 hnone)⟩

lemma BoundFact.allocationBound {u : Nat} (h : BoundFact C p g u w) :
    AllocationBound C p g (some u) w :=
  ⟨fun _ hu => Option.some.inj hu ▸ h, nofun⟩

lemma safe_ensureGeneratorLeaseForAllocation {key : String} (fuel : Nat) :
    Safe C p (ensureGeneratorLeaseForAllocation C p key g fuel) (AllocationBound C p g) w := by
  refine safe_nowMs fun _ w1 _ _ _ => safe_upperBound fun r w2 _ hbase2 hread _ => ?_
  split
  · exact safe_pure fun w3 h3 => (hread _ rfl).allocationBound.mono h3
  refine safe_checked hbase2 fun w3 _ hbase3 => ?_
  refine safe_withGeneratorLeaseSingleflight hbase3 (fun _ _ _ hle h => h.mono hle)
    fun w4 _ hbase4 => ?_
  refine safe_checked hbase4 fun w5 _ _ => safe_nowMs fun _ w6 _ _ _ => ?_
  refine safe_upperBound fun r w7 _ _ hread _ => ?_
  split
  · exact safe_pure fun w8 h8 => (hread _ rfl).allocationBound.mono h8
  refine safe_loadGenerator fun r w8 _ _ _ => ?_
  split
  · exact safe_fail
  · exact safe_fail
  refine safe_nowMs fun _ w9 _ hbase9 _ => ?_
  split
  · exact safe_fail
  split_ifs
  · exact safe_fail
  refine Safe.bind (safe_ensureGeneratorLeaseAfterSingleflight hbase9 fuel) hbase9
    fun _ w10 _ _ _ => safe_nowMs fun _ w11 _ _ _ => ?_
  refine safe_upperBound fun bound w12 _ _ hread hnone => safe_pure fun w13 h13 => ?_
  exact AllocationBound.mono ⟨hread, hnone rfl⟩ h13

section

variable {lease : GeneratorLeaseState} {now fuel : Nat} {localLast : Option Nat}
  {reason : GeneratorLeaseRefreshReason}

lemma LeaseFact.mirrors_head (h : LeaseFact C p g lease w)
    (hbase : Base C w) (hhead : (w.generators g).head? = some v0)
    (hrev : v0.revision = lease.revision) : Mirrors C p g lease w v0 := by
  obtain ⟨v, hv⟩ := h
  rwa [KeyValue.eq_of_pairwise_lt (hbase.generatorOrder g) (mem_of_mem_head? hhead) hv.mem
    (hrev.trans hv.revision.symm)]

lemma LeaseFact.refreshCommit (hlease : LeaseFact C p g lease w)
    (hbase : Base C w) (hnow : now ∈ w.readings p) (hvalid : now < lease.leaseExpireAtMs)
    (hlast : LocalLast C p g localLast w) (hhead : (w.generators g).head? = some v0)
    (hrev : v0.revision = lease.revision) :
    GeneratorCommit C p g w ⟨w.revision + 1, C.refreshRecord p g lease localLast now reason, p,
      .refresh reason⟩ :=
  ⟨v0, hhead, lease, hlease.mirrors_head hbase hhead hrev, now, hnow, hvalid, localLast, hlast, rfl⟩

lemma GeneratorWritten.refreshLeaseFact {state : GeneratorLeaseState} {rev : Nat}
    (hlease : LeaseFact C p g lease w)
    (hwritten : GeneratorWritten p g (.refresh reason)
      (C.refreshRecord p g lease localLast now reason) rev w)
    (hst : runtimeLeaseStateFromRecord rev
      (C.refreshRecord p g lease localLast now reason) = .ok state) : LeaseFact C p g state w := by
  obtain ⟨v, hv⟩ := hlease
  cases hst
  exact hwritten.leaseFact rfl hv.leaseOwner rfl rfl rfl Floor.Le.refl

lemma safe_reensureGeneratorLease (hlease : LeaseFact C p g lease w) :
    Kept C p (reensureGeneratorLease C p g lease fuel) w := by
  refine safe_harmless rfl fun _ w1 h1 _ => safe_harmless rfl fun _ w2 h2 hbase2 => ?_
  refine Safe.bind (safe_ensureGeneratorLeaseAfterSingleflight hbase2 fuel).attempt
    hbase2 fun res w3 h3 _ _ => ?_
  split
  · exact safe_done
  refine safe_leaseState fun r w4 h4 _ _ => ?_
  split
  · exact safe_fail
  · exact safe_upsertLease (hlease.mono (h1.trans (h2.trans (h3.trans h4)))) fun _ _ _ => safe_fail

lemma safe_writeRefreshedLease (hlease : LeaseFact C p g lease w) (hnow : now ∈ w.readings p)
    (hvalid : now < lease.leaseExpireAtMs) (hlast : LocalLast C p g localLast w) :
    Kept C p (writeRefreshedLease C p g lease localLast now reason fuel) w := by
  refine safe_compareExchangeGenerator (fun w1 v0 hle hbase1 hhead hrev => ?_)
    fun r w1 h1 _ hwritten => ?_
  · exact (hlease.mono hle).refreshCommit hbase1 (mem_readings_mono hnow hle) hvalid
      (hlast.mono hle) hhead hrev
  split
  · next newRev =>
    split
    · exact safe_fail
    · next state hst =>
      exact safe_installLease ((hwritten newRev rfl).refreshLeaseFact (hlease.mono h1) hst)
  · exact safe_reensureGeneratorLease (hlease.mono h1)
  · exact safe_fail

lemma safe_refreshGeneratorLeaseAfterSingleflight (hnow : now ∈ w.readings p) :
    Kept C p (refreshGeneratorLeaseAfterSingleflight C p g now reason fuel) w := by
  refine safe_leaseState fun r w1 h1 hbase1 hlease => ?_
  split
  · exact safe_done
  · next lease =>
    refine safe_checked hbase1 fun w2 h2 hbase2 => ?_
    split_ifs with hexpired
    · exact safe_fail
    refine safe_currentLastIssuedTso hbase2 fun localLast w3 h3 _ hlast => ?_
    split_ifs
    · exact safe_writeRefreshedLease ((hlease lease rfl).mono (h2.trans h3))
        (mem_readings_mono hnow (h1.trans (h2.trans h3))) (Nat.lt_of_not_le hexpired) hlast
    · exact safe_done

lemma safe_refreshGeneratorLeaseInner (hbase : Base C w) :
    Kept C p (refreshGeneratorLeaseInner C p g reason fuel) w := by
  refine safe_withGeneratorLeaseSingleflight hbase (fun _ _ _ _ h => h) fun w1 _ hbase1 => ?_
  refine safe_checked hbase1 fun w2 _ _ => safe_nowMs fun now w3 _ _ hnow => ?_
  exact safe_refreshGeneratorLeaseAfterSingleflight hnow

lemma safe_refreshGeneratorLeaseIfUnchanged {observed : Option Nat} (hbase : Base C w) :
    Kept C p (refreshGeneratorLeaseIfUnchanged C p g observed fuel) w := by
  refine safe_withGeneratorLeaseSingleflight hbase (fun _ _ _ _ h => h) fun w1 _ hbase1 => ?_
  refine safe_checked hbase1 fun w2 _ _ => safe_nowMs fun now w3 _ _ hnow => ?_
  refine safe_leaseState fun r w4 h4 hbase4 _ => ?_
  split
  · exact safe_ensureGeneratorLeaseAfterSingleflight hbase4 fuel
  split_ifs
  · exact safe_done
  · exact safe_refreshGeneratorLeaseAfterSingleflight (mem_readings_mono hnow h4)

end

def BatchFact (C : Cluster) (p : Nat) (o : GeneratorBatchOp) (w : World) : Prop :=
  ∃ lease now localLast, LeaseFact C p o.generatorId lease w ∧ now ∈ w.readings p ∧
    now < lease.leaseExpireAtMs ∧ LocalLast C p o.generatorId localLast w ∧
    o.previousRevision = lease.revision ∧
    o.record = C.refreshRecord p o.generatorId lease localLast now .maintenance

lemma BatchFact.mono {o : GeneratorBatchOp} (h : BatchFact C p o w)
    (hle : w ≤ w') : BatchFact C p o w' := by
  obtain ⟨lease, now, localLast, hlease, hnow, hvalid, hlast, hrest⟩ := h
  exact ⟨lease, now, localLast, hlease.mono hle, mem_readings_mono hnow hle, hvalid,
    hlast.mono hle, hrest⟩

lemma safe_refreshOperation : Safe C p (refreshOperation C p g)
      (fun op w => ∀ o ∈ op.toList, BatchFact C p o w) w := by
  refine safe_nowMs fun now w1 _ _ hnow => safe_leaseState fun r w2 h2 hbase2 hlease => ?_
  split
  · exact safe_pure fun _ _ => nofun
  · next lease =>
    split_ifs with hexpired
    · exact safe_pure fun _ _ => nofun
    have hattempt : Safe C p (currentLastIssuedTso C g).attempt (OnOk (LocalLast C p g)) w2 := by
      refine Safe.attempt (safe_loadNextIndex fun n w3 _ _ hn =>
        safe_ofExcept fun last hlast w4 h4 => ?_)
      exact ⟨n, hn.trans (h4.nextIndex p g), hlast⟩
    refine Safe.bind hattempt hbase2 fun x w3 h3 _ hlast => ?_
    split
    · exact safe_pure fun _ _ => nofun
    · next localLast =>
      split_ifs
      · refine safe_pure fun w4 h4 o ho => ?_
        obtain rfl := mem_singleton.mp ho
        exact ⟨lease, now, localLast, (hlease lease rfl).mono (h3.trans h4),
          mem_readings_mono hnow (h2.trans (h3.trans h4)), Nat.lt_of_not_le hexpired,
          LocalLast.mono hlast h4, rfl, rfl⟩
      · exact safe_pure fun _ _ => nofun

lemma safe_refreshOperations (hbase : Base C w) (ids : List Nat) :
    Safe C p (refreshOperations C p ids) (fun ops w => ∀ o ∈ ops, BatchFact C p o w) w := by
  induction ids generalizing w with
  | nil => exact safe_pure fun _ _ => nofun
  | cons g rest ih =>
    refine Safe.bind safe_refreshOperation hbase fun op w1 _ hbase1 hop => ?_
    refine Safe.bind (ih hbase1) hbase1 fun operations w2 h2 _ hops => ?_
    refine safe_pure fun w3 h3 o ho => ?_
    rcases mem_append.mp ho with ho | ho
    · exact (hop o ho).mono (h2.trans h3)
    · exact (hops o ho).mono h3

lemma safe_installBatch (hbase : Base C w) {written : List (GeneratorBatchOp × Nat)}
    (hwritten : ∀ x ∈ written, BatchFact C p x.1 w ∧
      GeneratorWritten p x.1.generatorId (.refresh .maintenance) x.1.record x.2 w) :
    Kept C p (installBatch written) w := by
  induction written generalizing w with
  | nil => exact safe_done
  | cons x rest ih =>
    obtain ⟨op, rev⟩ := x
    rw [forall_mem_cons] at hwritten
    have hrest : ∀ w1, w ≤ w1 → ∀ x ∈ rest, BatchFact C p x.1 w1 ∧
        GeneratorWritten p x.1.generatorId (.refresh .maintenance) x.1.record x.2 w1 :=
      fun w1 hle x hx => ⟨(hwritten.2 x hx).1.mono hle, (hwritten.2 x hx).2.mono hle⟩
    unfold installBatch
    split
    · exact ih hbase (hrest w le_rfl)
    · next state hst =>
      obtain ⟨⟨lease, now, localLast, hlease, -, -, -, -, hrecord⟩, hw⟩ := hwritten.1
      rw [hrecord] at hst hw
      refine Safe.bind (safe_installLease (hw.refreshLeaseFact hlease hst)) hbase
        fun _ w1 hle hbase1 _ => ih hbase1 (hrest w1 hle)

lemma safe_writeBatches (leaseFuel fuel : Nat) {pending : List (List GeneratorBatchOp)}
    (hbase : Base C w) (hpending : ∀ ops ∈ pending, ∀ o ∈ ops, BatchFact C p o w) :
    Kept C p (writeBatches C p leaseFuel fuel pending) w := by
  induction fuel generalizing w pending with
  | zero =>
    cases pending with
    | nil => exact safe_done
    | cons ops rest => exact safe_fail
  | succ fuel ih =>
    cases pending with
    | nil => exact safe_done
    | cons ops rest =>
      rw [forall_mem_cons] at hpending
      obtain ⟨hops, hrest⟩ := hpending
      have hrest' : ∀ w1, w ≤ w1 → ∀ ops ∈ rest, ∀ o ∈ ops, BatchFact C p o w1 :=
        fun w1 hle ops hmem o ho => (hrest ops hmem o ho).mono hle
      refine safe_compareExchangeGenerators (fun o ho w1 v0 hle hbase1 hhead hrev => ?_)
        fun r w1 h1 hbase1 hwritten => ?_
      · obtain ⟨lease, now, localLast, hlease, hnow, hvalid, hlast, hprev, hrecord⟩ :=
          (hops o ho).mono hle
        rw [hrecord]
        exact hlease.refreshCommit hbase1 hnow hvalid hlast hhead (hrev.trans hprev)
      split
      · next revs =>
        split_ifs
        · exact ih hbase1 (hrest' w1 h1)
        refine Safe.bind (safe_installBatch hbase1 fun x hx =>
          ⟨(hops x.1 (of_mem_zip hx).1).mono h1, hwritten revs rfl x hx⟩) hbase1
          fun _ w2 h2 hbase2 _ => ih hbase2 (hrest' w2 (h1.trans h2))
      · split
        · exact ih hbase1 (hrest' w1 h1)
        · exact Safe.bind (safe_refreshGeneratorLeaseInner hbase1).attempt hbase1
            fun _ w2 h2 hbase2 _ => ih hbase2 (hrest' w2 (h1.trans h2))
        refine ih hbase1 ?_
        rw [forall_mem_cons, forall_mem_cons]
        exact ⟨fun o ho => (hops o (mem_of_mem_take ho)).mono h1,
          fun o ho => (hops o (mem_of_mem_drop ho)).mono h1, hrest' w1 h1⟩
      · exact ih hbase1 (hrest' w1 h1)

lemma safe_refreshGeneratorLeasesBatch {leaseFuel fuel : Nat} (ids : List Nat) (hbase : Base C w) :
    Kept C p (refreshGeneratorLeasesBatch C p ids leaseFuel fuel) w := by
  refine Safe.bind (safe_refreshOperations hbase ids) hbase fun ops w1 _ hbase1 hops => ?_
  split_ifs
  · exact safe_done
  · exact safe_writeBatches leaseFuel fuel hbase1 (forall_mem_singleton.mpr hops)

lemma safe_bestEffortPersistLocalGeneratorFloor (hbase : Base C w) :
    Kept C p (bestEffortPersistLocalGeneratorFloor C p g) w := by
  refine safe_currentLastIssuedTso hbase fun localLast w1 _ _ hlast => ?_
  split
  · exact safe_done
  · next last =>
    refine safe_loadGenerator fun r w2 h2 _ hload => ?_
    split
    · exact safe_fail
    · exact safe_done
    · next record rev =>
      split_ifs with hskip
      · exact safe_done
      have hlocal : C.isLocalGeneratorOwner p record = true := by simp_all
      refine safe_nowMs fun now w3 h3 _ _ => ?_
      refine safe_compareExchangeGenerator (fun w4 v0 h4 hbase4 hhead hrev => ?_)
        fun r w4 _ _ _ => ?_
      · have hrecord := ((hload record rev rfl).mono (h3.trans h4)).record_eq hbase4 hhead hrev
        exact ⟨v0, hhead, by rw [hrecord, Cluster.isLocalGeneratorOwner_instanceId hlocal], last,
          hlast.mono (h2.trans (h3.trans h4)), now, by rw [hrecord]⟩
      · split
        · exact safe_done
        · exact safe_done
        · exact safe_fail

end Chronos
