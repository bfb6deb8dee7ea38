import Chronos.Service.System
import Chronos.Transition.Run

/-! Refreshes of a held lease. What a refresh writes never lies below what it replaces, but for one
case: an expiry beyond the time to live is given up when the lease is renewed on request. -/

namespace Chronos

/-- The runtime's lease state against the record it was made from; a reused record leaves its
recovery floor as the last persisted timestamp. -/
structure GeneratorLeaseState.MirrorsRecord (lease : GeneratorLeaseState)
    (record : GeneratorRecord) : Prop where
  expire : record.leaseExpireAtMs = some lease.leaseExpireAtMs
  bound : record.issuedUpperBound = lease.issuedUpperBound
  last : Floor.Le record.lastIssuedTso lease.lastPersistedTso

namespace Cluster

structure RefreshAdvances (C : Cluster) (p generatorId : Nat) (record : GeneratorRecord)
    (lease : GeneratorLeaseState) (localLast : Option Nat) (nowMs : Nat)
    (reason : GeneratorLeaseRefreshReason) (written : GeneratorRecord) : Prop where
  last : Floor.Le record.lastIssuedTso written.lastIssuedTso
  bound : Floor.Le record.issuedUpperBound written.issuedUpperBound
  expire : Floor.Le record.leaseExpireAtMs written.leaseExpireAtMs
  floor : Floor.Le (generatorRecoveryFloorTso record) (generatorRecoveryFloorTso written)
  progress : reason = .horizonRequired ∨ reason = .explicitRenewal →
    0 < (C.worker p).preBorrowMs → ∀ next,
    C.layout.encode ((C.refreshPlan p lease localLast nowMs).nextUpperBoundBaseMs +
      (C.worker p).preBorrowMs) generatorId (C.layout.sequenceCapacity - 1) = .ok next →
    ∃ bound, written.issuedUpperBound = some bound ∧
      (∀ old, record.issuedUpperBound = some old → old < bound) ∧
      ∀ last, localLast = some last → last < bound

/-- An expiry that the refresh renews is not beyond the time to live. -/
def RenewalLasts (C : Cluster) (p : Nat) (lease : GeneratorLeaseState) (nowMs : Nat)
    (reason : GeneratorLeaseRefreshReason) : Prop :=
  reason = .explicitRenewal ∨
    lease.leaseExpireAtMs ≤ nowMs + (C.worker p).generatorLeaseTtlMs / 2 →
    lease.leaseExpireAtMs ≤ nowMs + (C.worker p).generatorLeaseTtlMs ∧
      nowMs + (C.worker p).generatorLeaseTtlMs < U64.size

variable {C : Cluster} {p gid nowMs : Nat} {record : GeneratorRecord}
  {lease : GeneratorLeaseState} {localLast : Option Nat} {reason : GeneratorLeaseRefreshReason}

lemma lt_of_encode {L : TimestampLayout} {t ms g s next : Nat}
    (hlt : (L.decode t).physicalMs < ms) (h : L.encode ms g s = .ok next) : t < next := by
  obtain ⟨-, -, hg, hs, rfl⟩ := TimestampLayout.encode_eq_ok.mp h
  have ht := TimestampLayout.pack_decode (L := L) (t := t)
  rw [← ht, TimestampLayout.lex_lt TimestampLayout.decode_sequence_lt hs,
    TimestampLayout.lex_lt TimestampLayout.decode_generatorId_lt hg]
  exact .inl (.inl hlt)

lemma le_nextUpperBoundBaseMs {t : Nat}
    (h : Floor.Le (some t) (Floor.mergeMax lease.issuedUpperBound
      (Floor.mergeMax lease.lastPersistedTso localLast))) :
    (C.layout.decode t).physicalMs ≤
      (C.refreshPlan p lease localLast nowMs).nextUpperBoundBaseMs := by
  obtain ⟨bound, hbound, hle⟩ := h t rfl
  have hbase : (C.refreshPlan p lease localLast nowMs).nextUpperBoundBaseMs =
      max nowMs (C.layout.decode bound).physicalMs := by
    simp only [refreshPlan, GeneratorLeaseRefreshPlan.buildWithLayout, hbound]
  rw [hbase, TimestampLayout.decode_physicalMs, TimestampLayout.decode_physicalMs]
  exact (Nat.div_le_div_right hle).trans (le_max_right _ _)

lemma refreshRecord_progress (hreason : reason.forcesUpperBound = true)
    (hborrow : 0 < (C.worker p).preBorrowMs) {next : Nat}
    (hnext : C.layout.encode ((C.refreshPlan p lease localLast nowMs).nextUpperBoundBaseMs +
      (C.worker p).preBorrowMs) gid (C.layout.sequenceCapacity - 1) = .ok next) :
    (C.refreshRecord p gid lease localLast nowMs reason).issuedUpperBound = some next ∧
      (∀ old, lease.issuedUpperBound = some old → old < next) ∧
      ∀ last, localLast = some last → last < next := by
  have hfits := (TimestampLayout.encode_eq_ok.mp hnext).2.1
  have hsize := C.layout_valid.maxPhysicalMs_lt
  have hcompute : C.computeGeneratorUpperBound p gid
      (C.refreshPlan p lease localLast nowMs).nextUpperBoundBaseMs = some next := by
    rw [computeGeneratorUpperBound, U64.wrappingAdd_of_lt (by omega), hnext]
    rfl
  have habove : ∀ t, Floor.Le (some t) (Floor.mergeMax lease.issuedUpperBound
      (Floor.mergeMax lease.lastPersistedTso localLast)) → t < next := by
    intro t ht
    have hbase : (C.layout.decode t).physicalMs ≤
        (C.refreshPlan p lease localLast nowMs).nextUpperBoundBaseMs := le_nextUpperBoundBaseMs ht
    exact lt_of_encode (by omega) hnext
  have hold : ∀ old, lease.issuedUpperBound = some old → old < next := fun old h =>
    habove old (h ▸ Floor.le_mergeMax_left)
  refine ⟨?_, hold, fun last h =>
    habove last (h ▸ Floor.le_mergeMax_right.trans Floor.le_mergeMax_right)⟩
  have hextend : (C.refreshPlan p lease localLast nowMs).shouldExtendUpperBound reason = true := by
    rw [GeneratorLeaseRefreshPlan.shouldExtendUpperBound, hreason, Bool.true_or]
  show (C.refreshPlan p lease localLast nowMs).recordIssuedUpperBound reason _ = some next
  rw [GeneratorLeaseRefreshPlan.recordIssuedUpperBound, if_pos hextend, if_pos hextend, hcompute]
  show Floor.mergeMax lease.issuedUpperBound (some next) = some next
  cases h : lease.issuedUpperBound with
  | none => rfl
  | some old => exact congrArg some (max_eq_right (hold old h).le)

lemma refreshRecord_expire_iff (hvalid : nowMs < lease.leaseExpireAtMs)
    (hexp : lease.leaseExpireAtMs < U64.size)
    (httl : (C.worker p).generatorLeaseTtlMs < U64.size) :
    Floor.Le (some lease.leaseExpireAtMs)
      (C.refreshRecord p gid lease localLast nowMs reason).leaseExpireAtMs ↔
      C.RenewalLasts p lease nowMs reason := by
  have hrenew : (reason.forcesLeaseRenewal ||
      (C.refreshPlan p lease localLast nowMs).shouldRenewLease) = true ↔
      reason = .explicitRenewal ∨
        lease.leaseExpireAtMs ≤ nowMs + (C.worker p).generatorLeaseTtlMs / 2 := by
    have hforced : reason.forcesLeaseRenewal = true ↔ reason = .explicitRenewal := by
      cases reason <;> decide
    have hdue : (C.refreshPlan p lease localLast nowMs).shouldRenewLease = true ↔
        lease.leaseExpireAtMs ≤ nowMs + (C.worker p).generatorLeaseTtlMs / 2 := by
      have hmax := Nat.le_pred_of_lt hexp
      refine decide_eq_true_iff.trans ?_
      rw [U64.saturatingAdd, le_min_iff]
      exact and_iff_left hmax
    rw [Bool.or_eq_true, hforced, hdue]
  show Floor.Le _ (some ((C.refreshPlan p lease localLast nowMs).recordLeaseExpireAtMs reason
    (U64.wrappingAdd nowMs (C.worker p).generatorLeaseTtlMs))) ↔ _
  rw [Floor.some_le_some, GeneratorLeaseRefreshPlan.recordLeaseExpireAtMs, RenewalLasts, ← hrenew]
  split_ifs with h
  · -- a sum that does not fit wraps to a time before now
    simp only [h, true_imp_iff, U64.wrappingAdd]
    by_cases hfits : nowMs + (C.worker p).generatorLeaseTtlMs < U64.size
    · rw [Nat.mod_eq_of_lt hfits]
      exact ⟨fun hle => ⟨hle, hfits⟩, And.left⟩
    · rw [Nat.mod_eq_sub_mod (Nat.le_of_not_lt hfits), Nat.mod_eq_of_lt (by omega)]
      omega
  · exact iff_of_true le_rfl fun hcontra => absurd hcontra h

lemma refreshAdvances_iff (hmirrors : lease.MirrorsRecord record)
    (hvalid : nowMs < lease.leaseExpireAtMs) (hexp : lease.leaseExpireAtMs < U64.size)
    (httl : (C.worker p).generatorLeaseTtlMs < U64.size) :
    C.RefreshAdvances p gid record lease localLast nowMs reason
        (C.refreshRecord p gid lease localLast nowMs reason) ↔
      C.RenewalLasts p lease nowMs reason := by
  rw [← refreshRecord_expire_iff (p := p) hvalid hexp httl, ← hmirrors.expire]
  refine ⟨RefreshAdvances.expire, fun h => ⟨?_, ?_, h, ?_, ?_⟩⟩
  · exact hmirrors.last.trans Floor.le_mergeMax_left
  · rw [hmirrors.bound]
    exact refreshRecord_issuedUpperBound_floor
  · exact refreshRecord_floor hmirrors.last hmirrors.bound
  intro hreason hborrow next hnext
  have hforces : reason.forcesUpperBound = true := by rcases hreason with rfl | rfl <;> rfl
  obtain ⟨hwritten, hold, hlast⟩ := refreshRecord_progress hforces hborrow hnext
  exact ⟨next, hwritten, fun old h => hold old (hmirrors.bound ▸ h), hlast⟩

section

structure LeaseRefresh where
  nowMs : Nat
  reason : GeneratorLeaseRefreshReason
  localLast : Option Nat
  newRevision : Nat

/-- A refresh whose compare-exchange succeeds, on the record and the lease state. -/
def refresh (C : Cluster) (p generatorId : Nat) (s : GeneratorRecord × GeneratorLeaseState)
    (call : LeaseRefresh) : Option (GeneratorRecord × GeneratorLeaseState) :=
  if s.2.leaseExpireAtMs ≤ call.nowMs then none
  else if (C.refreshPlan p s.2 call.localLast call.nowMs).needsWrite call.reason then
    let record := C.refreshRecord p generatorId s.2 call.localLast call.nowMs call.reason
    match runtimeLeaseStateFromRecord call.newRevision record with
    | .ok lease => some (record, lease)
    | .error _ => none
  else some s

/-- Time does not go back, and the sum with the time to live fits. -/
def InTime (C : Cluster) (p : Nat) (s : GeneratorRecord × GeneratorLeaseState)
    (call : LeaseRefresh) : Prop :=
  s.1.updatedAtMs ≤ call.nowMs ∧ call.nowMs + (C.worker p).generatorLeaseTtlMs < U64.size

structure Granted (C : Cluster) (p : Nat) (s : GeneratorRecord × GeneratorLeaseState) : Prop where
  mirrors : s.2.MirrorsRecord s.1
  expire : s.2.leaseExpireAtMs ≤ s.1.updatedAtMs + (C.worker p).generatorLeaseTtlMs

variable {s s' : GeneratorRecord × GeneratorLeaseState} {call : LeaseRefresh}

lemma mirrorsRecord_of_runtimeLeaseStateFromRecord {rev : Nat}
    (h : runtimeLeaseStateFromRecord rev record = .ok lease) : lease.MirrorsRecord record := by
  unfold runtimeLeaseStateFromRecord at h
  split at h
  · cases h
  · next exp hexp =>
    cases h
    exact ⟨hexp, rfl, Floor.Le.refl⟩

lemma Granted.refresh (h : C.Granted p s) (htime : C.InTime p s call)
    (hstep : C.refresh p gid s call = some s') : C.Granted p s' := by
  unfold Cluster.refresh at hstep
  split_ifs at hstep
  · dsimp only at hstep
    split at hstep <;> cases hstep
    next lease hst =>
    have hmirrors := mirrorsRecord_of_runtimeLeaseStateFromRecord hst
    refine ⟨hmirrors, ?_⟩
    have hwritten := Option.some.inj hmirrors.expire
    have hold := h.expire
    have htime := htime.1
    rw [← hwritten]
    show GeneratorLeaseRefreshPlan.recordLeaseExpireAtMs _ _ _ ≤ call.nowMs + _
    unfold GeneratorLeaseRefreshPlan.recordLeaseExpireAtMs
    split_ifs
    · exact Nat.mod_le _ _
    · show s.2.leaseExpireAtMs ≤ _
      omega
  · cases hstep
    exact h

end

end Cluster

/-- A refresh of an unexpired lease lets nothing fall and moves the bound ahead, exactly if an
expiry that it renews is not beyond the time to live. -/
theorem lease_refresh_advances_iff (C : Cluster) (p generatorId : Nat) (record : GeneratorRecord)
    (lease : GeneratorLeaseState) (hmirrors : lease.MirrorsRecord record)
    (localLast : Option Nat) (nowMs : Nat) (hvalid : nowMs < lease.leaseExpireAtMs)
    (hexpire : lease.leaseExpireAtMs < U64.size)
    (httl : (C.worker p).generatorLeaseTtlMs < U64.size) (reason : GeneratorLeaseRefreshReason) :
    C.RefreshAdvances p generatorId record lease localLast nowMs reason
        (C.refreshRecord p generatorId lease localLast nowMs reason) ↔
      C.RenewalLasts p lease nowMs reason :=
  Cluster.refreshAdvances_iff hmirrors hvalid hexpire httl

def restartedCluster : Cluster :=
  { sampleCluster with
    worker := fun p =>
      { sampleCluster.worker 0 with generatorLeaseTtlMs := if p = 0 then 1000 else 100 } }

def restartRecord : GeneratorRecord := restartedCluster.createdGeneratorRecord 0 0 10

def restartLease : GeneratorLeaseState :=
  ⟨1, "a", 1, 1010, generatorRecoveryFloorTso restartRecord, restartRecord.issuedUpperBound⟩

lemma restartLease_mirrorsRecord : restartLease.MirrorsRecord restartRecord :=
  ⟨by decide +kernel, rfl, Floor.none_le⟩

theorem lease_refresh_advances_before_restart :
    restartedCluster.RefreshAdvances 0 0 restartRecord restartLease (some 500) 20 .explicitRenewal
      (restartedCluster.refreshRecord 0 0 restartLease (some 500) 20 .explicitRenewal) :=
  (lease_refresh_advances_iff restartedCluster 0 0 restartRecord restartLease
    restartLease_mirrorsRecord (some 500) 20 (by decide) (by decide) (by decide)
    .explicitRenewal).mpr fun _ => by decide

/-- A renewal on request after the restart brings the expiry down from 1010 to 120. -/
theorem lease_refresh_lowers_expiry :
    restartLease.MirrorsRecord restartRecord ∧ restartRecord.updatedAtMs ≤ 20 ∧
      20 < restartLease.leaseExpireAtMs ∧
      ¬restartedCluster.RefreshAdvances 1 0 restartRecord restartLease none 20 .explicitRenewal
        (restartedCluster.refreshRecord 1 0 restartLease none 20 .explicitRenewal) := by
  refine ⟨restartLease_mirrorsRecord, by decide, by decide, fun h => ?_⟩
  have hold : restartRecord.leaseExpireAtMs = some 1010 := by decide +kernel
  have hnew : (restartedCluster.refreshRecord 1 0 restartLease none 20
      .explicitRenewal).leaseExpireAtMs = some 120 := by decide +kernel
  have hle := h.expire
  exact absurd hle (by decide)

/-- As long as the time to live stays the same and time does not go back, no refresh of any sequence
of them lets anything fall. -/
theorem refreshes_advance {C : Cluster} {p generatorId : Nat}
    {start s : GeneratorRecord × GeneratorLeaseState} {call : Cluster.LeaseRefresh}
    (hstart : C.Granted p start)
    (hs : Transition.Reach (C.refresh p generatorId) (C.InTime p) start s)
    (hcall : C.InTime p s call) (hvalid : call.nowMs < s.2.leaseExpireAtMs) :
    C.RefreshAdvances p generatorId s.1 s.2 call.localLast call.nowMs call.reason
      (C.refreshRecord p generatorId s.2 call.localLast call.nowMs call.reason) := by
  have h : C.Granted p s := hs.invariant hstart fun _ _ _ h => h.refresh
  have hexp := h.expire
  obtain ⟨htime, hfits⟩ := hcall
  exact (Cluster.refreshAdvances_iff h.mirrors hvalid (by omega) (by omega)).mpr fun _ =>
    ⟨by omega, hfits⟩

theorem refreshes_advance_twice : ∃ s,
    restartedCluster.refresh 0 0 (restartRecord, restartLease) ⟨20, .explicitRenewal, some 500, 2⟩ =
      some s ∧
    restartedCluster.RefreshAdvances 0 0 s.1 s.2 (some 600) 30 .explicitRenewal
      (restartedCluster.refreshRecord 0 0 s.2 (some 600) 30 .explicitRenewal) := by
  have hrun : (restartedCluster.refresh 0 0 (restartRecord, restartLease)
      ⟨20, .explicitRenewal, some 500, 2⟩).any (fun s => decide (s.1.updatedAtMs ≤ 30 ∧
        30 < s.2.leaseExpireAtMs)) = true := by
    decide +kernel
  obtain ⟨s, hs, hend⟩ := (Option.any_eq_true ..).mp hrun
  obtain ⟨htime, hvalid⟩ := of_decide_eq_true hend
  exact ⟨s, hs, @refreshes_advance restartedCluster 0 0 _ s ⟨30, .explicitRenewal, some 600, 3⟩
    ⟨restartLease_mirrorsRecord, by decide⟩ (.tail .refl ⟨by decide, by decide⟩ hs)
    ⟨htime, by decide⟩ hvalid⟩

end Chronos
