import Chronos.Cursor
import Chronos.Service.Config

/-! The generator records that lease code writes: a created record, a takeover of an expired one,
and a refresh of a held lease. -/

namespace Chronos

structure GeneratorLeaseState where
  revision : Nat
  ownerInstanceId : String
  generatorLeaseToken : Nat
  leaseExpireAtMs : Nat
  lastPersistedTso : Option Nat
  issuedUpperBound : Option Nat
  deriving DecidableEq

inductive GeneratorLeaseRefreshReason where
  | maintenance | explicitRenewal | horizonRequired
  deriving DecidableEq

namespace GeneratorLeaseRefreshReason

def forcesLeaseRenewal : GeneratorLeaseRefreshReason → Bool
  | explicitRenewal => true
  | _ => false

def forcesUpperBound : GeneratorLeaseRefreshReason → Bool
  | explicitRenewal | horizonRequired => true
  | maintenance => false

end GeneratorLeaseRefreshReason

structure GeneratorLeaseRefreshPlan where
  candidateLast : Option Nat
  previousLeaseExpireAtMs : Nat
  previousIssuedUpperBound : Option Nat
  nextUpperBoundBaseMs : Nat
  shouldRenewLease : Bool
  extendUpperBound : Bool
  deriving DecidableEq

namespace GeneratorLeaseRefreshPlan

def buildWithLayout (L : TimestampLayout) (leaseExpireAtMs : Nat)
    (lastPersistedTso issuedUpperBound localLastIssuedTso : Option Nat)
    (nowMs ttlMs preBorrowMs : Nat) : GeneratorLeaseRefreshPlan :=
  let candidateLast := Floor.mergeMax lastPersistedTso localLastIssuedTso
  let currentUpperBound := Floor.mergeMax issuedUpperBound candidateLast
  { candidateLast
    previousLeaseExpireAtMs := leaseExpireAtMs
    previousIssuedUpperBound := issuedUpperBound
    nextUpperBoundBaseMs :=
      match currentUpperBound with
      | some bound => max nowMs (L.decode bound).physicalMs
      | none => nowMs
    shouldRenewLease := leaseExpireAtMs ≤ U64.saturatingAdd nowMs (ttlMs / 2)
    extendUpperBound :=
      match currentUpperBound with
      | some bound => (L.decode bound).physicalMs ≤ U64.saturatingAdd nowMs (preBorrowMs / 2)
      | none => true }

variable (plan : GeneratorLeaseRefreshPlan) (reason : GeneratorLeaseRefreshReason)

def needsWrite : Bool :=
  reason.forcesLeaseRenewal || reason.forcesUpperBound || plan.shouldRenewLease ||
    plan.extendUpperBound

def shouldExtendUpperBound : Bool := reason.forcesUpperBound || plan.extendUpperBound

def recordLeaseExpireAtMs (refreshedLeaseExpireAtMs : Nat) : Nat :=
  if reason.forcesLeaseRenewal || plan.shouldRenewLease then refreshedLeaseExpireAtMs
  else plan.previousLeaseExpireAtMs

def recordIssuedUpperBound (nextUpperBound : Option Nat) : Option Nat :=
  if plan.shouldExtendUpperBound reason then
    Floor.mergeMax plan.previousIssuedUpperBound nextUpperBound
  else plan.previousIssuedUpperBound

end GeneratorLeaseRefreshPlan

namespace Cluster

variable (C : Cluster) (p : Nat)

def createdGeneratorRecord (generatorId nowMs : Nat) : GeneratorRecord where
  schemaVersion := 1
  generatorId := generatorId
  ownerWorkerEndpoint := (C.worker p).advertiseEndpoint
  ownerInstanceId := (C.worker p).instanceId
  generatorLeaseToken := 1
  leaseExpireAtMs := some (U64.wrappingAdd nowMs (C.worker p).generatorLeaseTtlMs)
  lastIssuedTso := none
  issuedUpperBound := C.computeGeneratorUpperBound p generatorId nowMs
  updatedAtMs := nowMs

def takeoverRecord (generatorId nowMs : Nat) (record : GeneratorRecord) :
    Except TsoError GeneratorRecord :=
  let owned : GeneratorRecord :=
    { record with
      ownerWorkerEndpoint := (C.worker p).advertiseEndpoint
      ownerInstanceId := (C.worker p).instanceId
      generatorLeaseToken := max (U64.saturatingAdd record.generatorLeaseToken 1) 1
      leaseExpireAtMs := some (U64.wrappingAdd nowMs (C.worker p).generatorLeaseTtlMs)
      updatedAtMs := nowMs }
  match generatorRecoveryFloorTso record with
  | none => .ok { owned with issuedUpperBound := C.computeGeneratorUpperBound p generatorId nowMs }
  | some floor =>
    match nextCursorAfterWithLayout C.layout floor generatorId with
    | .error e => .error e
    | .ok cursor => .ok { owned with
        lastIssuedTso := some floor
        issuedUpperBound :=
          C.computeGeneratorUpperBound p generatorId (max nowMs cursor.physicalMs) }

def takeoverBaseMs (generatorId nowMs : Nat) (record : GeneratorRecord) : Nat :=
  match generatorRecoveryFloorTso record with
  | none => nowMs
  | some floor =>
    match nextCursorAfterWithLayout C.layout floor generatorId with
    | .ok cursor => max nowMs cursor.physicalMs
    | .error _ => nowMs

def refreshPlan (lease : GeneratorLeaseState) (localLast : Option Nat) (nowMs : Nat) :
    GeneratorLeaseRefreshPlan :=
  .buildWithLayout C.layout lease.leaseExpireAtMs lease.lastPersistedTso lease.issuedUpperBound
    localLast nowMs (C.worker p).generatorLeaseTtlMs (C.worker p).preBorrowMs

def refreshRecord (generatorId : Nat) (lease : GeneratorLeaseState) (localLast : Option Nat)
    (nowMs : Nat) (reason : GeneratorLeaseRefreshReason) : GeneratorRecord :=
  let plan := C.refreshPlan p lease localLast nowMs
  let nextUpperBound :=
    if plan.shouldExtendUpperBound reason then
      C.computeGeneratorUpperBound p generatorId plan.nextUpperBoundBaseMs
    else none
  { schemaVersion := 1
    generatorId := generatorId
    ownerWorkerEndpoint := (C.worker p).advertiseEndpoint
    ownerInstanceId := lease.ownerInstanceId
    generatorLeaseToken := lease.generatorLeaseToken
    leaseExpireAtMs := some (plan.recordLeaseExpireAtMs reason
      (U64.wrappingAdd nowMs (C.worker p).generatorLeaseTtlMs))
    lastIssuedTso := plan.candidateLast
    issuedUpperBound := plan.recordIssuedUpperBound reason nextUpperBound
    updatedAtMs := nowMs }

def flushedGeneratorRecord (record : GeneratorRecord) (localLast nowMs : Nat) : GeneratorRecord :=
  { record with
    lastIssuedTso := Floor.mergeMax record.lastIssuedTso (some localLast)
    updatedAtMs := nowMs }

variable {C p} {gid nowMs : Nat} {record record' : GeneratorRecord}
  {lease : GeneratorLeaseState} {last : Option Nat} {reason : GeneratorLeaseRefreshReason}

lemma takeoverRecord_eq_ok (h : C.takeoverRecord p gid nowMs record = .ok record') :
    record'.ownerInstanceId = (C.worker p).instanceId ∧
      record'.leaseExpireAtMs = some (U64.wrappingAdd nowMs (C.worker p).generatorLeaseTtlMs) ∧
      record'.lastIssuedTso = (generatorRecoveryFloorTso record).or record.lastIssuedTso ∧
      ∃ baseMs, nowMs ≤ baseMs ∧
        record'.issuedUpperBound = C.computeGeneratorUpperBound p gid baseMs := by
  simp only [takeoverRecord] at h
  split at h
  · next hfloor =>
    cases h
    exact ⟨rfl, rfl, by simp [hfloor], nowMs, le_rfl, rfl⟩
  · next floor hfloor =>
    split at h
    · cases h
    · next cursor hc =>
      cases h
      exact ⟨rfl, rfl, by simp [hfloor], _, le_max_left _ _, rfl⟩

lemma computeGeneratorUpperBound_eq_some {baseMs : Nat} (hid : gid < C.layout.maxGenerators)
    (hfit : baseMs + (C.worker p).preBorrowMs ≤ C.layout.maxPhysicalMs) :
    C.computeGeneratorUpperBound p gid baseMs =
      some (C.layout.tsoAt gid ((baseMs + (C.worker p).preBorrowMs) *
        C.layout.sequenceCapacity + (C.layout.sequenceCapacity - 1))) := by
  have hlt := C.layout_valid.maxPhysicalMs_lt
  have hcap := TimestampLayout.sequenceCapacity_pos (L := C.layout)
  have hencoded : C.layout.encode (baseMs + (C.worker p).preBorrowMs) gid
      (C.layout.sequenceCapacity - 1) = .ok (C.layout.tsoAt gid
        ((baseMs + (C.worker p).preBorrowMs) * C.layout.sequenceCapacity
          + (C.layout.sequenceCapacity - 1))) :=
    TimestampLayout.encode_eq_ok.mpr
      ⟨C.layout_valid, hfit, hid, by omega, (TimestampLayout.tsoAt_mul_add (by omega)).symm⟩
  rw [computeGeneratorUpperBound, U64.wrappingAdd_of_lt (by omega), hencoded]
  rfl

lemma takeoverRecord_bound (hid : gid < C.layout.maxGenerators)
    (h : C.takeoverRecord p gid nowMs record = .ok record')
    (hfit : C.takeoverBaseMs gid nowMs record + (C.worker p).preBorrowMs ≤ C.layout.maxPhysicalMs) :
    record'.issuedUpperBound ≠ none ∧
      Floor.Le (generatorRecoveryFloorTso record) record'.issuedUpperBound := by
  simp only [takeoverRecord] at h
  split at h
  · next hfloor =>
    cases h
    simp only [takeoverBaseMs, hfloor] at hfit
    simp [computeGeneratorUpperBound_eq_some hid hfit, hfloor]
  · next floor hfloor =>
    split at h
    · cases h
    · next cursor hc =>
      cases h
      simp only [takeoverBaseMs, hfloor, hc] at hfit
      simp only [computeGeneratorUpperBound_eq_some hid hfit, hfloor, Floor.some_le_some]
      have hseq := nextCursor_sequence_lt hc
      have hidx : cursor.physicalMs * C.layout.sequenceCapacity + cursor.sequence ≤
          (max nowMs cursor.physicalMs + (C.worker p).preBorrowMs) * C.layout.sequenceCapacity
            + (C.layout.sequenceCapacity - 1) := by
        have hms : cursor.physicalMs ≤ max nowMs cursor.physicalMs + (C.worker p).preBorrowMs := by
          omega
        have := Nat.mul_le_mul_right C.layout.sequenceCapacity hms
        omega
      exact ⟨Option.some_ne_none _, ((nextCursor_le_iff hid hc).mp hidx).le⟩

lemma takeoverRecord_updatedAtMs (h : C.takeoverRecord p gid nowMs record = .ok record') :
    record'.updatedAtMs = nowMs := by
  simp only [takeoverRecord] at h
  split at h
  · exact Except.ok.inj h ▸ rfl
  split at h
  · cases h
  · exact Except.ok.inj h ▸ rfl

lemma takeoverRecord_floor (h : C.takeoverRecord p gid nowMs record = .ok record') :
    Floor.Le (generatorRecoveryFloorTso record) (generatorRecoveryFloorTso record') := by
  obtain ⟨-, -, hlast, -⟩ := takeoverRecord_eq_ok h
  intro x hx
  rw [hx, Option.some_or] at hlast
  exact Floor.le_mergeMax_left x hlast

lemma recordIssuedUpperBound_floor (plan : GeneratorLeaseRefreshPlan) {next : Option Nat} :
    Floor.Le plan.previousIssuedUpperBound (plan.recordIssuedUpperBound reason next) := by
  unfold GeneratorLeaseRefreshPlan.recordIssuedUpperBound
  split_ifs
  · exact Floor.le_mergeMax_left
  · exact Floor.Le.refl

lemma refreshRecord_issuedUpperBound_floor : Floor.Le lease.issuedUpperBound
      (C.refreshRecord p gid lease last nowMs reason).issuedUpperBound :=
  recordIssuedUpperBound_floor (C.refreshPlan p lease last nowMs)

lemma refreshRecord_leaseExpireAtMs (hfits : nowMs + (C.worker p).generatorLeaseTtlMs < U64.size)
    (hforced : reason.forcesLeaseRenewal = true →
      lease.leaseExpireAtMs ≤ nowMs + (C.worker p).generatorLeaseTtlMs) :
    ∃ exp, lease.leaseExpireAtMs ≤ exp ∧
      (C.refreshRecord p gid lease last nowMs reason).leaseExpireAtMs = some exp := by
  refine ⟨_, ?_, rfl⟩
  unfold GeneratorLeaseRefreshPlan.recordLeaseExpireAtMs
  split_ifs with hrenew
  · rw [U64.wrappingAdd_of_lt hfits]
    rcases (Bool.or_eq_true _ _).mp hrenew with hreason | hhalf
    · exact hforced hreason
    have hle := of_decide_eq_true hhalf
    have hsum := U64.saturatingAdd_le (a := nowMs) (b := (C.worker p).generatorLeaseTtlMs / 2)
    omega
  · exact le_rfl

lemma refreshRecord_floor (hlast : Floor.Le record.lastIssuedTso lease.lastPersistedTso)
    (hbound : record.issuedUpperBound = lease.issuedUpperBound) :
    Floor.Le (generatorRecoveryFloorTso record)
      (generatorRecoveryFloorTso (C.refreshRecord p gid lease last nowMs reason)) := by
  refine Floor.mergeMax_le ?_ ?_
  · have hcandidate : Floor.Le lease.lastPersistedTso
        (C.refreshRecord p gid lease last nowMs reason).lastIssuedTso :=
      Floor.le_mergeMax_left
    exact (hlast.trans hcandidate).trans Floor.le_mergeMax_left
  · rw [hbound]
    exact refreshRecord_issuedUpperBound_floor.trans Floor.le_mergeMax_right

end Cluster

end Chronos
