import Chronos.Service.Rules

/-! Generator leases: creating, reusing and taking over a generator record, refreshing a held lease
singly or in a batch, and the bound an allocation runs under. -/

namespace Chronos

open Interleaving

section

variable (C : Cluster) (p : Nat)

def checkRequestCancellation : Service Unit := do
  if ← call .isCancelled then .fail .requestCancelled else return ()

def backoffAfterMetadataContention (retry : Service Unit) : Service Unit := do
  if ← call .retryBudgetLeft then retry else .fail .casFailed

def withGeneratorLeaseSingleflight {α : Type} (generatorId : Nat) (body : Service α) :
    Service α := do
  checkRequestCancellation
  call (.acquireFlight generatorId)
  let result ← body.attempt
  call (.releaseFlight generatorId)
  .ofExcept result

def isGeneratorLeaseValid (generatorId : Nat) : Service Bool := do
  let now ← call .nowMs
  call (.leaseValidForOwner generatorId now)

def initAfterFloor (generatorId : Nat) : Option Nat → Service Unit
  | none => return ()
  | some floor =>
    match Generator.initIndex C.layout generatorId floor with
    | .error e => .fail e
    | .ok index => call (.fetchMaxNextIndex generatorId index)

def installLease (generatorId : Nat) (lease : GeneratorLeaseState) : Service Unit := do
  call (.markReadyForLease generatorId lease.generatorLeaseToken)
  call (.upsertLease generatorId lease)

def currentLastIssuedTso (generatorId : Nat) : Service (Option Nat) := do
  let next ← call (.loadNextIndex generatorId)
  .ofExcept (Generator.currentLastIssuedTso C.layout generatorId next)

def reuseGeneratorLease (generatorId : Nat) (record : GeneratorRecord) (revision expire : Nat) :
    Service Unit := do
  initAfterFloor C generatorId (generatorRecoveryFloorTso record)
  installLease generatorId
    { revision
      ownerInstanceId := record.ownerInstanceId
      generatorLeaseToken := record.generatorLeaseToken
      leaseExpireAtMs := expire
      lastPersistedTso := generatorRecoveryFloorTso record
      issuedUpperBound := record.issuedUpperBound }

def takeOverGeneratorLease (generatorId : Nat) (record : GeneratorRecord) (revision now : Nat)
    (retry : Service Unit) : Service Unit :=
  match C.takeoverRecord p generatorId now record with
  | .error e => .fail e
  | .ok taken => do
    match ← call (.compareExchangeGenerator .takeover generatorId revision taken) with
    | .ok newRevision => do
      initAfterFloor C generatorId (generatorRecoveryFloorTso taken)
      installLease generatorId
        { revision := newRevision
          ownerInstanceId := taken.ownerInstanceId
          generatorLeaseToken := taken.generatorLeaseToken
          leaseExpireAtMs := U64.wrappingAdd now (C.worker p).generatorLeaseTtlMs
          lastPersistedTso := taken.lastIssuedTso
          issuedUpperBound := taken.issuedUpperBound }
    | .error .casFailed => backoffAfterMetadataContention (do checkRequestCancellation; retry)
    | .error e => .fail e

def createGeneratorLease (generatorId : Nat) (retry : Service Unit) : Service Unit := do
  let now ← call .nowMs
  let record := C.createdGeneratorRecord p generatorId now
  match ← call (.createGenerator generatorId record) with
  | .ok revision =>
    installLease generatorId
      { revision
        ownerInstanceId := record.ownerInstanceId
        generatorLeaseToken := record.generatorLeaseToken
        leaseExpireAtMs := U64.wrappingAdd now (C.worker p).generatorLeaseTtlMs
        lastPersistedTso := none
        issuedUpperBound := record.issuedUpperBound }
  | .error .metadataAlreadyExists =>
    backoffAfterMetadataContention (do checkRequestCancellation; retry)
  | .error e => .fail e

def adoptGeneratorLease (generatorId : Nat) (record : GeneratorRecord) (revision : Nat)
    (retry : Service Unit) : Service Unit := do
  let now ← call .nowMs
  let takeoverReady := record.leaseExpireAtMs.any
    (leaseExpiredWithSafetyGap · now (C.worker p).safetyGapMs)
  if C.isLocalGeneratorOwner p record && !takeoverReady then
    match record.leaseExpireAtMs with
    | none => .fail (.generatorLeaseExpired generatorId)
    | some expire =>
      if expire > now then reuseGeneratorLease C generatorId record revision expire
      else .fail (.generatorLeaseExpired generatorId)
  else if takeoverReady then takeOverGeneratorLease C p generatorId record revision now retry
  else .fail (.notGeneratorOwner generatorId record.ownerWorkerEndpoint)

/-- The retry loop of `ensure_generator_lease_after_singleflight`; a worker that runs out of fuel
stands for one that is stopped. -/
def acquireGeneratorLease (generatorId : Nat) : Nat → Service Unit
  | 0 => .fail .requestCancelled
  | fuel + 1 => do
    checkRequestCancellation
    match ← call (.loadGenerator generatorId) with
    | .error e => .fail e
    | .ok (some (record, revision)) =>
      adoptGeneratorLease C p generatorId record revision (acquireGeneratorLease generatorId fuel)
    | .ok none => createGeneratorLease C p generatorId (acquireGeneratorLease generatorId fuel)

def ensureGeneratorLeaseAfterSingleflight (generatorId fuel : Nat) : Service Unit :=
  match C.ensureGeneratorIdRange generatorId with
  | .error e => .fail e
  | .ok () =>
    if (C.worker p).ownsGeneratorId generatorId then do
      if ← isGeneratorLeaseValid generatorId then return ()
      else acquireGeneratorLease C p generatorId fuel
    else
      .fail (.generatorNotOwnedByThisWorker generatorId (C.worker p).generatorOwnershipModulo
        (C.worker p).generatorOwnershipRemainder)

def ensureGeneratorLease (generatorId fuel : Nat) : Service Unit :=
  withGeneratorLeaseSingleflight generatorId do
    checkRequestCancellation
    if ← isGeneratorLeaseValid generatorId then return ()
    else ensureGeneratorLeaseAfterSingleflight C p generatorId fuel

/-- The bound an allocation runs under. The last read happens after metadata has been awaited, and
its outcome is handed on as it is. -/
def ensureGeneratorLeaseForAllocation (timelineKey : String) (generatorId fuel : Nat) :
    Service (Option Nat) := do
  let now ← call .nowMs
  match ← call (.validLeaseUpperBoundForOwner generatorId now false) with
  | some bound => return some bound
  | none => do
    checkRequestCancellation
    withGeneratorLeaseSingleflight generatorId do
      checkRequestCancellation
      let now ← call .nowMs
      match ← call (.validLeaseUpperBoundForOwner generatorId now false) with
      | some bound => return some bound
      | none => do
        match ← call (.loadGenerator generatorId) with
        | .error e => .fail e
        | .ok none => .fail (.leaseExpired timelineKey)
        | .ok (some (record, _)) => do
          let now ← call .nowMs
          match record.leaseExpireAtMs with
          | none => .fail (.leaseExpired timelineKey)
          | some expire =>
            if !C.isLocalGeneratorOwner p record || expire ≤ now then
              .fail (.leaseExpired timelineKey)
            else do
              ensureGeneratorLeaseAfterSingleflight C p generatorId fuel
              let now ← call .nowMs
              call (.validLeaseUpperBoundForOwner generatorId now true)

def runtimeLeaseStateFromRecord (revision : Nat) (record : GeneratorRecord) :
    Except TsoError GeneratorLeaseState :=
  match record.leaseExpireAtMs with
  | none => .error (.generatorLeaseExpired record.generatorId)
  | some leaseExpireAtMs => .ok
    { revision
      ownerInstanceId := record.ownerInstanceId
      generatorLeaseToken := record.generatorLeaseToken
      leaseExpireAtMs
      lastPersistedTso := record.lastIssuedTso
      issuedUpperBound := record.issuedUpperBound }

/-- After a lost compare-exchange the lease is dropped and ensured anew; if that fails the old
entry returns, without its ready token. -/
def reensureGeneratorLease (generatorId : Nat) (lease : GeneratorLeaseState) (fuel : Nat) :
    Service Unit := do
  call (.dropLease generatorId)
  call (.clearReadyLease generatorId)
  match ← (ensureGeneratorLeaseAfterSingleflight C p generatorId fuel).attempt with
  | .ok () => return ()
  | .error e => do
    match ← call (.leaseState generatorId) with
    | some _ => .fail e
    | none => do
      call (.upsertLease generatorId lease)
      .fail e

def writeRefreshedLease (generatorId : Nat) (lease : GeneratorLeaseState)
    (localLast : Option Nat) (nowMs : Nat) (reason : GeneratorLeaseRefreshReason) (fuel : Nat) :
    Service Unit := do
  let record := C.refreshRecord p generatorId lease localLast nowMs reason
  match ← call (.compareExchangeGenerator (.refresh reason) generatorId lease.revision record) with
  | .ok newRevision =>
    match runtimeLeaseStateFromRecord newRevision record with
    | .error e => .fail e
    | .ok state => installLease generatorId state
  | .error .casFailed => reensureGeneratorLease C p generatorId lease fuel
  | .error e => .fail e

def refreshGeneratorLeaseAfterSingleflight (generatorId nowMs : Nat)
    (reason : GeneratorLeaseRefreshReason) (fuel : Nat) : Service Unit := do
  match ← call (.leaseState generatorId) with
  | none => return ()
  | some lease => do
    checkRequestCancellation
    if lease.leaseExpireAtMs ≤ nowMs then .fail (.generatorLeaseExpired generatorId)
    else do
      let localLast ← currentLastIssuedTso C generatorId
      if (C.refreshPlan p lease localLast nowMs).needsWrite reason then
        writeRefreshedLease C p generatorId lease localLast nowMs reason fuel
      else return ()

def refreshGeneratorLeaseInner (generatorId : Nat) (reason : GeneratorLeaseRefreshReason)
    (fuel : Nat) : Service Unit :=
  withGeneratorLeaseSingleflight generatorId do
    checkRequestCancellation
    let now ← call .nowMs
    refreshGeneratorLeaseAfterSingleflight C p generatorId now reason fuel

def refreshGeneratorLeaseIfUnchanged (generatorId : Nat) (observedUpperBound : Option Nat)
    (fuel : Nat) : Service Unit :=
  withGeneratorLeaseSingleflight generatorId do
    checkRequestCancellation
    let now ← call .nowMs
    match ← call (.leaseState generatorId) with
    | none => ensureGeneratorLeaseAfterSingleflight C p generatorId fuel
    | some lease =>
      if lease.leaseExpireAtMs > now && lease.issuedUpperBound ≠ observedUpperBound then return ()
      else refreshGeneratorLeaseAfterSingleflight C p generatorId now .horizonRequired fuel

def refreshOperation (generatorId : Nat) : Service (Option GeneratorBatchOp) := do
  let now ← call .nowMs
  match ← call (.leaseState generatorId) with
  | none => return none
  | some lease =>
    if lease.leaseExpireAtMs ≤ now then return none
    else do
      match ← (currentLastIssuedTso C generatorId).attempt with
      | .error _ => return none
      | .ok localLast =>
        if (C.refreshPlan p lease localLast now).needsWrite .maintenance then
          return some ⟨generatorId, lease.revision,
            C.refreshRecord p generatorId lease localLast now .maintenance⟩
        else return none

def refreshOperations : List Nat → Service (List GeneratorBatchOp)
  | [] => return []
  | generatorId :: rest => do
    let operation ← refreshOperation C p generatorId
    let operations ← refreshOperations rest
    return operation.toList ++ operations

def installBatch : List (GeneratorBatchOp × Nat) → Service Unit
  | [] => return ()
  | (operation, revision) :: rest =>
    match runtimeLeaseStateFromRecord revision operation.record with
    | .error _ => installBatch rest
    | .ok state => do
      installLease operation.generatorId state
      installBatch rest

/-- The loop over pending batches; a batch that loses its compare-exchange is split in two. -/
def writeBatches (leaseFuel : Nat) : Nat → List (List GeneratorBatchOp) → Service Unit
  | _, [] => return ()
  | 0, _ :: _ => .fail .requestCancelled
  | fuel + 1, operations :: pending => do
    match ← call (.compareExchangeGenerators operations) with
    | .ok revisions =>
      if revisions.length ≠ operations.length then writeBatches leaseFuel fuel pending
      else do
        installBatch (operations.zip revisions)
        writeBatches leaseFuel fuel pending
    | .error .casFailed =>
      match operations with
      | [] => writeBatches leaseFuel fuel pending
      | [operation] => do
        let _ ← (refreshGeneratorLeaseInner C p operation.generatorId .maintenance
          leaseFuel).attempt
        writeBatches leaseFuel fuel pending
      | operations =>
        let splitAt := operations.length / 2
        writeBatches leaseFuel fuel
          (operations.take splitAt :: operations.drop splitAt :: pending)
    | .error _ => writeBatches leaseFuel fuel pending

def refreshGeneratorLeasesBatch (generatorIds : List Nat) (leaseFuel fuel : Nat) :
    Service Unit := do
  let operations ← refreshOperations C p generatorIds
  if operations.isEmpty then return ()
  else writeBatches C p leaseFuel fuel [operations]

def bestEffortPersistLocalGeneratorFloor (generatorId : Nat) : Service Unit := do
  match ← currentLastIssuedTso C generatorId with
  | none => return ()
  | some localLast => do
    match ← call (.loadGenerator generatorId) with
    | .error e => .fail e
    | .ok none => return ()
    | .ok (some (record, revision)) =>
      if !C.isLocalGeneratorOwner p record ||
          record.lastIssuedTso = Floor.mergeMax record.lastIssuedTso (some localLast) then
        return ()
      else do
        let now ← call .nowMs
        match ← call (.compareExchangeGenerator .floorFlush generatorId revision
          (Cluster.flushedGeneratorRecord record localLast now)) with
        | .ok _ | .error .casFailed => return ()
        | .error e => .fail e

end

end Chronos
