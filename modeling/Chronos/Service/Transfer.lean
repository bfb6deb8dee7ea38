import Chronos.Service.Timeline

/-! Transfers of a timeline to another generator or owner. A transfer between two generators of
the worker that has the timeline cached is fenced by the timeline lock; every other one only by
the compare-exchange on the record. -/

namespace Chronos

open Interleaving

structure TransferPlan where
  resourceTier : ResourceTier
  ownerEndpoint : String
  generatorId : Option Nat
  reason : TransferReason
  deriving DecidableEq

/-- What `prepare_transfer_application` found: what the cached timeline has issued, the floor of
the previous generator, and the time. -/
structure TransferPreparation where
  cachedLast : Option Nat
  previousGeneratorFloor : Option Nat
  now : Nat

structure TransferTargetSelection where
  targetResourceTier : ResourceTier
  newGeneratorId : Nat
  claimedDedicated : Option (Nat × Bool)

def TransferTargetSelection.target (selection : TransferTargetSelection) (plan : TransferPlan) :
    TransferTarget :=
  ⟨plan.ownerEndpoint, selection.newGeneratorId, selection.targetResourceTier⟩

section

variable (C : Cluster) (p : Nat)

def validateTransferTarget (timelineKey targetOwnerEndpoint : String)
    (targetGeneratorId : Option Nat) : Except TsoError Unit :=
  if !C.isLocalEndpoint p targetOwnerEndpoint && targetGeneratorId.isNone then
    .error (.targetGeneratorIdRequired timelineKey)
  else .ok ()

def currentGeneratorFloor (generatorId : Nat) : Service (Option Nat) :=
  match C.ensureGeneratorIdRange generatorId with
  | .error e => .fail e
  | .ok () => do
    let localLast ← currentLastIssuedTso C generatorId
    match ← call (.loadGenerator generatorId) with
    | .error e => .fail e
    | .ok found =>
      return Floor.mergeMax localLast (found.bind fun x => generatorRecoveryFloorTso x.1)

def requiredJumpMsForGenerator (generatorId safeFloor : Nat) : Service Nat := do
  match ← currentGeneratorFloor C generatorId with
  | none => return 0
  | some currentFloor =>
    match nextCursorAfterWithLayout C.layout safeFloor generatorId with
    | .error e => .fail e
    | .ok cursor => return cursor.physicalMs - (C.layout.decode currentFloor).physicalMs

def validateRecoveryCatchupBudgetForTarget (generatorId : Nat) : Option Nat → Service Unit
  | none => return ()
  | some floor => do
    let requiredJumpMs ← requiredJumpMsForGenerator C generatorId floor
    if requiredJumpMs ≤ (C.worker p).recoveryCatchupBudgetMs then return ()
    else .fail (.recoveryCatchupBudgetExceeded generatorId requiredJumpMs
      (C.worker p).recoveryCatchupBudgetMs)

def releaseClaimedDedicatedIfNeeded (timelineKey : String) (previousRoute : TimelineRoute) :
    Option (Nat × Bool) → Service Unit
  | none => return ()
  | some (generatorId, claimed) =>
    if shouldReleaseClaimedDedicatedGenerator claimed previousRoute.resourceTier
        previousRoute.generatorId generatorId then
      call (.releaseDedicated generatorId timelineKey)
    else return ()

def rejectTransfer {α : Type} (timelineKey : String) (previousRoute : TimelineRoute)
    (selection : TransferTargetSelection) (error : TsoError) : Service α := do
  releaseClaimedDedicatedIfNeeded timelineKey previousRoute selection.claimedDedicated
  .fail error

def firstTransferTarget (timelineKey : String) (plan : TransferPlan) :
    Service TransferTargetSelection :=
  match plan.generatorId with
  | some generatorId =>
    match C.ensureGeneratorIdRange generatorId with
    | .error e => .fail e
    | .ok () =>
      if plan.resourceTier = .dedicated then do
        let claimed ← claimSpecificDedicated C p generatorId timelineKey
        return ⟨plan.resourceTier, generatorId, some (generatorId, claimed)⟩
      else return ⟨plan.resourceTier, generatorId, none⟩
  | none =>
    if plan.resourceTier = .dedicated then do
      let claim ← claimDedicated C p timelineKey
      return ⟨plan.resourceTier, claim.1, some claim⟩
    else do
      let generatorId ← pickGeneratorId C p timelineKey plan.resourceTier
      return ⟨plan.resourceTier, generatorId, none⟩

/-- A shared or warm target that the floor would push too far ahead is replaced by a dedicated
generator, unless the caller asked for it by id. -/
def isolateJumpAhead (timelineKey : String) (plan : TransferPlan) (safeFloor : Option Nat)
    (selection : TransferTargetSelection) : Service TransferTargetSelection :=
  match safeFloor with
  | none => return selection
  | some floor =>
    if selection.targetResourceTier = .dedicated then return selection
    else do
      let requiredJumpMs ← requiredJumpMsForGenerator C selection.newGeneratorId floor
      if requiredJumpMs > (C.worker p).sharedJumpAheadThresholdMs then
        if plan.generatorId.isSome then
          .fail (.sharedGeneratorJumpAheadTooLarge selection.newGeneratorId requiredJumpMs
            (C.worker p).sharedJumpAheadThresholdMs)
        else do
          let claim ← claimDedicated C p timelineKey
          return ⟨.dedicated, claim.1, some claim⟩
      else return selection

def checkTransferTarget (timelineKey : String) (previousRoute : TimelineRoute)
    (plan : TransferPlan) (selection : TransferTargetSelection) :
    Service TransferTargetSelection :=
  let config := C.worker p
  if C.isLocalEndpoint p plan.ownerEndpoint then
    if config.ownsGeneratorId selection.newGeneratorId then return selection
    else rejectTransfer timelineKey previousRoute selection
      (.generatorNotOwnedByThisWorker selection.newGeneratorId config.generatorOwnershipModulo
        config.generatorOwnershipRemainder)
  else if plan.generatorId.isNone then return selection
  else if config.generatorOwnershipModulo > 1 &&
      config.ownsGeneratorId selection.newGeneratorId then
    rejectTransfer timelineKey previousRoute selection
      (.unsafeRemoteTransferTarget selection.newGeneratorId plan.ownerEndpoint)
  else do
    match ← call (.loadGenerator selection.newGeneratorId) with
    | .error e => .fail e
    | .ok none => return selection
    | .ok (some (record, _)) => do
      let now ← call .nowMs
      let leaseIsActive := record.leaseExpireAtMs.any fun expire =>
        !leaseExpiredWithSafetyGap expire now config.safetyGapMs
      if leaseIsActive &&
          !endpointsMatch C.socketAddr record.ownerWorkerEndpoint plan.ownerEndpoint then
        rejectTransfer timelineKey previousRoute selection
          (.unsafeRemoteTransferTarget selection.newGeneratorId plan.ownerEndpoint)
      else return selection

def selectTransferTarget (timelineKey : String) (previousRoute : TimelineRoute)
    (plan : TransferPlan) (safeFloor : Option Nat) : Service TransferTargetSelection := do
  let first ← firstTransferTarget C p timelineKey plan
  let selection ← isolateJumpAhead C p timelineKey plan safeFloor first
  match ← (validateRecoveryCatchupBudgetForTarget C p selection.newGeneratorId
    safeFloor).attempt with
  | .error e => rejectTransfer timelineKey previousRoute selection e
  | .ok () => checkTransferTarget C p timelineKey previousRoute plan selection

def checkFailover (timelineKey : String) (generatorId now : Nat) (floor : Option Nat) :
    Option GeneratorRecord → Except TsoError Unit
  | some record =>
    match record.leaseExpireAtMs with
    | none => .error (.failoverLeaseExpiryUnknown timelineKey)
    | some expire =>
      if !leaseExpiredWithSafetyGap expire now (C.worker p).safetyGapMs then
        .error (.failoverRequiresExpiredLease timelineKey expire)
      else if floor.isNone then .error (.failoverMissingRecoveryFloor timelineKey generatorId)
      else .ok ()
  | none => .error (.failoverMissingRecoveryFloor timelineKey generatorId)

def cachedLastIssuedTso (timelineKey : String) : Service (Option Nat) := do
  match ← call (.timelineHandle timelineKey) with
  | none => return none
  | some handle => do
    let timeline ← call (.readHandle timelineKey handle)
    return timeline.lastIssuedTso

def prepareTransferApplication (timelineKey : String) (record : TimelineRecord)
    (reason : TransferReason) : Service TransferPreparation := do
  let now ← call .nowMs
  match ← call (.loadGenerator record.route.generatorId) with
  | .error e => .fail e
  | .ok found =>
    let floor := found.bind fun x => generatorRecoveryFloorTso x.1
    if reason = .failover then
      match checkFailover C p timelineKey record.route.generatorId now floor
        (found.map fun x => x.1) with
      | .error e => .fail e
      | .ok () => return ⟨none, floor, now⟩
    else if C.isLocalEndpoint p record.route.ownerWorkerEndpoint then do
      let cachedLast ← cachedLastIssuedTso timelineKey
      return ⟨cachedLast, floor, now⟩
    else return ⟨none, floor, now⟩

def releasePreviousDedicated (timelineKey : String) (previousRoute : TimelineRoute)
    (target : TransferTarget) : Service Unit :=
  if shouldReleasePreviousDedicatedGeneratorAfterRouteChange previousRoute.resourceTier
      previousRoute.generatorId target.resourceTier target.generatorId then
    call (.releaseDedicated previousRoute.generatorId timelineKey)
  else return ()

def cacheTransferredTimeline (timelineKey : String) (plan : TransferPlan)
    (selection : TransferTargetSelection) (record : TimelineRecord) (revision : Nat)
    (safeFloor : Option Nat) : Service (TimelineRoute × TimelineLifecycleState) :=
  if C.isLocalEndpoint p plan.ownerEndpoint then do
    call (.insertTimeline timelineKey record revision safeFloor)
    return (record.route, record.state)
  else do
    clearTimelineCache timelineKey
    if selection.targetResourceTier = .dedicated then do
      call (.releaseDedicated selection.newGeneratorId timelineKey)
      return (record.route, record.state)
    else return (record.route, record.state)

def synchronizeTransferCompletion (timelineKey : String) (previousRoute : TimelineRoute)
    (plan : TransferPlan) (selection : TransferTargetSelection) (record : TimelineRecord)
    (revision : Nat) (safeFloor : Option Nat) (fuel : Nat) :
    Service (TimelineRoute × TimelineLifecycleState) := do
  releasePreviousDedicated timelineKey previousRoute (selection.target plan)
  if C.isLocalEndpoint p plan.ownerEndpoint && record.state ≠ .active then do
    ensureGeneratorLease C p selection.newGeneratorId fuel
    let (record, revision) ←
      activateLocalTimelineRecord C p timelineKey fuel fuel record revision
    cacheTransferredTimeline C p timelineKey plan selection record revision safeFloor
  else cacheTransferredTimeline C p timelineKey plan selection record revision safeFloor

def commitTransfer (timelineKey : String) (record : TimelineRecord) (revision : Nat)
    (plan : TransferPlan) (prepared : TransferPreparation) (selection : TransferTargetSelection)
    (state : TimelineLifecycleState) (fuel : Nat) :
    Service (TimelineRoute × Nat × TimelineLifecycleState) := do
  let transferred := transferredRecord record plan.reason prepared.cachedLast
    prepared.previousGeneratorFloor (selection.target plan) state prepared.now
  match ← call (.compareExchangeTimeline (.transfer plan.reason prepared.cachedLast
    prepared.previousGeneratorFloor) timelineKey revision transferred) with
  | .error e => rejectTransfer timelineKey record.route selection e
  | .ok newRevision => do
    clearTimelineCache timelineKey
    let (route, state) ← synchronizeTransferCompletion C p timelineKey record.route plan selection
      transferred newRevision
      (transferFloor plan.reason record prepared.cachedLast prepared.previousGeneratorFloor) fuel
    return (route, record.route.generatorId, state)

def applyUnfencedTransferPlan (timelineKey : String) (record : TimelineRecord) (revision : Nat)
    (plan : TransferPlan) (prepared : TransferPreparation) (fuel : Nat) :
    Service (TimelineRoute × Nat × TimelineLifecycleState) := do
  let selection ← selectTransferTarget C p timelineKey record.route plan
    (transferFloor plan.reason record prepared.cachedLast prepared.previousGeneratorFloor)
  if C.isLocalEndpoint p plan.ownerEndpoint && plan.reason ≠ .failover then do
    match ← (ensureGeneratorLease C p selection.newGeneratorId fuel).attempt with
    | .error e => rejectTransfer timelineKey record.route selection e
    | .ok () => commitTransfer C p timelineKey record revision plan prepared selection .active fuel
  else commitTransfer C p timelineKey record revision plan prepared selection .recovering fuel

/-- A transfer that holds the timeline lock throughout; its floor comes from the cached state. -/
def applyFencedLocalTransferPlan (timelineKey : String) (record : TimelineRecord)
    (plan : TransferPlan) (prepared : TransferPreparation) (handle : Nat) (timeline : TimelineState)
    (fuel : Nat) : Service (TimelineRoute × Nat × TimelineLifecycleState) := do
  let safeFloor := fencedFloor (preparedGraceful plan.reason record prepared.cachedLast) timeline
  let selection ← selectTransferTarget C p timelineKey record.route plan safeFloor
  match ← (ensureGeneratorLease C p selection.newGeneratorId fuel).attempt with
  | .error e => rejectTransfer timelineKey record.route selection e
  | .ok () => do
    let transferred := fencedRecord record plan.reason prepared.cachedLast timeline
      (selection.target plan) prepared.now
    match ← call (.compareExchangeTimeline (.fencedTransfer plan.reason prepared.cachedLast
      timeline) timelineKey timeline.revision transferred) with
    | .error e => rejectTransfer timelineKey record.route selection e
    | .ok newRevision => do
      releasePreviousDedicated timelineKey record.route (selection.target plan)
      call (.storeHandle timelineKey handle (timeline.reroute transferred safeFloor newRevision))
      return (transferred.route, record.route.generatorId, transferred.state)

def applyTransferPlan (timelineKey : String) (record : TimelineRecord) (revision : Nat)
    (plan : TransferPlan) (fuel : Nat) :
    Service (TimelineRoute × Nat × TimelineLifecycleState) := do
  let prepared ← prepareTransferApplication C p timelineKey record plan.reason
  if plan.reason ≠ .failover && C.isLocalEndpoint p record.route.ownerWorkerEndpoint &&
      C.isLocalEndpoint p plan.ownerEndpoint then do
    match ← call (.timelineHandle timelineKey) with
    | none => applyUnfencedTransferPlan C p timelineKey record revision plan prepared fuel
    | some handle => do
      let timeline ← call (.lockHandle timelineKey handle none)
      if timeline.route = record.route && timeline.revision = revision then do
        let result ← (applyFencedLocalTransferPlan C p timelineKey record plan prepared handle
          timeline fuel).attempt
        call (.unlockHandle timelineKey handle)
        .ofExcept result
      else do
        call (.unlockHandle timelineKey handle)
        applyUnfencedTransferPlan C p timelineKey record revision plan prepared fuel
  else applyUnfencedTransferPlan C p timelineKey record revision plan prepared fuel

def transferTimelineForRpc (timelineKey targetOwnerEndpoint : String)
    (targetGeneratorId : Option Nat) (reason : TransferReason) (fuel : Nat) :
    Service (TimelineRoute × Nat × TimelineLifecycleState) :=
  match validateTimelineKey timelineKey,
    validateTransferTarget C p timelineKey targetOwnerEndpoint targetGeneratorId with
  | .error e, _ | .ok (), .error e => .fail e
  | .ok (), .ok () => do
    match ← call (.loadTimeline timelineKey) with
    | .error e => .fail e
    | .ok none => .fail (.timelineNotFound timelineKey)
    | .ok (some (record, revision)) =>
      let tier := match targetGeneratorId with
        | some generatorId => resourceTierForGeneratorId generatorId (C.worker p).sharedGenerators
            (C.worker p).warmGenerators C.layout.maxGenerators
        | none => .ok record.route.resourceTier
      match tier with
      | .error e => .fail e
      | .ok tier =>
        applyTransferPlan C p timelineKey record revision
          ⟨tier, targetOwnerEndpoint, targetGeneratorId, reason⟩ fuel

def transferTimeline (timelineKey : String) (targetResourceTier : ResourceTier)
    (targetOwnerEndpoint : String) (targetGeneratorId : Option Nat) (fuel : Nat) :
    Service TimelineRoute :=
  match validateTimelineKey timelineKey,
    validateTransferTarget C p timelineKey targetOwnerEndpoint targetGeneratorId with
  | .error e, _ | .ok (), .error e => .fail e
  | .ok (), .ok () => do
    match ← call (.loadTimeline timelineKey) with
    | .error e => .fail e
    | .ok none => .fail (.timelineNotFound timelineKey)
    | .ok (some (record, revision)) => do
      let result ← applyTransferPlan C p timelineKey record revision
        ⟨targetResourceTier, targetOwnerEndpoint, targetGeneratorId, .manual⟩ fuel
      return result.1

end

end Chronos
