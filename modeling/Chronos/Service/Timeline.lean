import Chronos.Service.Lease

/-! Timelines outside allocation and transfer: loading a record, keeping the cached state in step
with it, activation after a recovery, creation, and what a route watch or a shutdown does. -/

namespace Chronos

open Interleaving

section

variable (C : Cluster) (p : Nat)

def rejectNewWorkIfShuttingDown : Service Unit := do
  if ← call .shutdownGate then .fail .serviceShuttingDown else return ()

def clearTimelineCache (timelineKey : String) : Service Unit := call (.removeTimeline timelineKey)

def loadTimelineWithSingleflight (timelineKey : String) :
    Service (Option (TimelineRecord × Nat)) := do
  checkRequestCancellation
  let result ← call (.loadTimelineShared timelineKey)
  .ofExcept result

def claimSpecificDedicated (generatorId : Nat) (timelineKey : String) : Service Bool :=
  if generatorId < (C.worker p).sharedGenerators + (C.worker p).warmGenerators then
    .fail (.generatorIdOutOfRange generatorId)
  else do
    let result ← call (.claimDedicated generatorId timelineKey)
    .ofExcept result

def claimFirstDedicated (timelineKey : String) : List Nat → Service (Nat × Bool)
  | [] => .fail .generatorPoolExhausted
  | generatorId :: rest =>
    if (C.worker p).ownsGeneratorId generatorId then do
      match ← call (.claimDedicated generatorId timelineKey) with
      | .ok claimed => return (generatorId, claimed)
      | .error .generatorPoolExhausted => claimFirstDedicated timelineKey rest
      | .error e => .fail e
    else claimFirstDedicated timelineKey rest

def claimDedicated (timelineKey : String) : Service (Nat × Bool) := do
  match ← call (.claimedGeneratorForTimeline timelineKey) with
  | some generatorId => return (generatorId, false)
  | none =>
    let dedicatedStart := (C.worker p).sharedGenerators + (C.worker p).warmGenerators
    claimFirstDedicated C p timelineKey
      (List.range' dedicatedStart (C.layout.maxGenerators - dedicatedStart))

def pickGeneratorId (timelineKey : String) : ResourceTier → Service Nat
  | .shared => .ofExcept (C.pickOwnedGeneratorByHash p timelineKey 0 (C.worker p).sharedGenerators)
  | .warm => .ofExcept (C.pickOwnedGeneratorByHash p timelineKey (C.worker p).sharedGenerators
      (C.worker p).warmGenerators)
  | .dedicated => do
    let claimed ← claimDedicated C p timelineKey
    return claimed.1

def restoreDedicatedClaim (timelineKey : String) (record : TimelineRecord) : Service Unit :=
  if record.route.resourceTier ≠ .dedicated ||
      !C.isLocalEndpoint p record.route.ownerWorkerEndpoint then return ()
  else do
    let _ ← claimSpecificDedicated C p record.route.generatorId timelineKey
    return ()

def timelineStateHandleFromRecord (timelineKey : String) (record : TimelineRecord)
    (revision : Nat) : Service Nat := do
  restoreDedicatedClaim C p timelineKey record
  let handle ← call (.timelineHandleOrInsert timelineKey record revision)
  call (.syncHandle timelineKey handle record revision)
  return handle

def activateLocalTimelineRecord (timelineKey : String) (leaseFuel : Nat) :
    Nat → TimelineRecord → Nat → Service (TimelineRecord × Nat)
  | 0, _, _ => .fail .requestCancelled
  | fuel + 1, record, revision => do
    checkRequestCancellation
    if !C.isLocalEndpoint p record.route.ownerWorkerEndpoint then return (record, revision)
    else
      match servingReadiness record.state with
      | .notReady => return (record, revision)
      | .serving => do
        ensureGeneratorLease C p record.route.generatorId leaseFuel
        return (record, revision)
      | .requiresActivation => do
        let now ← call .nowMs
        if (recoveredTimelineFloorTso record).any fun floor =>
            (C.layout.decode floor).physicalMs >
              U64.saturatingAdd now (C.worker p).recoveryCatchupBudgetMs then
          return (record, revision)
        else do
          ensureGeneratorLease C p record.route.generatorId leaseFuel
          let now ← call .nowMs
          let activated := activatedRecord record now
          match ← call (.compareExchangeTimeline .activate timelineKey revision activated) with
          | .ok newRevision => return (activated, newRevision)
          | .error .casFailed => do
            backoffAfterMetadataContention (return ())
            match ← loadTimelineWithSingleflight timelineKey with
            | none => .fail (.timelineNotFound timelineKey)
            | some (latest, latestRevision) =>
              activateLocalTimelineRecord timelineKey leaseFuel fuel latest latestRevision
          | .error e => .fail e

def createTimeline (timelineKey : String) (tier : ResourceTier) (leaseFuel : Nat)
    (retry : Service TimelineRoute) : Service TimelineRoute := do
  let generatorId ← pickGeneratorId C p timelineKey tier
  ensureGeneratorLease C p generatorId leaseFuel
  let now ← call .nowMs
  let record := createdTimelineRecord timelineKey (C.worker p).advertiseEndpoint generatorId
    tier now
  match ← call (.createTimeline timelineKey record) with
  | .ok revision => do
    call (.insertTimeline timelineKey record revision none)
    return record.route
  | .error .metadataAlreadyExists => retry
  | .error e => .fail e

def adoptTimeline (timelineKey : String) (record : TimelineRecord) (revision fuel : Nat) :
    Service TimelineRoute :=
  if C.isLocalEndpoint p record.route.ownerWorkerEndpoint then do
    match ← (activateLocalTimelineRecord C p timelineKey fuel fuel record revision).attempt with
    | .ok (record, revision) => do
      let _ ← timelineStateHandleFromRecord C p timelineKey record revision
      return record.route
    | .error (.notGeneratorOwner ..) => do
      restoreDedicatedClaim C p timelineKey record
      return record.route
    | .error e => .fail e
  else return record.route

def ensureTimelineFromMetadata (timelineKey : String) (tier : ResourceTier) (leaseFuel : Nat)
    (retry : Service TimelineRoute) : Service TimelineRoute := do
  match ← loadTimelineWithSingleflight timelineKey with
  | some (record, revision) => adoptTimeline C p timelineKey record revision leaseFuel
  | none => createTimeline C p timelineKey tier leaseFuel retry

def ensureTimelineLoop (timelineKey : String) (tier : ResourceTier) (leaseFuel : Nat) :
    Nat → Service TimelineRoute
  | 0 => .fail .requestCancelled
  | fuel + 1 => do
    rejectNewWorkIfShuttingDown
    match ← call (.timelineHandle timelineKey) with
    | some handle => do
      let timeline ← call (.readHandle timelineKey handle)
      if C.isLocalEndpoint p timeline.route.ownerWorkerEndpoint && timelineIsReady
        timeline.state then
        return timeline.route
      else
        ensureTimelineFromMetadata C p timelineKey tier leaseFuel
          (ensureTimelineLoop timelineKey tier leaseFuel fuel)
    | none =>
      ensureTimelineFromMetadata C p timelineKey tier leaseFuel
        (ensureTimelineLoop timelineKey tier leaseFuel fuel)

def ensureTimelineWithTier (timelineKey : String) (tier : ResourceTier) (fuel : Nat) :
    Service TimelineRoute :=
  match validateTimelineKey timelineKey with
  | .error e => .fail e
  | .ok () => ensureTimelineLoop C p timelineKey tier fuel fuel

def renewTimelineLease (timelineKey : String) (fuel : Nat) : Service Unit :=
  match validateTimelineKey timelineKey with
  | .error e => .fail e
  | .ok () => do
    match ← loadTimelineWithSingleflight timelineKey with
    | none => .fail (.timelineNotFound timelineKey)
    | some (record, _) =>
      if !C.isLocalEndpoint p record.route.ownerWorkerEndpoint then
        .fail (.notTimelineOwner record.route.ownerWorkerEndpoint)
      else do
        ensureGeneratorLease C p record.route.generatorId fuel
        refreshGeneratorLeaseInner C p record.route.generatorId .explicitRenewal fuel

def shouldClearTimelineCacheForRouteUpdate (cached updated : TimelineRoute) : Bool :=
  let sameRouteTarget := cached.timelineKey = updated.timelineKey &&
    cached.generatorId = updated.generatorId && cached.epoch = updated.epoch &&
    cached.resourceTier = updated.resourceTier &&
    endpointsMatch C.socketAddr cached.ownerWorkerEndpoint updated.ownerWorkerEndpoint
  !sameRouteTarget && updated.routeVersion ≥ cached.routeVersion

def invalidateTimelineCacheForRouteUpdate (updated : TimelineRoute) : Service Unit := do
  match ← call (.timelineHandle updated.timelineKey) with
  | none => return ()
  | some handle => do
    let cached ← call (.readHandle updated.timelineKey handle)
    if shouldClearTimelineCacheForRouteUpdate C cached.route updated then do
      let cached ← call (.readHandle updated.timelineKey handle)
      if cached.route.resourceTier = .dedicated then do
        call (.releaseDedicated cached.route.generatorId cached.route.timelineKey)
        clearTimelineCache updated.timelineKey
      else clearTimelineCache updated.timelineKey
    else return ()

def resetTimelineCache : Service Unit := do
  call .clearTimelines
  call .clearDedicatedClaims

def bestEffortPersistLocalTimelineFloor (timelineKey : String) : Service Unit := do
  match ← call (.timelineHandle timelineKey) with
  | none => return ()
  | some handle => do
    let timeline ← call (.readHandle timelineKey handle)
    match timeline.lastIssuedTso with
    | none => return ()
    | some localLast => do
      match ← call (.loadTimeline timelineKey) with
      | .error e => .fail e
      | .ok none => return ()
      | .ok (some (record, revision)) =>
        let lastGraceful := Floor.mergeMax record.lastGracefulIssued (some localLast)
        if !C.isLocalEndpoint p record.route.ownerWorkerEndpoint ||
            (record.lastGracefulIssued = lastGraceful &&
              record.recoveryFloorTso = Floor.mergeMax record.recoveryFloorTso lastGraceful) then
          return ()
        else do
          let now ← call .nowMs
          match ← call (.compareExchangeTimeline (.floorFlush localLast) timelineKey revision
            (flushedTimelineRecord record localLast now)) with
          | .ok _ | .error .casFailed => return ()
          | .error e => .fail e

def invalidateLocalRuntimeAfterShutdown : Service Unit := do
  call .clearLeases
  call .clearDedicatedClaims
  call .clearTimelines

end

end Chronos
