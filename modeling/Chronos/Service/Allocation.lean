import Chronos.Service.Timeline

/-! Allocation: the cursor loop of a generator, the serve loop under the timeline lock, the guard
in front of it, and the cached and metadata paths that lead to it. -/

namespace Chronos

open Interleaving

def maxAllocationContentionRetries : Nat := 8

inductive AllocateAfterResult where
  | allocated (ranges : List TimestampRange)
  | contended
  deriving DecidableEq

inductive ServeOutcome where
  | served (response : AllocateTimestampsResponse)
  | contended
  | retryAfterLeaseRefresh
  | error (error : TsoError)
  deriving DecidableEq

def requestMatchesTimelineRoute (request : AllocateTimestampsRequest) (route : TimelineRoute) :
    Bool :=
  route.routeVersion = request.expectedRouteVersion && route.epoch = request.expectedEpoch

/-- A request as it travels through the service, with what was seen when it came in. -/
structure Invocation where
  request : AllocateTimestampsRequest
  cancellable : Bool
  seen : Nat
  invokedEpoch : Nat

section

variable (C : Cluster) (p : Nat)

def allocateLoop (generatorId : Nat) (args : Generator.AllocateArgs) (floorIdx : Nat)
    (serving : Option Serving) : Nat → Service AllocateAfterResult
  | 0 => return .contended
  | tries + 1 => do
    let old ← call (.loadNextIndex generatorId)
    match Generator.reserve C.layout generatorId args floorIdx old with
    | .error e => .fail e
    | .ok r => do
      if ← call (.compareExchangeNextIndex old
          ⟨p, generatorId, args, r.startIndex, r.newIndex, serving⟩) then
        match Generator.allocatedRanges C.layout generatorId args.count r.startIndex with
        | .error e => .fail e
        | .ok ranges => return .allocated ranges
      else allocateLoop generatorId args floorIdx serving tries

def allocateAfter (generatorId : Nat) (args : Generator.AllocateArgs)
    (serving : Option Serving) : Service AllocateAfterResult :=
  match Generator.floorIndex C.layout generatorId args.floor with
  | .error e => .fail e
  | .ok floorIdx =>
    allocateLoop C p generatorId args floorIdx serving Generator.maxGeneratorContentionRetries

def allocateWithCapturedBound (generatorId : Nat) (args : Generator.AllocateArgs) :
    Service AllocateAfterResult := do
  let now ← call .nowMs
  match ← call (.validLeaseUpperBoundForOwner generatorId now false) with
  | none => .fail (.generatorLeaseExpired generatorId)
  | some bound => allocateAfter C p generatorId { args with issuedUpperBound := some bound } none

def waitForFutureBorrowError (cancellable : Bool) (error : TsoError) : Service Unit :=
  if cancellable then checkRequestCancellation else .fail error

def serveLocked (inv : Invocation) (handle generatorId : Nat) (bound : Option Nat)
    (checkedRoute : TimelineRoute) (state : TimelineState) : Service ServeOutcome := do
  if ← call .isCancelled then return .error .requestCancelled
  else do
    let now ← call .nowMs
    match ← call .chargeTimelineQuota with
    | .error e => return .error e
    | .ok () => do
      let args : Generator.AllocateArgs :=
        { count := inv.request.count
          floor := state.lastIssuedTso
          nowMs := now
          maxFutureBorrowMs := C.effectiveFutureBorrowMs p state.recoveryFloorTso now
          maxClockRewindMs := (C.worker p).maxClockRewindMs
          issuedUpperBound := bound }
      let serving : Serving := ⟨inv.request, checkedRoute, state, inv.seen, inv.invokedEpoch⟩
      match ← (allocateAfter C p generatorId args (some serving)).attempt with
      | .ok (.allocated ranges) => do
        call (.storeHandle inv.request.timelineKey handle
          { state with lastIssuedTso := ranges.getLast?.map (·.endTso) })
        return .served ⟨state.route.timelineKey, generatorId, state.route.epoch,
          state.route.routeVersion, ranges⟩
      | .ok .contended => return .contended
      | .error (.issuedUpperBoundExceeded ..) => return .retryAfterLeaseRefresh
      | .error e => return .error e

/-- The loop of `serve_allocation_from_timeline_state_handle`. The route was checked before it;
the loop takes the timeline lock again after the admission wait. -/
def serveAllocation (inv : Invocation) (handle generatorId : Nat) (bound : Option Nat)
    (checkedRoute : TimelineRoute) (leaseFuel : Nat) :
    Nat → Nat → Service (Option AllocateTimestampsResponse)
  | 0, _ => .fail .requestCancelled
  | fuel + 1, contentionRetries => do
    checkRequestCancellation
    let _ ← call (.readHandle inv.request.timelineKey handle)
    match ← call (.acquireGeneratorAdmission generatorId) with
    | .error e => .fail e
    | .ok () => do
      let state ← call (.lockHandle inv.request.timelineKey handle (some checkedRoute))
      let outcome ← (serveLocked C p inv handle generatorId bound checkedRoute state).attempt
      call (.unlockHandle inv.request.timelineKey handle)
      match outcome with
      | .error e => .fail e
      | .ok (.served response) => return some response
      | .ok .contended =>
        if contentionRetries + 1 ≥ maxAllocationContentionRetries then
          if inv.cancellable then do
            checkRequestCancellation
            serveAllocation inv handle generatorId bound checkedRoute leaseFuel fuel 0
          else .fail (.allocationContention generatorId)
        else
          serveAllocation inv handle generatorId bound checkedRoute leaseFuel fuel
            (contentionRetries + 1)
      | .ok .retryAfterLeaseRefresh => do
        refreshGeneratorLeaseIfUnchanged C p generatorId bound leaseFuel
        return none
      | .ok (.error (.futureBorrowExceeded requested allowed)) => do
        waitForFutureBorrowError inv.cancellable (.futureBorrowExceeded requested allowed)
        serveAllocation inv handle generatorId bound checkedRoute leaseFuel fuel contentionRetries
      | .ok (.error e) => .fail e

def serveAllocationFromTimelineStateHandle (inv : Invocation) (handle generatorId : Nat)
    (bound : Option Nat) (checkedRoute : TimelineRoute) (fuel : Nat) :
    Service (Option AllocateTimestampsResponse) :=
  match C.ensureGeneratorIdRange generatorId with
  | .error e => .fail e
  | .ok () => serveAllocation C p inv handle generatorId bound checkedRoute fuel fuel 0

def cachedTimelineStillMatchesMetadata (timelineKey : String) (cachedRoute : TimelineRoute)
    (cachedState : TimelineLifecycleState) : Service Bool := do
  match ← loadTimelineWithSingleflight timelineKey with
  | none => return false
  | some (record, _) => do
    match ← call (.loadGenerator cachedRoute.generatorId) with
    | .error e => .fail e
    | .ok none => return false
    | .ok (some (generatorRecord, _)) =>
      return record.route = cachedRoute && record.state = cachedState &&
        C.isLocalGeneratorOwner p generatorRecord

def serveIfUnchanged (inv : Invocation) (handle generatorId : Nat) (bound : Option Nat)
    (checked : TimelineState) (fuel : Nat) : Service (Option AllocateTimestampsResponse) := do
  let post ← call (.readHandle inv.request.timelineKey handle)
  if post.state ≠ checked.state || post.route ≠ checked.route ||
      post.route.generatorId ≠ generatorId then do
    clearTimelineCache inv.request.timelineKey
    return none
  else
    serveAllocationFromTimelineStateHandle C p inv handle generatorId bound checked.route fuel

def tryServeTimelineStateHandleWithGuard (inv : Invocation) (handle generatorId : Nat)
    (bound : Option Nat) (revalidateAuthority : Bool) (fuel : Nat) :
    Service (Option AllocateTimestampsResponse) := do
  checkRequestCancellation
  let current ← call (.readHandle inv.request.timelineKey handle)
  let ownerMatches := C.isLocalEndpoint p current.route.ownerWorkerEndpoint
  let routeMatches := requestMatchesTimelineRoute inv.request current.route
  let ready := timelineIsReady current.state
  if ownerMatches && routeMatches && !ready then do
    clearTimelineCache inv.request.timelineKey
    .fail (.timelineNotReady inv.request.timelineKey current.state)
  else if !ownerMatches || current.route.generatorId ≠ generatorId then do
    clearTimelineCache inv.request.timelineKey
    return none
  else if !(ownerMatches && routeMatches && ready) then return none
  else if revalidateAuthority then do
    if ← cachedTimelineStillMatchesMetadata C p inv.request.timelineKey current.route
        current.state then
      serveIfUnchanged C p inv handle generatorId bound current fuel
    else do
      clearTimelineCache inv.request.timelineKey
      return none
  else serveIfUnchanged C p inv handle generatorId bound current fuel

/-- The part of the cached path after an authority check: the lease is ensured, and a failure
there falls back to the metadata path. -/
def serveCachedAfterAuthority (inv : Invocation) (handle : Nat) (cached : TimelineState)
    (fuel : Nat) : Service (Option AllocateTimestampsResponse) := do
  match ← (ensureGeneratorLeaseForAllocation C p inv.request.timelineKey cached.route.generatorId
    fuel).attempt with
  | .ok bound =>
    tryServeTimelineStateHandleWithGuard C p inv handle cached.route.generatorId bound true fuel
  | .error _ => do
    clearTimelineCache inv.request.timelineKey
    return none

def tryAllocateFromCachedTimeline (inv : Invocation) (fuel : Nat) :
    Service (Option AllocateTimestampsResponse) := do
  match ← call (.timelineHandle inv.request.timelineKey) with
  | none => return none
  | some handle => do
    let cached ← call (.readHandle inv.request.timelineKey handle)
    let ownerMatches := C.isLocalEndpoint p cached.route.ownerWorkerEndpoint
    if ownerMatches && requestMatchesTimelineRoute inv.request cached.route then
      if timelineIsReady cached.state then do
        let now ← call .nowMs
        let bound ← call (.validLeaseUpperBoundForOwner cached.route.generatorId now false)
        match C.validateBatchForRoute p inv.request.count cached.route, bound with
        | .error e, _ => .fail e
        | .ok (), some bound =>
          tryServeTimelineStateHandleWithGuard C p inv handle cached.route.generatorId
            (some bound) false fuel
        | .ok (), none => do
          if ← cachedTimelineStillMatchesMetadata C p inv.request.timelineKey cached.route
              cached.state then
            serveCachedAfterAuthority C p inv handle cached fuel
          else do
            clearTimelineCache inv.request.timelineKey
            return none
      else
        match C.validateBatchForRoute p inv.request.count cached.route with
        | .error e => .fail e
        | .ok () => do
          if ← cachedTimelineStillMatchesMetadata C p inv.request.timelineKey cached.route
              cached.state then do
            clearTimelineCache inv.request.timelineKey
            .fail (.timelineNotReady inv.request.timelineKey cached.state)
          else do
            clearTimelineCache inv.request.timelineKey
            return none
    else if !ownerMatches then do
      clearTimelineCache inv.request.timelineKey
      return none
    else return none

def checkLoadedTimeline (request : AllocateTimestampsRequest) (record : TimelineRecord) :
    Except TsoError Unit :=
  if record.route.routeVersion ≠ request.expectedRouteVersion then
    .error (.routeVersionMismatch request.expectedRouteVersion record.route.routeVersion)
  else if record.route.epoch ≠ request.expectedEpoch then
    .error (.epochMismatch request.expectedEpoch record.route.epoch)
  else if !C.isLocalEndpoint p record.route.ownerWorkerEndpoint then
    .error (.notTimelineOwner record.route.ownerWorkerEndpoint)
  else .ok ()

def serveFromMetadata (inv : Invocation) (record : TimelineRecord) (revision fuel : Nat) :
    Service (Option AllocateTimestampsResponse) := do
  match ← (activateLocalTimelineRecord C p inv.request.timelineKey fuel fuel record
    revision).attempt with
  | .error (.generatorLeaseExpired _) => .fail (.leaseExpired inv.request.timelineKey)
  | .error e => .fail e
  | .ok (record, revision) =>
    if !timelineIsReady record.state then do
      clearTimelineCache inv.request.timelineKey
      .fail (.timelineNotReady inv.request.timelineKey record.state)
    else do
      let bound ← ensureGeneratorLeaseForAllocation C p inv.request.timelineKey
        record.route.generatorId fuel
      let handle ← timelineStateHandleFromRecord C p inv.request.timelineKey record revision
      tryServeTimelineStateHandleWithGuard C p inv handle record.route.generatorId bound true fuel

def allocateTimestampsAfterValidation (inv : Invocation) (leaseFuel : Nat) :
    Nat → Service AllocateTimestampsResponse
  | 0 => .fail .requestCancelled
  | fuel + 1 => do
    rejectNewWorkIfShuttingDown
    checkRequestCancellation
    match ← tryAllocateFromCachedTimeline C p inv leaseFuel with
    | some response => return response
    | none => do
      match ← loadTimelineWithSingleflight inv.request.timelineKey with
      | none => .fail (.timelineNotFound inv.request.timelineKey)
      | some (record, revision) =>
        match checkLoadedTimeline C p inv.request record,
          C.validateBatchForRoute p inv.request.count record.route with
        | .error e, _ => do
          clearTimelineCache inv.request.timelineKey
          .fail e
        | .ok (), .error e => .fail e
        | .ok (), .ok () => do
          match ← serveFromMetadata C p inv record revision leaseFuel with
          | some response => return response
          | none => allocateTimestampsAfterValidation inv leaseFuel fuel

def allocateTimestamps (request : AllocateTimestampsRequest) (cancellable : Bool) (fuel : Nat) :
    Service AllocateTimestampsResponse := do
  let (seen, invokedEpoch) ← call (.invoke request.timelineKey)
  match validateTimelineKey request.timelineKey,
    validateClientRequestId request.clientRequestId with
  | .error e, _ | .ok (), .error e => .fail e
  | .ok (), .ok () =>
    if request.count = 0 then .fail .invalidCount
    else if request.count > (C.worker p).maxBatchPerRequest then
      .fail (.batchTooLarge request.count (C.worker p).maxBatchPerRequest)
    else
      allocateTimestampsAfterValidation C p ⟨request, cancellable, seen, invokedEpoch⟩ fuel fuel

end

end Chronos
