import Chronos.Metadata.Requests
import Chronos.StatusIndex.Store

/-! The programs on the timeline store: rebuilding the status indexes under a lease lock, creating
timelines with and without a limit, and exchanging the records of one or several timelines. -/

namespace Chronos

open Interleaving

abbrev IndexProg := Prog indexSig TsoError

abbrev indexCall (o : IndexOp) : IndexProg o.Reply := @Prog.op indexSig TsoError o

def retryEtcdRequest {α : Type} (request : IndexProg (Except String α)) :
    IndexProg (Except String α) :=
  request.retry (indexCall .retryAllowed) 3

def indexEtcdTxn (request : IndexTxn) : IndexProg (Except String (Option Nat)) :=
  retryEtcdRequest (indexCall (.txn request))

namespace TimelineRecord

variable (record : TimelineRecord)

def validateSchemaVersion : Except TsoError Unit :=
  if record.schemaVersion = currentMetadataSchemaVersion then .ok ()
  else .error (.internal
    ("unsupported timeline metadata schema_version " ++ toString record.schemaVersion))

def stampedForPersistence : TimelineRecord :=
  { record with schemaVersion := currentMetadataSchemaVersion }

end TimelineRecord

def tryAcquireLeaseLock (name : LockName) (operation : String) : IndexProg (Option Nat) := do
  let token ← orInternal ("Etcd " ++ operation ++ " lock lease grant failed")
    (retryEtcdRequest (indexCall .leaseGrant))
  match ← indexEtcdTxn (.acquire name token) with
  | .error message => do
    let _ ← indexCall (.leaseRevoke token)
    .fail (.internal ("Etcd " ++ operation ++ " lock transaction failed: " ++ message))
  | .ok none => do
    let _ ← indexCall (.leaseRevoke token)
    return none
  | .ok (some _) => do
    match ← retryEtcdRequest (indexCall (.leaseKeepAlive token)) with
    | .error message => do
      let _ ← indexCall (.leaseRevoke token)
      .fail (.internal ("Etcd " ++ operation ++ " lock keepalive failed: " ++ message))
    | .ok () => return some token

def leaseLockIsOwned (name : LockName) (token : Nat) : IndexProg Bool := do
  if ← indexCall (.isKnownLost token) then return false
  else do
    let holder ← orInternal "Etcd lease lock verification failed"
      (retryEtcdRequest (indexCall (.getLock name)))
    return holder = some token

/-- A lock that cannot be released expires with its lease. -/
def releaseLeaseLock (token : Nat) : IndexProg Unit := do
  let _ ← indexCall (.leaseRevoke token)
  return ()

def statusIndexRebuildBatchRecords : Nat := 32

def statusIndexRebuildWaitRounds : Nat := 1201

inductive StatusIndexRebuildWait where
  | ready | lockReleased
  deriving DecidableEq

def statusIndexMarkerIsCurrent : IndexProg Bool := do
  let marker ← orInternal "Etcd status index marker lookup failed"
    (retryEtcdRequest (indexCall .getMarker))
  return marker = some (.text currentStatusIndexVersion)

def rebuildWaitTimedOut : TsoError :=
  .internal "timed out waiting for concurrent status index rebuild"

def waitForStatusIndexRebuild : Nat → IndexProg StatusIndexRebuildWait
  | 0 => .fail rebuildWaitTimedOut
  | rounds + 1 => do
    if ← statusIndexMarkerIsCurrent then return .ready
    else do
      let holder ← orInternal "Etcd status index rebuild lock lookup failed"
        (retryEtcdRequest (indexCall (.getLock .rebuild)))
      if holder.isNone then return .lockReleased
      else do
        if ← indexCall .deadlinePassed then .fail rebuildWaitTimedOut
        else waitForStatusIndexRebuild rounds

def indexPage (token : Nat) : List RouteEntry → IndexProg Unit
  | [] => return ()
  | entry :: rest => do
    Prog.ofExcept entry.record.validateSchemaVersion
    let response ← orInternal "Etcd status index rebuild txn failed"
      (indexEtcdTxn (.indexRoute token entry))
    match response with
    | some _ => indexPage token rest
    | none => do
      if ← leaseLockIsOwned .rebuild token then indexPage token rest
      else
        .fail (.internal "Etcd status index rebuild lock was lost while indexing routes")

def indexRoutes (token : Nat) : Nat → String → IndexProg Unit
  | 0, _ => .fail (.internal "")
  | pages + 1, startKey => do
    let page ← orInternal "Etcd status index route scan failed"
      (retryEtcdRequest (indexCall (.scanRoutes startKey statusIndexRebuildBatchRecords)))
    match page.getLast? with
    | none => return ()
    | some last => do
      indexPage token page
      indexRoutes token pages (nextEtcdKeyAfter last.key)

def rebuildTimelineStatusIndexesWithLock (token pages : Nat) : IndexProg Unit := do
  match ← orInternal "Etcd status index cleanup failed" (indexEtcdTxn (.cleanup token)) with
  | none => .fail (.internal "Etcd status index rebuild lock was lost before cleanup")
  | some _ => do
    indexRoutes token pages ""
    match ← orInternal "Etcd status index marker write failed" (indexEtcdTxn (.publish token)) with
    | none =>
      .fail (.internal "Etcd status index rebuild lock was lost before publishing the marker")
    | some _ => return ()

/-- The loop that waits for the lock: no token if another worker has rebuilt the indexes. -/
def acquireRebuildLock : Nat → IndexProg (Option Nat)
  | 0 => .fail (.internal "")
  | rounds + 1 => do
    if ← statusIndexMarkerIsCurrent then return none
    else do
      match ← tryAcquireLeaseLock .rebuild "status_index_rebuild_lock" with
      | some token => do
        if ← statusIndexMarkerIsCurrent then do
          releaseLeaseLock token
          return none
        else return some token
      | none => do
        match ← waitForStatusIndexRebuild statusIndexRebuildWaitRounds with
        | .ready => return none
        | .lockReleased => acquireRebuildLock rounds

def rebuildTimelineStatusIndexes (rounds pages : Nat) : IndexProg Unit := do
  match ← acquireRebuildLock rounds with
  | none => return ()
  | some token => do
    let result ← (rebuildTimelineStatusIndexesWithLock token pages).attempt
    releaseLeaseLock token
    Prog.ofExcept result

def loadTimeline (key : String) : IndexProg (Option RouteEntry) := do
  let found ← orInternal "Etcd get failed" (retryEtcdRequest (indexCall (.getRoute key)))
  match found with
  | none => return none
  | some entry => do
    Prog.ofExcept entry.record.validateSchemaVersion
    return some entry

/-- `load_timeline_route` accepts the records of later schema versions. -/
def loadTimelineRoute (key : String) : IndexProg (Option RouteEntry) := do
  let found ← orInternal "Etcd get_route failed" (retryEtcdRequest (indexCall (.getRoute key)))
  match found with
  | none => return none
  | some entry =>
    if entry.record.schemaVersion ≥ currentMetadataSchemaVersion then return some entry
    else .fail (.internal
      ("unsupported timeline metadata schema_version " ++ toString entry.record.schemaVersion))

def createTimelineWithIndexesInternal (key : String) (record : TimelineRecord)
    (lock : Option Nat) : IndexProg Nat := do
  match ← orInternal "Etcd txn failed" (indexEtcdTxn (.create key record lock)) with
  | some revision => return revision
  | none => .fail (if lock.isSome then .casFailed else .metadataAlreadyExists)

def createTimelineRecord (key : String) (record : TimelineRecord) : IndexProg Nat := do
  Prog.ofExcept record.validateSchemaVersion
  createTimelineWithIndexesInternal key record.stampedForPersistence none

def timelineCreationLockRetryAttempts : Nat := 200

def createTimelineUnderLock (key : String) (record : TimelineRecord) (maxTimelines token : Nat) :
    IndexProg Nat := do
  if (← loadTimelineRoute key).isSome then .fail .metadataAlreadyExists
  else do
    let count ← orInternal "Etcd timeline count query failed"
      (retryEtcdRequest (indexCall .countRoutes))
    if count ≥ maxTimelines then .fail (.timelineLimitReached maxTimelines)
    else createTimelineWithIndexesInternal key record (some token)

def createTimelineWithLimitLoop (key : String) (record : TimelineRecord) (maxTimelines : Nat) :
    Nat → IndexProg Nat
  | 0 => .fail (.internal "timed out acquiring distributed timeline creation lock")
  | attempts + 1 => do
    match ← tryAcquireLeaseLock .creation "timeline_creation_lock" with
    | none => createTimelineWithLimitLoop key record maxTimelines attempts
    | some token => do
      let result ← (createTimelineUnderLock key record maxTimelines token).attempt
      releaseLeaseLock token
      match result with
      | .error .casFailed => createTimelineWithLimitLoop key record maxTimelines attempts
      | .error e => .fail e
      | .ok revision => return revision

def createTimelineWithLimit (key : String) (record : TimelineRecord) (maxTimelines : Nat) :
    IndexProg Nat := do
  Prog.ofExcept record.validateSchemaVersion
  createTimelineWithLimitLoop key record.stampedForPersistence maxTimelines
    timelineCreationLockRetryAttempts

def compareExchangeTimelineWithIndexes (key : String) (expectedRevision : Nat)
    (record : TimelineRecord) : IndexProg Nat := do
  match ← loadTimeline key with
  | none => .fail (.timelineNotFound key)
  | some previous =>
    if previous.modRevision ≠ expectedRevision then .fail .casFailed
    else do
      match ← orInternal "Etcd txn failed"
          (indexEtcdTxn (.exchange [⟨key, expectedRevision, previous.record, record⟩])) with
      | some revision => return revision
      | none => do
        match ← loadTimeline key with
        | some existing =>
          if existing.record = record then return existing.modRevision else .fail .casFailed
        | none => .fail .casFailed

def compareExchangeTimelineRecord (key : String) (expectedRevision : Nat)
    (record : TimelineRecord) : IndexProg Nat := do
  Prog.ofExcept record.validateSchemaVersion
  compareExchangeTimelineWithIndexes key expectedRevision record.stampedForPersistence

structure TimelineBatchOp where
  timelineKey : String
  previousRevision : Nat
  record : TimelineRecord
  deriving DecidableEq

def loadExchanges (seen : List String) : List TimelineBatchOp → IndexProg (List TimelineExchange)
  | [] => return []
  | operation :: rest =>
    if operation.timelineKey ∈ seen then .fail .casFailed
    else do
      match ← loadTimeline operation.timelineKey with
      | none => .fail (.timelineNotFound operation.timelineKey)
      | some previous =>
        if previous.modRevision ≠ operation.previousRevision then .fail .casFailed
        else do
          let exchanges ← loadExchanges (operation.timelineKey :: seen) rest
          return ⟨operation.timelineKey, operation.previousRevision, previous.record,
            operation.record⟩ :: exchanges

def recoverRevisions : List TimelineBatchOp → IndexProg (List Nat)
  | [] => return []
  | operation :: rest => do
    match ← loadTimeline operation.timelineKey with
    | some existing =>
      if existing.record = operation.record then do
        let revisions ← recoverRevisions rest
        return existing.modRevision :: revisions
      else .fail .casFailed
    | none => .fail .casFailed

def compareExchangeTimelinesWithIndexes (operations : List TimelineBatchOp) :
    IndexProg (List Nat) :=
  if operations.isEmpty then return []
  else do
    let exchanges ← loadExchanges [] operations
    match ← orInternal "Etcd batch txn failed" (indexEtcdTxn (.exchange exchanges)) with
    | some revision => return operations.map fun _ => revision
    | none => recoverRevisions operations

def validateOperations : List TimelineBatchOp → Except TsoError Unit
  | [] => .ok ()
  | operation :: rest =>
    match operation.record.validateSchemaVersion with
    | .error e => .error e
    | .ok () => validateOperations rest

def compareExchangeTimelineRecords (operations : List TimelineBatchOp) : IndexProg (List Nat) := do
  Prog.ofExcept (validateOperations operations)
  compareExchangeTimelinesWithIndexes (operations.map fun operation =>
    { operation with record := operation.record.stampedForPersistence })

inductive IndexEntry where
  | rebuild (rounds pages : Nat)
  | create (key : String) (record : TimelineRecord)
  | createWithLimit (key : String) (record : TimelineRecord) (maxTimelines : Nat)
  | exchange (key : String) (expectedRevision : Nat) (record : TimelineRecord)
  | exchangeBatch (operations : List TimelineBatchOp)

def indexCode (_ : Unit) : IndexEntry → IndexProg (List Nat)
  | .rebuild rounds pages => do
    rebuildTimelineStatusIndexes rounds pages
    return []
  | .create key record => do
    let revision ← createTimelineRecord key record
    return [revision]
  | .createWithLimit key record maxTimelines => do
    let revision ← createTimelineWithLimit key record maxTimelines
    return [revision]
  | .exchange key expectedRevision record => do
    let revision ← compareExchangeTimelineRecord key expectedRevision record
    return [revision]
  | .exchangeBatch operations => compareExchangeTimelineRecords operations

abbrev IndexState := Sys indexSig Unit IndexWorld TsoError (List Nat)

abbrev IndexGuard := Guard indexSig Unit IndexChoice IndexEvent IndexWorld IndexEntry

abbrev IndexRun (G : IndexGuard) (w₀ : IndexWorld) : IndexState → Prop :=
  Reach indexMachine indexCode G ⟨w₀, []⟩

end Chronos
