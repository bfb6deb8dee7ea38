import Chronos.Idempotency.Records
import Chronos.KeyValue.Table
import Chronos.Metadata.Requests
import Chronos.Pruning.Keys

/-! The programs on the request records in etcd and their cleanup index: creating, exchanging and
deleting a record, and pruning completed ones. -/

namespace Chronos.Pruning

open Interleaving KeyValue

structure RequestRecordCleanupIndexEntry where
  timelineKey : String
  clientRequestId : String
  updatedAtMs : Nat
  deriving DecidableEq

inductive RequestValue where
  | record (record : RequestRecord)
  | index (entry : RequestRecordCleanupIndexEntry)
  deriving DecidableEq

abbrev RequestEntry := Entry String RequestValue
abbrev RequestTable := Table String RequestValue
abbrev RequestTxn := Txn String RequestValue
abbrev RequestWrite := Write String RequestValue

inductive CleanupOp where
  | get (key : String)
  | range (start stop : String) (limit : Nat)
  | txn (txn : RequestTxn)
  | retryAllowed

@[reducible] def CleanupOp.Reply : CleanupOp → Type
  | .get _ => Except String (Option RequestEntry)
  | .range .. => Except String (List RequestEntry)
  | .txn _ => Except String (Option Nat)
  | .retryAllowed => Bool

abbrev cleanupSig : Signature := ⟨CleanupOp, CleanupOp.Reply⟩

inductive CleanupChoice where
  | done
  | lost (message : String)
  | down (message : String)
  | flag (value : Bool)
  deriving DecidableEq

def duplicateKey (t : RequestTxn) : Bool := ¬ (t.writes.map Write.key).Nodup

/-- Revisions are signed 64-bit numbers. A transaction may take effect although its answer is
lost. -/
def cleanupExec {Actor : Type} (_ : Actor) :
    (o : CleanupOp) → CleanupChoice → RequestTable → Option (o.Reply × RequestTable)
  | .get key, .done, w => some (.ok (w.get key), w)
  | .get _, .down message, w => some (.error message, w)
  | .range start stop limit, .done, w => some (.ok (w.range start stop limit), w)
  | .range .., .down message, w => some (.error message, w)
  | .txn t, .done, w =>
    if duplicateKey t then some (.error "etcdserver: duplicate key given in txn request", w)
    else if w.admits t then
      if w.revision + 1 < 2 ^ 63 then some (.ok (some (w.revision + 1)), w.commit t) else none
    else some (.ok none, w)
  | .txn t, .lost message, w =>
    if !duplicateKey t && w.admits t && w.revision + 1 < 2 ^ 63 then
      some (.error message, w.commit t)
    else some (.error message, w)
  | .txn _, .down message, w => some (.error message, w)
  | .retryAllowed, .flag value, w => some (value, w)
  | _, _, _ => none

abbrev CleanupProg := Prog cleanupSig TsoError

abbrev cleanupCall (o : CleanupOp) : CleanupProg o.Reply := @Prog.op cleanupSig TsoError o

def retryEtcdRequest {α : Type} (request : CleanupProg (Except String α)) :
    CleanupProg (Except String α) :=
  request.retry (cleanupCall .retryAllowed) 3

def etcdGet (key : String) : CleanupProg (Except String (Option RequestEntry)) :=
  retryEtcdRequest (cleanupCall (.get key))

def etcdRange (start stop : String) (limit : Nat) :
    CleanupProg (Except String (List RequestEntry)) :=
  retryEtcdRequest (cleanupCall (.range start stop limit))

def etcdTxn (t : RequestTxn) : CleanupProg (Except String (Option Nat)) :=
  retryEtcdRequest (cleanupCall (.txn t))

def decodeRecord (context : String) (e : RequestEntry) : Except TsoError RequestRecord :=
  match e.value with
  | .record record => .ok record
  | .index _ => .error (.internal (context ++ " failed: "))

def decodeIndexEntry (context : String) (e : RequestEntry) :
    Except TsoError RequestRecordCleanupIndexEntry :=
  match e.value with
  | .index entry => .ok entry
  | .record _ => .error (.internal (context ++ " failed: "))

def getJsonRecord (opLabel deserializeContext key : String) :
    CleanupProg (Option (RequestRecord × Nat)) := do
  match ← orInternal ("Etcd " ++ opLabel ++ " failed") (etcdGet key) with
  | none => return none
  | some e => do
    let record ← .ofExcept (decodeRecord deserializeContext e)
    return some (record, e.modRevision)

def deleteJsonTxn (key : String) (previousRevision : Nat) : RequestTxn where
  compares := [(key, previousRevision)]
  writes := [⟨key, none⟩]

def deleteJsonRecord (txnContext key : String) (previousRevision : Nat) : CleanupProg Unit := do
  match ← orInternal txnContext (etcdTxn (deleteJsonTxn key previousRevision)) with
  | some _ => return ()
  | none => .fail .casFailed

section

variable (timelineKey clientRequestId : String)

def requestRecordIsPrunableCandidate (record : RequestRecord) : Bool := record.state = .completed

def requestRecordIsPrunable (record : RequestRecord) (olderThanMs : Nat) : Bool :=
  requestRecordIsPrunableCandidate record && record.updatedAtMs < olderThanMs

def requestCleanupIndexEntry (record : RequestRecord) : RequestRecordCleanupIndexEntry :=
  ⟨timelineKey, clientRequestId, record.updatedAtMs⟩

def requestCleanupIndexPutOp (record : RequestRecord) : Option RequestWrite :=
  if requestRecordIsPrunableCandidate record then
    some ⟨requestCleanupIndexKey record.updatedAtMs timelineKey clientRequestId,
      some (.index (requestCleanupIndexEntry timelineKey clientRequestId record))⟩
  else none

def requestCleanupIndexDeleteOp (record : RequestRecord) : Option RequestWrite :=
  if requestRecordIsPrunableCandidate record then
    some ⟨requestCleanupIndexKey record.updatedAtMs timelineKey clientRequestId, none⟩
  else none

def legacyRequestCleanupIndexDeleteOp (record : RequestRecord) : Option RequestWrite :=
  if requestRecordIsPrunableCandidate record then
    some ⟨legacyRequestCleanupIndexKey record.updatedAtMs timelineKey clientRequestId, none⟩
  else none

def loadRequestRecord : CleanupProg (Option (RequestRecord × Nat)) := do
  match ← getJsonRecord "get_request" "Request record deserialization"
    (requestKey timelineKey clientRequestId) with
  | some (record, revision) => do
    .ofExcept record.validateSchemaVersion
    return some (record, revision)
  | none =>
    if legacyRequestKeyIsUnambiguous timelineKey clientRequestId then do
      match ← getJsonRecord "get_legacy_request" "Legacy request record deserialization"
        (legacyRequestKey timelineKey clientRequestId) with
      | some (record, revision) => do
        .ofExcept record.validateSchemaVersion
        return some (record, revision ||| legacyRequestRevisionFlag)
      | none => return none
    else return none

def createTxn (record : RequestRecord) : RequestTxn where
  compares := (requestKey timelineKey clientRequestId, 0) ::
    if legacyRequestKeyIsUnambiguous timelineKey clientRequestId then
      [(legacyRequestKey timelineKey clientRequestId, 0)]
    else []
  writes := ⟨requestKey timelineKey clientRequestId, some (.record record)⟩ ::
    (requestCleanupIndexPutOp timelineKey clientRequestId record).toList

def createRequestRecord (record : RequestRecord) : CleanupProg Nat := do
  .ofExcept record.validateSchemaVersion
  match ← orInternal "Etcd request create txn failed"
    (etcdTxn (createTxn timelineKey clientRequestId record.stampedForPersistence)) with
  | some revision => return revision
  | none => .fail .metadataAlreadyExists

def previousKey (legacy : Bool) : String :=
  if legacy then legacyRequestKey timelineKey clientRequestId
  else requestKey timelineKey clientRequestId

def indexDeleteOp (legacy : Bool) (previousRecord : RequestRecord) : Option RequestWrite :=
  if legacy then legacyRequestCleanupIndexDeleteOp timelineKey clientRequestId previousRecord
  else requestCleanupIndexDeleteOp timelineKey clientRequestId previousRecord

def loadExpectedRecord (opLabel : String) (expectedRevision : Nat) : CleanupProg RequestRecord := do
  match ← getJsonRecord opLabel "Request record deserialization"
    (previousKey timelineKey clientRequestId (isLegacyRevision expectedRevision)) with
  | none => .fail (.timelineNotFound ("request:" ++ timelineKey ++ ":" ++ clientRequestId))
  | some (previousRecord, previousRevision) =>
    if previousRevision ≠ withoutLegacyFlag expectedRevision then .fail .casFailed
    else do
      .ofExcept previousRecord.validateSchemaVersion
      return previousRecord

def exchangeTxn (legacy : Bool) (revision : Nat) (previousRecord record : RequestRecord) :
    RequestTxn where
  compares := (previousKey timelineKey clientRequestId legacy, revision) ::
    if legacy then [(requestKey timelineKey clientRequestId, 0)] else []
  writes := ⟨requestKey timelineKey clientRequestId, some (.record record)⟩ ::
    ((indexDeleteOp timelineKey clientRequestId legacy previousRecord).toList ++
      (if legacy then [⟨legacyRequestKey timelineKey clientRequestId, none⟩] else []) ++
      (requestCleanupIndexPutOp timelineKey clientRequestId record).toList)

def compareExchangeRequestRecord (expectedRevision : Nat) (record : RequestRecord) :
    CleanupProg Nat := do
  .ofExcept record.validateSchemaVersion
  let previousRecord ←
    loadExpectedRecord timelineKey clientRequestId "get_request_for_cas" expectedRevision
  match ← orInternal "Etcd request CAS txn failed"
    (etcdTxn (exchangeTxn timelineKey clientRequestId (isLegacyRevision expectedRevision)
      (withoutLegacyFlag expectedRevision) previousRecord record.stampedForPersistence)) with
  | some revision => return revision
  | none => .fail .casFailed

def deleteTxn (legacy : Bool) (revision : Nat) (previousRecord : RequestRecord) : RequestTxn where
  compares := [(previousKey timelineKey clientRequestId legacy, revision)]
  writes := ⟨previousKey timelineKey clientRequestId legacy, none⟩ ::
    (indexDeleteOp timelineKey clientRequestId legacy previousRecord).toList

def compareDeleteRequestRecord (expectedRevision : Nat) : CleanupProg Unit := do
  let previousRecord ←
    loadExpectedRecord timelineKey clientRequestId "get_request_for_delete" expectedRevision
  match ← orInternal "Etcd request delete txn failed"
    (etcdTxn (deleteTxn timelineKey clientRequestId (isLegacyRevision expectedRevision)
      (withoutLegacyFlag expectedRevision) previousRecord)) with
  | some _ => return ()
  | none => .fail .casFailed

end

section

def requestRecordPruneMinFetchLimit : Nat := 128

def requestRecordPruneMaxFetchLimit : Nat := 4096

def requestRecordPruneFetchLimit (deleteLimit : Nat) : Nat :=
  min (max deleteLimit requestRecordPruneMinFetchLimit) requestRecordPruneMaxFetchLimit

def deleteUnlessChanged (txnContext key : String) (revision : Nat) : CleanupProg Bool := do
  match ← (deleteJsonRecord txnContext key revision).attempt with
  | .ok () => return true
  | .error .casFailed => return false
  | .error e => .fail e

def pruneTxn (requestKey : String) (requestRevision : Nat) (kv : RequestEntry) : RequestTxn where
  compares := [(requestKey, requestRevision), (kv.key, kv.modRevision)]
  writes := [⟨requestKey, none⟩, ⟨kv.key, none⟩]

variable (olderThanMs : Nat)

/-- The body of the loop over the entries of the index: whether a record was pruned. -/
def pruneIndexEntry (kv : RequestEntry) : CleanupProg Bool := do
  let indexEntry ← .ofExcept (decodeIndexEntry "Request cleanup index deserialization" kv)
  match ← loadRequestRecord indexEntry.timelineKey indexEntry.clientRequestId with
  | none => do
    let _ ← deleteUnlessChanged "Etcd request cleanup index delete txn failed" kv.key
      kv.modRevision
    return false
  | some (record, requestRevision) =>
    if isLegacyRevision requestRevision ∨ record.updatedAtMs ≠ indexEntry.updatedAtMs ∨
        ¬ requestRecordIsPrunable record olderThanMs then do
      let _ ← deleteUnlessChanged "Etcd stale request cleanup index delete txn failed" kv.key
        kv.modRevision
      return false
    else do
      let response ← orInternal "Etcd request prune txn failed"
        (etcdTxn (pruneTxn (requestKey indexEntry.timelineKey indexEntry.clientRequestId)
          requestRevision kv))
      return response.isSome

def pruneLegacyIndexEntry (kv : RequestEntry) : CleanupProg Bool := do
  let indexEntry ← .ofExcept (decodeIndexEntry "Legacy request cleanup index deserialization" kv)
  match ← getJsonRecord "get_legacy_request_for_prune" "Legacy request record deserialization"
    (legacyRequestKey indexEntry.timelineKey indexEntry.clientRequestId) with
  | none => do
    let _ ← deleteUnlessChanged "Etcd legacy request cleanup index delete failed" kv.key
      kv.modRevision
    return false
  | some (record, requestRevision) => do
    .ofExcept record.validateSchemaVersion
    if record.updatedAtMs ≠ indexEntry.updatedAtMs ∨
        ¬ requestRecordIsPrunable record olderThanMs then do
      let _ ← deleteUnlessChanged "Etcd stale legacy cleanup index delete failed" kv.key
        kv.modRevision
      return false
    else do
      let response ← orInternal "Etcd legacy request prune txn failed"
        (etcdTxn (pruneTxn (legacyRequestKey indexEntry.timelineKey indexEntry.clientRequestId)
          requestRevision kv))
      return response.isSome

/-- What a loop of `prune_completed_request_records` ends with: the number of pruned records, and
whether the function returns with it. -/
structure Pruned where
  count : Nat
  returned : Bool
  deriving DecidableEq

variable (limit : Nat)

def pruneIndexPage (pruneEntry : RequestEntry → CleanupProg Bool) :
    List RequestEntry → Nat → CleanupProg Pruned
  | [], pruned => return ⟨pruned, false⟩
  | kv :: rest, pruned =>
    if limit ≤ pruned then return ⟨pruned, true⟩
    else do
      let deleted ← pruneEntry kv
      pruneIndexPage pruneEntry rest (if deleted then pruned + 1 else pruned)

def pruneCandidate (context : String) (kv : RequestEntry) :
    Except TsoError (Option (String × Nat)) := do
  let record ← decodeRecord context kv
  record.validateSchemaVersion
  if requestRecordIsPrunable record olderThanMs then return some (kv.key, kv.modRevision)
  else return none

def pruneCandidates (context : String) : List RequestEntry → Except TsoError (List (String × Nat))
  | [] => return []
  | kv :: rest => do
    let candidate ← pruneCandidate olderThanMs context kv
    let candidates ← pruneCandidates context rest
    return candidate.toList ++ candidates

def pruneRecords (txnContext : String) : List (String × Nat) → Nat → CleanupProg Pruned
  | [], pruned => return ⟨pruned, false⟩
  | (key, revision) :: rest, pruned => do
    if ← deleteUnlessChanged txnContext key revision then
      if limit ≤ pruned + 1 then return ⟨pruned + 1, true⟩
      else pruneRecords txnContext rest (pruned + 1)
    else pruneRecords txnContext rest pruned

def pruneRecordPage (context txnContext : String) (kvs : List RequestEntry) (pruned : Nat) :
    CleanupProg Pruned := do
  let candidates ← .ofExcept (pruneCandidates olderThanMs context kvs)
  pruneRecords limit txnContext candidates pruned

def prunePages (scanContext stop : String) (fetchLimit : Nat)
    (prunePage : List RequestEntry → Nat → CleanupProg Pruned) :
    Nat → String → Nat → CleanupProg Pruned
  | 0, _, _ => .fail (.internal "")
  | pages + 1, start, pruned => do
    let kvs ← orInternal scanContext (etcdRange start stop fetchLimit)
    match kvs.getLast? with
    | none => return ⟨pruned, false⟩
    | some last => do
      let after ← prunePage kvs pruned
      if after.returned || stop ≤ nextEtcdKeyAfter last.key then return after
      else
        prunePages scanContext stop fetchLimit prunePage pages (nextEtcdKeyAfter last.key)
          after.count

variable (pages : Nat)

def pruneLegacyCompletedRequestRecords : CleanupProg Nat :=
  if limit = 0 then return 0
  else do
    let indexed ← prunePages "Etcd legacy request cleanup index scan failed"
      (legacyRequestCleanupIndexCutoff olderThanMs) (requestRecordPruneFetchLimit limit)
      (pruneIndexPage limit (pruneLegacyIndexEntry olderThanMs)) pages
      legacyRequestCleanupIndexPrefix 0
    if indexed.returned ∨ limit ≤ indexed.count then return indexed.count
    else do
      let scanned ← prunePages "Etcd legacy request scan failed"
        (prefixRangeEnd legacyRequestPrefix) (requestRecordPruneFetchLimit (limit - indexed.count))
        (pruneRecordPage olderThanMs limit "Legacy request record prune deserialization"
          "Etcd legacy request prune txn failed") pages legacyRequestPrefix indexed.count
      return scanned.count

def pruneCompletedRequestRecords : CleanupProg Nat :=
  if limit = 0 then return 0
  else do
    let indexed ← prunePages "Etcd request cleanup index scan failed"
      (requestCleanupIndexCutoff olderThanMs) (requestRecordPruneFetchLimit limit)
      (pruneIndexPage limit (pruneIndexEntry olderThanMs)) pages requestCleanupIndexPrefix 0
    if indexed.returned ∨ limit ≤ indexed.count then return indexed.count
    else do
      let scanned ← prunePages "Etcd prune_requests failed" (prefixRangeEnd requestPrefix)
        (requestRecordPruneFetchLimit (limit - indexed.count))
        (pruneRecordPage olderThanMs limit "Request record prune deserialization"
          "Etcd request prune txn failed") pages requestPrefix indexed.count
      if scanned.returned then return scanned.count
      else if scanned.count < limit then do
        let legacy ← pruneLegacyCompletedRequestRecords olderThanMs (limit - scanned.count) pages
        return scanned.count + legacy
      else return scanned.count

end

inductive RequestStoreCall where
  | load (timelineKey clientRequestId : String)
  | create (timelineKey clientRequestId : String) (record : RequestRecord)
  | exchange (timelineKey clientRequestId : String) (expectedRevision : Nat)
      (record : RequestRecord)
  | delete (timelineKey clientRequestId : String) (expectedRevision : Nat)
  | prune (olderThanMs limit pages : Nat)
  deriving DecidableEq

def RequestStoreCall.prog : RequestStoreCall → CleanupProg Unit
  | load timelineKey clientRequestId => do
    let _ ← loadRequestRecord timelineKey clientRequestId
    return ()
  | create timelineKey clientRequestId record => do
    let _ ← createRequestRecord timelineKey clientRequestId record
    return ()
  | exchange timelineKey clientRequestId expectedRevision record => do
    let _ ← compareExchangeRequestRecord timelineKey clientRequestId expectedRevision record
    return ()
  | delete timelineKey clientRequestId expectedRevision =>
    compareDeleteRequestRecord timelineKey clientRequestId expectedRevision
  | prune olderThanMs limit pages => do
    let _ ← pruneCompletedRequestRecords olderThanMs limit pages
    return ()

def cleanupMachine : Machine cleanupSig RequestStoreCall CleanupChoice Empty RequestTable where
  exec := cleanupExec
  env := nofun

def RequestStoreCall.Fits : RequestStoreCall → Prop
  | create _ _ record | exchange _ _ _ record => record.updatedAtMs < 2 ^ 64
  | prune olderThanMs _ _ => olderThanMs < 2 ^ 64
  | load .. | delete .. => True

instance : DecidablePred RequestStoreCall.Fits
  | .create _ _ record | .exchange _ _ _ record =>
    inferInstanceAs (Decidable (record.updatedAtMs < 2 ^ 64))
  | .prune olderThanMs _ _ => inferInstanceAs (Decidable (olderThanMs < 2 ^ 64))
  | .load .. | .delete .. => .isTrue trivial

def cleanupGuard : Guard cleanupSig RequestStoreCall CleanupChoice Empty RequestTable Unit where
  entry call _ := call.Fits

instance : cleanupGuard.Checked where
  entry call _ := inferInstanceAs (Decidable call.Fits)

abbrev CleanupState := Sys cleanupSig RequestStoreCall RequestTable TsoError Unit

abbrev CleanupRun (w : RequestTable) : CleanupState → Prop :=
  Reach cleanupMachine (fun call (_ : Unit) => call.prog) cleanupGuard ⟨w, []⟩

end Chronos.Pruning
