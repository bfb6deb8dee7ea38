import Chronos.Idempotency.Store
import Chronos.Interleaving.Discipline

/-! The protocol that makes allocations with a client request id idempotent. -/

namespace Chronos

open Interleaving KeyValue

/-- Store requests, and the steps of an attempt that do not touch request records. -/
inductive RequestOp where
  | nowMs
  | get (key : RequestKey)
  | txn (txn : Txn RequestKey RequestRecord)
  | retryAllowed
  | allocate (request : AllocateTimestampsRequest)

@[reducible] def RequestOp.Reply : RequestOp → Type
  | .nowMs => Nat
  | .get _ => Except String (Option (RequestRecord × Nat))
  | .txn _ => Except String (Option Nat)
  | .retryAllowed => Bool
  | .allocate _ => Except TsoError AllocateTimestampsResponse

abbrev requestSig : Signature := ⟨RequestOp, RequestOp.Reply⟩

/-- What a clock shows, what becomes of a store request, and how an allocation ends. -/
inductive RequestChoice where
  | time (nowMs : Nat)
  | done
  | lost (message : String)
  | down (message : String)
  | flag (value : Bool)
  | allocated (response : AllocateTimestampsResponse)
  | refused (error : TsoError)
  deriving DecidableEq

/-- Revisions are signed 64-bit numbers. A transaction may take effect although its answer is
lost, and an allocation answers for the timeline it was made for. -/
def requestExec (_ : Nat) :
    (o : RequestOp) → RequestChoice → RequestStore → Option (o.Reply × RequestStore)
  | .nowMs, .time now, s => some (now, s)
  | .get key, .done, s => some (.ok (s.get key), s)
  | .get _, .down message, s => some (.error message, s)
  | .txn t, .done, s =>
    if s.admits t then
      if s.revision + 1 < 2 ^ 63 then some (.ok (some (s.revision + 1)), s.commit t) else none
    else some (.ok none, s)
  | .txn t, .lost message, s =>
    if s.admits t && s.revision + 1 < 2 ^ 63 then some (.error message, s.commit t)
    else some (.error message, s)
  | .txn _, .down message, s => some (.error message, s)
  | .retryAllowed, .flag value, s => some (value, s)
  | .allocate request, .allocated response, s =>
    if response.timelineKey = request.timelineKey then some (.ok response, s) else none
  | .allocate _, .refused error, s => some (.error error, s)
  | _, _, _ => none

def requestMachine : Machine requestSig Nat RequestChoice Empty RequestStore where
  exec := requestExec
  env := nofun

abbrev RequestProg := Prog requestSig TsoError

abbrev requestCall (o : RequestOp) : RequestProg o.Reply := @Prog.op requestSig TsoError o

def etcdRequestMaxAttempts : Nat := 4

section

def getJsonRecord (opLabel : String) (key : RequestKey) :
    RequestProg (Option (RequestRecord × Nat)) := do
  match ← requestCall (.get key) with
  | .ok found => return found
  | .error message => .fail (.internal ("Etcd " ++ opLabel ++ " failed: " ++ message))

/-- The revision of a transaction that was made, or `none` if its comparisons failed. -/
def etcdTxn (txnContext : String) (t : Txn RequestKey RequestRecord) :
    RequestProg (Option Nat) := do
  match ← (requestCall (.txn t)).retry (requestCall .retryAllowed)
    (etcdRequestMaxAttempts - 1) with
  | .ok revision => return revision
  | .error message => .fail (.internal (txnContext ++ ": " ++ message))

variable (timelineKey clientRequestId : String)

def requestNotFound : TsoError :=
  .timelineNotFound ("request:" ++ timelineKey ++ ":" ++ clientRequestId)

def loadRequestRecord : RequestProg (Option (RequestRecord × Nat)) := do
  match ← getJsonRecord "get_request" (requestKey timelineKey clientRequestId) with
  | some (record, revision) => do
    .ofExcept record.validateSchemaVersion
    return some (record, revision)
  | none =>
    if legacyRequestKeyIsUnambiguous timelineKey clientRequestId then do
      match ← getJsonRecord "get_legacy_request"
        (legacyRequestKey timelineKey clientRequestId) with
      | some (record, revision) => do
        .ofExcept record.validateSchemaVersion
        return some (record, revision ||| legacyRequestRevisionFlag)
      | none => return none
    else return none

def createRequestRecord (record : RequestRecord) : RequestProg Nat := do
  .ofExcept record.validateSchemaVersion
  match ← etcdTxn "Etcd request create txn failed"
    (createRequestTxn timelineKey clientRequestId record.stampedForPersistence) with
  | some revision => return revision
  | none => .fail .metadataAlreadyExists

def loadExpectedRecord (opLabel : String) (expectedRevision : Nat) : RequestProg Unit := do
  match ← getJsonRecord opLabel
    ⟨timelineKey, clientRequestId, isLegacyRevision expectedRevision⟩ with
  | none => .fail (requestNotFound timelineKey clientRequestId)
  | some (previousRecord, previousRevision) =>
    if previousRevision ≠ withoutLegacyFlag expectedRevision then .fail .casFailed
    else .ofExcept previousRecord.validateSchemaVersion

def compareExchangeRequestRecord (expectedRevision : Nat) (record : RequestRecord) :
    RequestProg Nat := do
  .ofExcept record.validateSchemaVersion
  loadExpectedRecord timelineKey clientRequestId "get_request_for_cas" expectedRevision
  match ← etcdTxn "Etcd request CAS txn failed"
    (exchangeRequestTxn timelineKey clientRequestId (isLegacyRevision expectedRevision)
      (withoutLegacyFlag expectedRevision) record.stampedForPersistence) with
  | some revision => return revision
  | none => .fail .casFailed

def compareDeleteRequestRecord (expectedRevision : Nat) : RequestProg Unit := do
  loadExpectedRecord timelineKey clientRequestId "get_request_for_delete" expectedRevision
  match ← etcdTxn "Etcd request delete txn failed"
    (deleteRequestTxn timelineKey clientRequestId (isLegacyRevision expectedRevision)
      (withoutLegacyFlag expectedRevision)) with
  | some _ => return ()
  | none => .fail .casFailed

end

structure PendingIdempotentAllocation where
  revision : Nat
  fingerprint : AllocationRequestFingerprint
  deriving DecidableEq

inductive IdempotentAllocationPreparation where
  | disabled
  | replay (response : AllocateTimestampsResponse)
  | pending (allocation : PendingIdempotentAllocation)
  deriving DecidableEq

structure RequestConfig where
  maxBatchPerRequest : Nat
  requestRecordPendingTimeoutMs : Nat
  deriving DecidableEq

section

variable (config : RequestConfig) (request : AllocateTimestampsRequest)

def clientRequestInProgress : TsoError :=
  .clientRequestInProgress request.timelineKey request.clientRequestId

/-- What `prepare_idempotent_allocation` does about a record that is in its way: `none` sends it
back to the start of its loop. -/
def resolveExistingRequest (nowMs : Nat) :
    RequestProg (Option IdempotentAllocationPreparation) := do
  match ← loadRequestRecord request.timelineKey request.clientRequestId with
  | none => return none
  | some (record, revision) => do
    .ofExcept (validateIdempotentRecordFingerprint request record)
    match record.completedResponse request.timelineKey with
    | .error e => .fail e
    | .ok (some response) => return some (.replay response)
    | .ok none =>
      if pendingRecordIsStale config.requestRecordPendingTimeoutMs record nowMs then do
        match ← (compareDeleteRequestRecord request.timelineKey request.clientRequestId
          revision).attempt with
        | .ok () | .error .casFailed | .error (.timelineNotFound _) => return none
        | .error e => .fail e
      else .fail (clientRequestInProgress request)

def prepareLoop : Nat → RequestProg IdempotentAllocationPreparation
  | 0 => .fail .requestCancelled
  | fuel + 1 => do
    let now ← requestCall .nowMs
    match ← (createRequestRecord request.timelineKey request.clientRequestId
      (pendingRequestRecord (allocationRequestFingerprint request) now)).attempt with
    | .ok revision => return .pending ⟨revision, allocationRequestFingerprint request⟩
    | .error .metadataAlreadyExists => do
      match ← resolveExistingRequest config request now with
      | some preparation => return preparation
      | none => prepareLoop fuel
    | .error e => .fail e

def prepareIdempotentAllocation (fuel : Nat) : RequestProg IdempotentAllocationPreparation :=
  if !idempotencyEnabled request then return .disabled else prepareLoop config request fuel

def recoverIdempotentCompletionAfterCasFailure (completedRecord : RequestRecord)
    (response : AllocateTimestampsResponse) : RequestProg AllocateTimestampsResponse := do
  match ← loadRequestRecord request.timelineKey request.clientRequestId with
  | some (record, revision) => do
    .ofExcept (validateIdempotentRecordFingerprint request record)
    match record.completedResponse request.timelineKey with
    | .error e => .fail e
    | .ok (some existingResponse) => return existingResponse
    | .ok none => do
      match ← (compareExchangeRequestRecord request.timelineKey request.clientRequestId revision
        completedRecord).attempt with
      | .ok _ => return response
      | .error .casFailed => .fail (clientRequestInProgress request)
      | .error e => .fail e
  | none => do
    match ← (createRequestRecord request.timelineKey request.clientRequestId
      completedRecord).attempt with
    | .ok _ => return response
    | .error .metadataAlreadyExists => .fail (clientRequestInProgress request)
    | .error e => .fail e

def finishIdempotentAllocation (preparation : IdempotentAllocationPreparation)
    (allocationResult : Except TsoError AllocateTimestampsResponse) :
    RequestProg AllocateTimestampsResponse :=
  match preparation, allocationResult with
  | .disabled, result | .replay _, result => .ofExcept result
  | .pending pending, .error e => do
    -- whether the pending record could be removed does not matter to the caller
    let _ ← (compareDeleteRequestRecord request.timelineKey request.clientRequestId
      pending.revision).attempt
    .fail e
  | .pending pending, .ok response => do
    let now ← requestCall .nowMs
    let completedRecord := completedRequestRecord pending.fingerprint response now
    match ← (compareExchangeRequestRecord request.timelineKey request.clientRequestId
      pending.revision completedRecord).attempt with
    | .ok _ => return response
    | .error .casFailed | .error (.timelineNotFound _) =>
      recoverIdempotentCompletionAfterCasFailure request completedRecord response
    | .error e => .fail e

def allocateTimestampsWithCancellation (fuel : Nat) : RequestProg AllocateTimestampsResponse :=
  match validateTimelineKey request.timelineKey,
    validateClientRequestId request.clientRequestId with
  | .error e, _ | .ok (), .error e => .fail e
  | .ok (), .ok () =>
    if request.count = 0 then .fail .invalidCount
    else if request.count > config.maxBatchPerRequest then
      .fail (.batchTooLarge request.count config.maxBatchPerRequest)
    else do
      match ← prepareIdempotentAllocation config request fuel with
      | .replay response => return response
      | preparation => do
        let result ← requestCall (.allocate request)
        finishIdempotentAllocation request preparation result

end

structure Attempt where
  request : AllocateTimestampsRequest
  fuel : Nat
  deriving DecidableEq

def attemptCode (configs : Nat → RequestConfig) (p : Nat) (attempt : Attempt) :
    RequestProg (AllocateTimestampsRequest × AllocateTimestampsResponse) := do
  let response ← allocateTimestampsWithCancellation (configs p) attempt.request attempt.fuel
  return (attempt.request, response)

abbrev RequestState :=
  Sys requestSig Nat RequestStore TsoError (AllocateTimestampsRequest × AllocateTimestampsResponse)

abbrev RequestRun (configs : Nat → RequestConfig) : RequestState → RequestState → Prop :=
  Reach requestMachine (attemptCode configs) .free

def RequestOp.usual : RequestOp → RequestChoice
  | .nowMs => .time 10
  | .get _ | .txn _ => .done
  | .retryAllowed => .flag false
  | .allocate request => .allocated ⟨request.timelineKey, 0, 1, 1, [⟨160, 160⟩]⟩

lemma RequestRun.of_script (configs : Nat → RequestConfig) (r0 : RequestState)
    (commands : List (Command Nat Attempt RequestChoice Empty)) (P : RequestState → Bool)
    (h : (script requestMachine (attemptCode configs) .free RequestOp.usual commands r0).any P =
      true) : ∃ r, RequestRun configs r0 r ∧ P r = true :=
  Reach.exists_of_script h

end Chronos
