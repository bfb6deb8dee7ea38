import Chronos.KeyValue.Store
import Chronos.Service.Validation
import Mathlib.Data.Nat.Bitwise

/-! Request records: what the service remembers of an allocation with a client request id, the two
keys a record may live under, and the transactions that write one. -/

namespace Chronos

open KeyValue

inductive RequestRecordState where
  | pending | completed
  deriving DecidableEq

structure AllocationRequestFingerprint where
  timelineKey : String
  count : Nat
  deriving DecidableEq

structure AllocationResponseRecord where
  timelineKey : String
  generatorId : Nat
  epoch : Nat
  routeVersion : Nat
  ranges : List TimestampRange
  deriving DecidableEq

structure RequestRecord where
  schemaVersion : Nat
  fingerprint : AllocationRequestFingerprint
  state : RequestRecordState
  response : Option AllocationResponseRecord
  updatedAtMs : Nat
  deriving DecidableEq

namespace RequestRecord

variable (record : RequestRecord)

def validateSchemaVersion : Except TsoError Unit :=
  if record.schemaVersion = currentMetadataSchemaVersion then .ok ()
  else .error (.internal
    ("unsupported request metadata schema_version " ++ toString record.schemaVersion))

def stampedForPersistence : RequestRecord :=
  { record with schemaVersion := currentMetadataSchemaVersion }

def completedResponse (timelineKey : String) :
    Except TsoError (Option AllocateTimestampsResponse) :=
  match record.state, record.response with
  | .pending, _ => .ok none
  | .completed, some response =>
    if response.timelineKey ≠ "" && response.timelineKey ≠ timelineKey then
      .error (.internal ("request response timeline mismatch: stored=" ++ response.timelineKey ++
        " requested=" ++ timelineKey))
    else
      .ok (some ⟨timelineKey, response.generatorId, response.epoch, response.routeVersion,
        response.ranges⟩)
  | .completed, none =>
    .error (.internal
      ("completed request record missing response for timeline " ++ timelineKey))

end RequestRecord

section

variable (request : AllocateTimestampsRequest)

def idempotencyEnabled : Bool := !(trim request.clientRequestId).isEmpty

def allocationRequestFingerprint : AllocationRequestFingerprint :=
  ⟨request.timelineKey, request.count⟩

def pendingRequestRecord (fingerprint : AllocationRequestFingerprint) (updatedAtMs : Nat) :
    RequestRecord where
  schemaVersion := 1
  fingerprint := fingerprint
  state := .pending
  response := none
  updatedAtMs := updatedAtMs

def completedRequestRecord (fingerprint : AllocationRequestFingerprint)
    (response : AllocateTimestampsResponse) (updatedAtMs : Nat) : RequestRecord where
  schemaVersion := 1
  fingerprint := fingerprint
  state := .completed
  response := some ⟨response.timelineKey, response.generatorId, response.epoch,
    response.routeVersion, response.ranges⟩
  updatedAtMs := updatedAtMs

def pendingRecordIsStale (pendingTimeoutMs : Nat) (record : RequestRecord) (nowMs : Nat) : Bool :=
  record.state = .pending && nowMs - record.updatedAtMs ≥ pendingTimeoutMs

/-- A fingerprint without a timeline key was written before keys were part of it. -/
def validateIdempotentRecordFingerprint (record : RequestRecord) : Except TsoError Unit :=
  if record.fingerprint.count = request.count && (record.fingerprint.timelineKey = "" ||
      record.fingerprint.timelineKey = request.timelineKey) then .ok ()
  else .error (.clientRequestConflict request.timelineKey request.clientRequestId)

end

/-- Where a record is kept: under `requests_v2`, or under the key that older versions used. -/
structure RequestKey where
  timelineKey : String
  clientRequestId : String
  legacy : Bool
  deriving DecidableEq

def requestKey (timelineKey clientRequestId : String) : RequestKey :=
  ⟨timelineKey, clientRequestId, false⟩

def legacyRequestKey (timelineKey clientRequestId : String) : RequestKey :=
  ⟨timelineKey, clientRequestId, true⟩

def legacyRequestKeyIsUnambiguous (timelineKey clientRequestId : String) : Bool :=
  !timelineKey.toList.contains '/' && !clientRequestId.toList.contains '/'

def legacyRequestRevisionFlag : Nat := 2 ^ 63

def isLegacyRevision (revision : Nat) : Bool := revision &&& legacyRequestRevisionFlag ≠ 0

/-- `revision & !LEGACY_REQUEST_REVISION_FLAG` on 64 bits. -/
def withoutLegacyFlag (revision : Nat) : Nat :=
  revision &&& (2 ^ 64 - 1 - legacyRequestRevisionFlag)

section

variable (timelineKey clientRequestId : String)

def createRequestTxn (record : RequestRecord) : Txn RequestKey RequestRecord where
  compares := (requestKey timelineKey clientRequestId, 0) ::
    if legacyRequestKeyIsUnambiguous timelineKey clientRequestId then
      [(legacyRequestKey timelineKey clientRequestId, 0)]
    else []
  writes := [⟨requestKey timelineKey clientRequestId, some record⟩]

/-- A legacy record moves to its new key when it is replaced. -/
def exchangeRequestTxn (legacy : Bool) (revision : Nat) (record : RequestRecord) :
    Txn RequestKey RequestRecord where
  compares := (⟨timelineKey, clientRequestId, legacy⟩, revision) ::
    if legacy then [(requestKey timelineKey clientRequestId, 0)] else []
  writes := ⟨requestKey timelineKey clientRequestId, some record⟩ ::
    if legacy then [⟨legacyRequestKey timelineKey clientRequestId, none⟩] else []

def deleteRequestTxn (legacy : Bool) (revision : Nat) : Txn RequestKey RequestRecord where
  compares := [(⟨timelineKey, clientRequestId, legacy⟩, revision)]
  writes := [⟨⟨timelineKey, clientRequestId, legacy⟩, none⟩]

end

section

variable {record : RequestRecord} {request : AllocateTimestampsRequest}
  {response : AllocateTimestampsResponse} {timelineKey : String} {rev : Nat}

lemma RequestRecord.state_of_completedResponse
    (h : record.completedResponse timelineKey = .ok (some response)) :
    record.state = .completed := by
  unfold completedResponse at h
  split at h
  · cases h
  · assumption
  · assumption

lemma RequestRecord.state_of_not_completedResponse
    (h : record.completedResponse timelineKey = .ok none) : record.state = .pending := by
  unfold completedResponse at h
  split at h
  · assumption
  · split at h <;> cases h
  · cases h

lemma count_of_validateIdempotentRecordFingerprint
    (h : validateIdempotentRecordFingerprint request record = .ok ()) :
    record.fingerprint.count = request.count := by
  unfold validateIdempotentRecordFingerprint at h
  split at h
  · next hmatch =>
    simp only [Bool.and_eq_true, decide_eq_true_eq] at hmatch
    exact hmatch.1
  · cases h

lemma withoutLegacyFlag_eq : withoutLegacyFlag rev = rev % 2 ^ 63 :=
  Nat.and_two_pow_sub_one_eq_mod rev 63

lemma withoutLegacyFlag_of_lt (h : rev < 2 ^ 63) : withoutLegacyFlag rev = rev := by
  rw [withoutLegacyFlag_eq, Nat.mod_eq_of_lt h]

lemma isLegacyRevision_eq : isLegacyRevision rev = rev.testBit 63 := by
  rw [isLegacyRevision, legacyRequestRevisionFlag, Nat.and_two_pow]
  cases rev.testBit 63 <;> simp

lemma isLegacyRevision_of_lt (h : rev < 2 ^ 63) : isLegacyRevision rev = false := by
  rw [isLegacyRevision_eq]
  exact Nat.testBit_lt_two_pow h

lemma isLegacyRevision_flag : isLegacyRevision (rev ||| legacyRequestRevisionFlag) = true := by
  rw [isLegacyRevision_eq, Nat.testBit_or, legacyRequestRevisionFlag, Nat.testBit_two_pow_self,
    Bool.or_true]

lemma withoutLegacyFlag_flag (h : rev < 2 ^ 63) :
    withoutLegacyFlag (rev ||| legacyRequestRevisionFlag) = rev := by
  rw [withoutLegacyFlag_eq, legacyRequestRevisionFlag, Nat.or_mod_two_pow, Nat.mod_self,
    Nat.or_zero, Nat.mod_eq_of_lt h]

end

end Chronos
