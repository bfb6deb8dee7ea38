import Chronos.Service.Ops

/-! The timeline records the service writes: creation, activation, transfers and the shutdown
flush. -/

namespace Chronos

structure TransferTarget where
  ownerEndpoint : String
  generatorId : Nat
  resourceTier : ResourceTier
  deriving DecidableEq

def createdTimelineRecord (key endpoint : String) (generatorId : Nat) (tier : ResourceTier)
    (nowMs : Nat) : TimelineRecord where
  schemaVersion := 1
  route := ⟨key, generatorId, 1, 1, tier, endpoint⟩
  state := .active
  recoveryFloorTso := none
  issuedUpperBound := none
  lastGracefulIssued := none
  leaseExpireAtMs := none
  updatedAtMs := nowMs

def activatedRecord (record : TimelineRecord) (nowMs : Nat) : TimelineRecord :=
  { record with state := .active, updatedAtMs := nowMs }

/-- `last_graceful_issued` after `prepare_transfer_application`: a graceful transfer at the owner
replaces it by what the cached timeline has issued. -/
def preparedGraceful (reason : TransferReason) (record : TimelineRecord)
    (cachedLast : Option Nat) : Option Nat :=
  match reason with
  | .failover => record.lastGracefulIssued
  | _ => cachedLast.or record.lastGracefulIssued

def rerouted (record : TimelineRecord) (target : TransferTarget) (state : TimelineLifecycleState)
    (lastGraceful floor : Option Nat) (nowMs : Nat) : TimelineRecord :=
  { record with
    route :=
      { record.route with
        generatorId := target.generatorId
        resourceTier := target.resourceTier
        epoch := record.route.epoch + 1
        routeVersion := record.route.routeVersion + 1
        ownerWorkerEndpoint := target.ownerEndpoint }
    state := state
    recoveryFloorTso := floor
    issuedUpperBound := none
    lastGracefulIssued := lastGraceful
    leaseExpireAtMs := none
    updatedAtMs := nowMs }

def transferFloor (reason : TransferReason) (record : TimelineRecord)
    (cachedLast previousGeneratorFloor : Option Nat) : Option Nat :=
  safeFloorForTransferReason reason (preparedGraceful reason record cachedLast)
    previousGeneratorFloor

def transferredRecord (record : TimelineRecord) (reason : TransferReason)
    (cachedLast previousGeneratorFloor : Option Nat) (target : TransferTarget)
    (state : TimelineLifecycleState) (nowMs : Nat) : TimelineRecord :=
  rerouted record target state (preparedGraceful reason record cachedLast)
    (transferFloor reason record cachedLast previousGeneratorFloor) nowMs

/-- `last_graceful_issued` of a fenced local transfer, which is also the floor it hands over: the
cached floors and the prepared one. -/
def fencedFloor (lastGraceful : Option Nat) (state : TimelineState) : Option Nat :=
  let safeFloor := Floor.mergeMax (Floor.mergeMax state.lastIssuedTso state.recoveryFloorTso)
    lastGraceful
  match safeFloor with
  | some floor =>
    some (match lastGraceful with
      | some current => max current floor
      | none => floor)
  | none => lastGraceful

def fencedRecord (record : TimelineRecord) (reason : TransferReason) (cachedLast : Option Nat)
    (timeline : TimelineState) (target : TransferTarget) (nowMs : Nat) : TimelineRecord :=
  let floor := fencedFloor (preparedGraceful reason record cachedLast) timeline
  rerouted record target .active floor floor nowMs

def flushedTimelineRecord (record : TimelineRecord) (localLast nowMs : Nat) : TimelineRecord :=
  let lastGraceful := Floor.mergeMax record.lastGracefulIssued (some localLast)
  { record with
    lastGracefulIssued := lastGraceful
    recoveryFloorTso := Floor.mergeMax record.recoveryFloorTso lastGraceful
    updatedAtMs := nowMs }

variable {reason : TransferReason} {record : TimelineRecord} {cachedLast floor : Option Nat}

lemma le_transferFloor : Floor.Le floor (transferFloor reason record cachedLast floor) := by
  cases reason with
  | failover => exact Floor.Le.refl
  | _ => exact Floor.le_mergeMax_right

lemma graceful_le_transferFloor (h : reason ≠ .failover) :
    Floor.Le (cachedLast.or record.lastGracefulIssued)
      (transferFloor reason record cachedLast floor) := by
  cases reason with
  | failover => exact absurd rfl h
  | _ => exact Floor.le_mergeMax_left

lemma fencedFloor_eq (lastGraceful : Option Nat) (state : TimelineState) :
    fencedFloor lastGraceful state =
      Floor.mergeMax (Floor.mergeMax state.lastIssuedTso state.recoveryFloorTso) lastGraceful := by
  simp only [fencedFloor]
  cases h : Floor.mergeMax (Floor.mergeMax state.lastIssuedTso state.recoveryFloorTso)
    lastGraceful with
  | none =>
    cases lastGraceful with
    | none => rfl
    | some x => obtain ⟨y, hy, -⟩ := h ▸ Floor.le_mergeMax_right x rfl; cases hy
  | some floor =>
    cases lastGraceful with
    | none => rfl
    | some x =>
      obtain ⟨y, hy, hxy⟩ := h ▸ Floor.le_mergeMax_right x rfl
      cases hy
      simp only [max_eq_right hxy]

end Chronos
