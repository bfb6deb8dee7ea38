import Mathlib.Order.Basic

/-! The public types of the service: routes, requests, responses and errors. -/

namespace Chronos

def currentMetadataSchemaVersion : Nat := 1

inductive ResourceTier where
  | shared | warm | dedicated
  deriving DecidableEq

inductive TimelineLifecycleState where
  | creating | active | draining | locked | recovering
  deriving DecidableEq

inductive TransferReason where
  | rebalance | hotspot | failover | manual
  deriving DecidableEq

structure TimelineRoute where
  timelineKey : String
  generatorId : Nat
  epoch : Nat
  routeVersion : Nat
  resourceTier : ResourceTier
  ownerWorkerEndpoint : String
  deriving DecidableEq

structure TimestampRange where
  startTso : Nat
  endTso : Nat
  deriving DecidableEq

structure AllocateTimestampsRequest where
  timelineKey : String
  count : Nat
  expectedEpoch : Nat
  expectedRouteVersion : Nat
  clientRequestId : String
  deriving DecidableEq

structure AllocateTimestampsResponse where
  timelineKey : String
  generatorId : Nat
  epoch : Nat
  routeVersion : Nat
  ranges : List TimestampRange
  deriving DecidableEq

structure DecodedTso where
  physicalMs : Nat
  logical : Nat
  generatorId : Nat
  sequence : Nat
  deriving DecidableEq

inductive TsoError where
  | timelineNotFound (timelineKey : String)
  | routeVersionMismatch (expected actual : Nat)
  | epochMismatch (expected actual : Nat)
  | invalidCount
  | invalidTimelineKey (reason : String)
  | invalidClientRequestId (reason : String)
  | timelineLimitReached (max : Nat)
  | batchTooLarge (requested max : Nat)
  | futureBorrowExceeded (requestedPhysicalMs allowedPhysicalMs : Nat)
  | issuedUpperBoundExceeded (requestedEndTso issuedUpperBound : Nat)
  | generatorPoolExhausted
  | sharedGeneratorJumpAheadTooLarge (generatorId requiredJumpMs thresholdMs : Nat)
  | recoveryCatchupBudgetExceeded (generatorId requiredJumpMs budgetMs : Nat)
  | generatorIdOutOfRange (generatorId : Nat)
  | tsoOverflow
  | clockBackwards (deltaMs : Nat)
  | leaseExpired (timelineKey : String)
  | failoverRequiresExpiredLease (timelineKey : String) (leaseExpireAtMs : Nat)
  | failoverLeaseExpiryUnknown (timelineKey : String)
  | failoverMissingRecoveryFloor (timelineKey : String) (generatorId : Nat)
  | generatorLeaseExpired (generatorId : Nat)
  | timelineNotReady (timelineKey : String) (state : TimelineLifecycleState)
  | timelineIngressSaturated (timelineKey : String) (maxLanes : Nat)
  | timelineRuntimeCacheSaturated (timelineKey : String) (maxEntries : Nat)
  | allocationContention (generatorId : Nat)
  | notTimelineOwner (ownerWorkerEndpoint : String)
  | notGeneratorOwner (generatorId : Nat) (ownerWorkerEndpoint : String)
  | generatorNotOwnedByThisWorker (generatorId modulo remainder : Nat)
  | generatorOwnershipMisconfigured (modulo remainder : Nat)
  | instanceIdentityInUse (instanceId : String)
  | targetGeneratorIdRequired (timelineKey : String)
  | invalidResourceTier (value : Int)
  | invalidTargetOwnerEndpoint
  | invalidTransferReason (value : Int)
  | unsafeRemoteTransferTarget (generatorId : Nat) (targetOwnerEndpoint : String)
  | internal (message : String)
  | metadataAlreadyExists
  | casFailed
  | clientRequestConflict (timelineKey clientRequestId : String)
  | clientRequestInProgress (timelineKey clientRequestId : String)
  | serviceShuttingDown
  | requestCancelled
  deriving DecidableEq

lemma except_bind_eq_ok {ε α β : Type} {x : Except ε α} {f : α → Except ε β} {b : β}
    (h : x >>= f = .ok b) : ∃ a, x = .ok a ∧ f a = .ok b := by
  cases x with
  | error e => cases h
  | ok a => exact ⟨a, rfl, h⟩

end Chronos
