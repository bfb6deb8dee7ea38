import Chronos.Types
import Chronos.Floor
import Chronos.U64

/-! Metadata records, and the pure rules that read floors off them and decide transfers. -/

namespace Chronos

structure GeneratorRecord where
  schemaVersion : Nat
  generatorId : Nat
  ownerWorkerEndpoint : String
  ownerInstanceId : String
  generatorLeaseToken : Nat
  leaseExpireAtMs : Option Nat
  lastIssuedTso : Option Nat
  issuedUpperBound : Option Nat
  updatedAtMs : Nat
  deriving DecidableEq

structure TimelineRecord where
  schemaVersion : Nat
  route : TimelineRoute
  state : TimelineLifecycleState
  recoveryFloorTso : Option Nat
  issuedUpperBound : Option Nat
  lastGracefulIssued : Option Nat
  leaseExpireAtMs : Option Nat
  updatedAtMs : Nat
  deriving DecidableEq

def sampleTimeline (key : String) (state : TimelineLifecycleState) : TimelineRecord where
  schemaVersion := currentMetadataSchemaVersion
  route := { timelineKey := key, generatorId := 1, epoch := 1, routeVersion := 1,
             resourceTier := .shared, ownerWorkerEndpoint := "http://127.0.0.1:7001" }
  state := state
  recoveryFloorTso := none
  issuedUpperBound := none
  lastGracefulIssued := none
  leaseExpireAtMs := none
  updatedAtMs := 0

def generatorRecoveryFloorTso (record : GeneratorRecord) : Option Nat :=
  Floor.mergeMax record.lastIssuedTso record.issuedUpperBound

def recoveredTimelineFloorTso (record : TimelineRecord) : Option Nat :=
  Floor.mergeMax record.lastGracefulIssued record.recoveryFloorTso

def safeFloorForTransferReason (reason : TransferReason)
    (lastGracefulIssued previousGeneratorFloorTso : Option Nat) : Option Nat :=
  match reason with
  | .failover => previousGeneratorFloorTso
  | _ => Floor.mergeMax lastGracefulIssued previousGeneratorFloorTso

def leaseExpiredWithSafetyGap (leaseExpireAtMs nowMs safetyGapMs : Nat) : Bool :=
  U64.saturatingAdd leaseExpireAtMs safetyGapMs ≤ nowMs

def resourceTierForGeneratorId (generatorId sharedGenerators warmGenerators maxGenerators : Nat) :
    Except TsoError ResourceTier :=
  if generatorId ≥ maxGenerators then .error (.generatorIdOutOfRange generatorId)
  else if generatorId < sharedGenerators then .ok .shared
  else if generatorId < sharedGenerators + warmGenerators then .ok .warm
  else .ok .dedicated

def shouldReleaseClaimedDedicatedGenerator (claimed : Bool) (previousTier : ResourceTier)
    (previousGeneratorId claimedGeneratorId : Nat) : Bool :=
  claimed && (previousTier ≠ .dedicated || previousGeneratorId ≠ claimedGeneratorId)

def shouldReleasePreviousDedicatedGeneratorAfterRouteChange (previousTier : ResourceTier)
    (previousGeneratorId : Nat) (targetTier : ResourceTier) (newGeneratorId : Nat) : Bool :=
  previousTier = .dedicated && (targetTier ≠ .dedicated || previousGeneratorId ≠ newGeneratorId)

inductive TimelineServingReadiness where
  | serving | requiresActivation | notReady
  deriving DecidableEq

def servingReadiness : TimelineLifecycleState → TimelineServingReadiness
  | .active => .serving
  | .recovering => .requiresActivation
  | .creating | .draining | .locked => .notReady

def timelineIsReady (state : TimelineLifecycleState) : Bool :=
  servingReadiness state = .serving

end Chronos
