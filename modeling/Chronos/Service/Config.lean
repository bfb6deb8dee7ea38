import Chronos.Metadata.Records
import Chronos.Service.Validation
import Chronos.Timestamp

/-! The configuration of the workers of one cluster and the checks that depend on it alone. -/

namespace Chronos

def eqIgnoreAsciiCase (left right : List Char) : Bool :=
  left.map Char.toLower = right.map Char.toLower

/-- `parse` stands for `str::parse::<SocketAddr>`, with an address as a number. -/
def endpointsMatch (parse : List Char → Option Nat) (left right : String) : Bool :=
  let left := trim left
  let right := trim right
  if left = right || eqIgnoreAsciiCase left right then true
  else
    match parse left, parse right with
    | some left, some right => left = right
    | _, _ => false

lemma endpointsMatch_refl (parse : List Char → Option Nat) (s : String) :
    endpointsMatch parse s s = true := by
  simp [endpointsMatch]

lemma endpointsMatch_comm (parse : List Char → Option Nat) (left right : String) :
    endpointsMatch parse left right = endpointsMatch parse right left := by
  have hcase : eqIgnoreAsciiCase (trim left) (trim right) =
      eqIgnoreAsciiCase (trim right) (trim left) :=
    decide_eq_decide.mpr eq_comm
  have htrim : decide (trim left = trim right) = decide (trim right = trim left) :=
    decide_eq_decide.mpr eq_comm
  unfold endpointsMatch
  dsimp only
  rw [hcase, htrim]
  split
  · rfl
  · cases parse (trim left) <;> cases parse (trim right) <;> simp [eq_comm]

lemma endpointsMatch_lower {left right : String}
    (h : endpointsMatch (fun _ => none) left right = true) :
    (trim left).map Char.toLower = (trim right).map Char.toLower := by
  have hmatch : trim left = trim right ∨
      (trim left).map Char.toLower = (trim right).map Char.toLower := by
    simpa [endpointsMatch, eqIgnoreAsciiCase] using h
  rcases hmatch with heq | heq
  · rw [heq]
  · exact heq

/-- The fields of the configuration that the modelled functions read. `instanceId` is the
effective instance id chosen when the service is built. -/
structure TsoConfig where
  sharedGenerators : Nat
  warmGenerators : Nat
  maxBatchPerRequest : Nat
  maxFutureBorrowMs : Nat
  defaultResourceTier : ResourceTier
  generatorLeaseTtlMs : Nat
  generatorOwnershipModulo : Nat
  generatorOwnershipRemainder : Nat
  generatorOwnershipRemainders : List Nat
  instanceId : String
  advertiseEndpoint : String
  preBorrowMs : Nat
  maxClockRewindMs : Nat
  recoveryCatchupBudgetMs : Nat
  sharedJumpAheadThresholdMs : Nat
  safetyGapMs : Nat
  deriving DecidableEq

/-- A cluster: one valid timestamp layout, and a configuration for every worker process. -/
structure Cluster where
  layout : TimestampLayout
  layout_valid : layout.Valid
  worker : Nat → TsoConfig
  socketAddr : List Char → Option Nat
  hashKey : String → Nat

namespace TsoConfig

variable (config : TsoConfig)

def effectiveGeneratorOwnershipRemainders : List Nat :=
  if config.generatorOwnershipRemainders.isEmpty then [config.generatorOwnershipRemainder]
  else config.generatorOwnershipRemainders

def ownsGeneratorId (generatorId : Nat) : Bool :=
  config.effectiveGeneratorOwnershipRemainders.any
    (· = generatorId % config.generatorOwnershipModulo)

end TsoConfig

namespace Cluster

variable (C : Cluster) (p : Nat)

def isLocalEndpoint (endpoint : String) : Bool :=
  endpointsMatch C.socketAddr endpoint (C.worker p).advertiseEndpoint

def isLocalGeneratorOwner (record : GeneratorRecord) : Bool :=
  C.isLocalEndpoint p record.ownerWorkerEndpoint && record.ownerInstanceId = (C.worker p).instanceId

def ensureGeneratorIdRange (generatorId : Nat) : Except TsoError Unit :=
  if generatorId ≥ C.layout.maxGenerators then .error (.generatorIdOutOfRange generatorId)
  else .ok ()

def computeGeneratorUpperBound (generatorId baseMs : Nat) : Option Nat :=
  (C.layout.encode (U64.wrappingAdd baseMs (C.worker p).preBorrowMs) generatorId
    (C.layout.sequenceCapacity - 1)).toOption

def pickOwnedGeneratorByHash (timelineKey : String) (start width : Nat) : Except TsoError Nat :=
  if width = 0 then .error .generatorPoolExhausted
  else
    let owned := (List.range' start width).filter (C.worker p).ownsGeneratorId
    match owned[C.hashKey timelineKey % owned.length]? with
    | some generatorId => .ok generatorId
    | none => .error .generatorPoolExhausted

def validateBatchForRoute (count : Nat) (route : TimelineRoute) : Except TsoError Unit :=
  let max :=
    match route.resourceTier with
    | .shared => min (C.worker p).maxBatchPerRequest C.layout.sequenceCapacity
    | .warm | .dedicated => (C.worker p).maxBatchPerRequest
  if count > max then .error (.batchTooLarge count max) else .ok ()

def effectiveFutureBorrowMs (recoveryFloorTso : Option Nat) (nowMs : Nat) : Nat :=
  let base := (C.worker p).maxFutureBorrowMs
  match recoveryFloorTso with
  | none => base
  | some floor =>
    let recoveryMs := (C.layout.decode floor).physicalMs
    if recoveryMs ≤ nowMs then base
    else max base (min (recoveryMs - nowMs) (C.worker p).recoveryCatchupBudgetMs)

lemma ensureGeneratorIdRange_eq_ok {C : Cluster} {gid : Nat}
    (h : C.ensureGeneratorIdRange gid = .ok ()) : gid < C.layout.maxGenerators := by
  unfold ensureGeneratorIdRange at h
  split_ifs at h with hlt
  exact Nat.lt_of_not_le hlt

lemma isLocalGeneratorOwner_instanceId {C : Cluster} {p : Nat} {record : GeneratorRecord}
    (h : C.isLocalGeneratorOwner p record = true) :
    record.ownerInstanceId = (C.worker p).instanceId := by
  simp only [isLocalGeneratorOwner, Bool.and_eq_true, decide_eq_true_eq] at h
  exact h.2

end Cluster

end Chronos
