import Chronos.Service.System

/-! The status of a timeline as it is reported, and what its failover readiness says about the
checks that a failover makes. -/

namespace Chronos

open Interleaving

inductive TimelineFailoverReadiness where
  | notApplicable | eligible | waitingForLeaseExpiry | blockedMissingRecoveryFloor
  deriving DecidableEq

structure TimelineStatusSnapshot where
  route : TimelineRoute
  state : TimelineLifecycleState
  recoveryFloorTso : Option Nat
  issuedUpperBound : Option Nat
  lastGracefulIssued : Option Nat
  leaseExpireAtMs : Option Nat
  ownerInstanceId : Option String
  updatedAtMs : Nat
  failoverReadiness : TimelineFailoverReadiness
  deriving DecidableEq

def deriveFailoverReadiness (safetyGapMs nowMs : Nat)
    (recoveryFloorTso leaseExpireAtMs : Option Nat) : TimelineFailoverReadiness :=
  match leaseExpireAtMs with
  | none => .notApplicable
  | some leaseExpireAtMs =>
    let leaseExpired := leaseExpiredWithSafetyGap leaseExpireAtMs nowMs safetyGapMs
    match leaseExpired, recoveryFloorTso with
    | true, some _ => .eligible
    | true, none => .blockedMissingRecoveryFloor
    | false, some _ => .waitingForLeaseExpiry
    | false, none => .notApplicable

section

variable (C : Cluster) (p : Nat)

def matchedGeneratorRecord (timeline : TimelineRecord) (generator : Option GeneratorRecord) :
    Option GeneratorRecord :=
  generator.filter fun generator =>
    generator.generatorId = timeline.route.generatorId &&
      endpointsMatch C.socketAddr generator.ownerWorkerEndpoint timeline.route.ownerWorkerEndpoint

def buildTimelineStatusSnapshot (nowMs : Nat) (timeline : TimelineRecord)
    (generator : Option GeneratorRecord) : TimelineStatusSnapshot :=
  let matchedGenerator := matchedGeneratorRecord C timeline generator
  { route := timeline.route
    state := timeline.state
    recoveryFloorTso := timeline.recoveryFloorTso
    issuedUpperBound := timeline.issuedUpperBound
    lastGracefulIssued := timeline.lastGracefulIssued
    leaseExpireAtMs := matchedGenerator.bind GeneratorRecord.leaseExpireAtMs
    ownerInstanceId := matchedGenerator.bind fun generator =>
      if generator.ownerInstanceId.isEmpty then none else some generator.ownerInstanceId
    updatedAtMs := (matchedGenerator.map fun generator =>
      max timeline.updatedAtMs generator.updatedAtMs).getD timeline.updatedAtMs
    failoverReadiness := deriveFailoverReadiness (C.worker p).safetyGapMs nowMs
      timeline.recoveryFloorTso (matchedGenerator.bind GeneratorRecord.leaseExpireAtMs) }

def failoverReplies (nowMs : Nat) (generator : Option (GeneratorRecord × Nat)) :
    (o : Op) → Option o.Reply
  | .nowMs => some nowMs
  | .loadGenerator _ => some (.ok generator)
  | _ => none

def prepareFailover (nowMs : Nat) (timeline : TimelineRecord)
    (generator : Option (GeneratorRecord × Nat)) : Option (Except TsoError TransferPreparation) :=
  (prepareTransferApplication C p timeline.route.timelineKey timeline .failover).answer
    (failoverReplies nowMs generator)

end

def TsoError.isLeaseCheck : TsoError → Prop
  | .failoverLeaseExpiryUnknown _ | .failoverRequiresExpiredLease _ _ => True
  | _ => False

def TsoError.isFloorCheck : TsoError → Prop
  | .failoverMissingRecoveryFloor _ _ => True
  | _ => False

structure ReadinessAgrees (readiness : TimelineFailoverReadiness)
    (outcome : Option (Except TsoError TransferPreparation)) : Prop where
  eligible : readiness = .eligible ↔ ∃ preparation, outcome = some (.ok preparation)
  blocked : readiness = .blockedMissingRecoveryFloor ↔
    ∃ error, outcome = some (.error error) ∧ error.isFloorCheck
  waiting : readiness = .waitingForLeaseExpiry →
    ∃ error, outcome = some (.error error) ∧ error.isLeaseCheck

variable {C : Cluster} {p nowMs : Nat} {timeline : TimelineRecord}

lemma prepareFailover_some (generator : GeneratorRecord) (revision : Nat) :
    prepareFailover C p nowMs timeline (some (generator, revision)) =
      some ((checkFailover C p timeline.route.timelineKey timeline.route.generatorId nowMs
          (generatorRecoveryFloorTso generator) (some generator)).map
        fun _ => ⟨none, generatorRecoveryFloorTso generator, nowMs⟩) := by
  unfold prepareFailover prepareTransferApplication
  simp only [bind, Prog.bind, Prog.op, Prog.answer, failoverReplies, Option.bind_some,
    Option.map_some, if_true]
  cases checkFailover C p timeline.route.timelineKey timeline.route.generatorId nowMs
      (generatorRecoveryFloorTso generator) (some generator) with
  | error e => rfl
  | ok _ => rfl

lemma generatorRecoveryFloorTso_isSome (gen : GeneratorRecord) :
    (generatorRecoveryFloorTso gen).isSome ↔
      gen.lastIssuedTso.isSome ∨ gen.issuedUpperBound.isSome := by
  unfold generatorRecoveryFloorTso
  cases gen.lastIssuedTso <;> cases gen.issuedUpperBound <;> simp [Floor.mergeMax]

variable {gen : GeneratorRecord} {rev : Nat}

lemma snapshot_readiness (hid : gen.generatorId = timeline.route.generatorId)
    (hown : endpointsMatch C.socketAddr gen.ownerWorkerEndpoint
      timeline.route.ownerWorkerEndpoint) :
    (buildTimelineStatusSnapshot C p nowMs timeline (some gen)).failoverReadiness =
      deriveFailoverReadiness (C.worker p).safetyGapMs nowMs timeline.recoveryFloorTso
        gen.leaseExpireAtMs := by
  have hmatched : matchedGeneratorRecord C timeline (some gen) = some gen := by
    simp [matchedGeneratorRecord, Option.filter, hid, hown]
  simp [buildTimelineStatusSnapshot, hmatched]

lemma agrees_of_expired {exp : Nat} (hexp : gen.leaseExpireAtMs = some exp)
    (hexpired : leaseExpiredWithSafetyGap exp nowMs (C.worker p).safetyGapMs = true) :
    ReadinessAgrees (deriveFailoverReadiness
      (C.worker p).safetyGapMs nowMs timeline.recoveryFloorTso
          gen.leaseExpireAtMs)
        (prepareFailover C p nowMs timeline (some (gen, rev))) ↔
      (timeline.recoveryFloorTso.isSome ↔ gen.lastIssuedTso.isSome ∨
        gen.issuedUpperBound.isSome) := by
  rw [prepareFailover_some, hexp, ← generatorRecoveryFloorTso_isSome]
  cases hfloor : generatorRecoveryFloorTso gen with
  | none =>
    have hcheck : checkFailover C p timeline.route.timelineKey timeline.route.generatorId nowMs none
        (some gen) = .error (.failoverMissingRecoveryFloor timeline.route.timelineKey
          timeline.route.generatorId) := by
      simp [checkFailover, hexp, hexpired]
    rw [hcheck]
    cases timeline.recoveryFloorTso with
    | none =>
      refine iff_of_true ⟨?_, ?_, ?_⟩ (by simp)
      all_goals simp [deriveFailoverReadiness, hexpired, Except.map, TsoError.isFloorCheck]
    | some floor =>
      refine iff_of_false (fun h => ?_) (by simp)
      have hpasses := h.eligible.mp (by simp [deriveFailoverReadiness, hexpired])
      simp [Except.map] at hpasses
  | some issued =>
    have hcheck : checkFailover C p timeline.route.timelineKey timeline.route.generatorId nowMs
        (some issued) (some gen) = .ok () := by
      simp [checkFailover, hexp, hexpired]
    rw [hcheck]
    cases timeline.recoveryFloorTso with
    | none =>
      refine iff_of_false (fun h => ?_) (by simp)
      have hblocked := h.blocked.mp (by simp [deriveFailoverReadiness, hexpired])
      simp [Except.map] at hblocked
    | some floor =>
      refine iff_of_true ⟨?_, ?_, ?_⟩ (by simp)
      all_goals simp [deriveFailoverReadiness, hexpired, Except.map]

lemma agrees_of_not_expired (hlease : ∀ exp, gen.leaseExpireAtMs = some exp →
      leaseExpiredWithSafetyGap exp nowMs (C.worker p).safetyGapMs = false) :
    ReadinessAgrees (deriveFailoverReadiness
      (C.worker p).safetyGapMs nowMs timeline.recoveryFloorTso
        gen.leaseExpireAtMs)
      (prepareFailover C p nowMs timeline (some (gen, rev))) := by
  rw [prepareFailover_some]
  cases hexp : gen.leaseExpireAtMs with
  | none =>
    have hcheck : checkFailover C p timeline.route.timelineKey timeline.route.generatorId nowMs
        (generatorRecoveryFloorTso gen) (some gen) =
          .error (.failoverLeaseExpiryUnknown timeline.route.timelineKey) := by
      simp [checkFailover, hexp]
    rw [hcheck]
    refine ⟨?_, ?_, ?_⟩
    all_goals simp [deriveFailoverReadiness, Except.map, TsoError.isFloorCheck]
  | some exp =>
    have hexpired := hlease exp hexp
    have hcheck : checkFailover C p timeline.route.timelineKey timeline.route.generatorId nowMs
        (generatorRecoveryFloorTso gen) (some gen) =
          .error (.failoverRequiresExpiredLease timeline.route.timelineKey exp) := by
      simp [checkFailover, hexp, hexpired]
    rw [hcheck]
    refine ⟨?_, ?_, ?_⟩
    all_goals cases timeline.recoveryFloorTso <;>
        simp [deriveFailoverReadiness, hexpired, Except.map, TsoError.isFloorCheck,
          TsoError.isLeaseCheck]

/-- The reported readiness agrees with a failover exactly if there is a generator record and, once
its lease has expired, the timeline has a recovery floor just when the generator has issued. -/
theorem failover_readiness_agrees_iff (C : Cluster) (p nowMs : Nat) (timeline : TimelineRecord)
    (generator : Option (GeneratorRecord × Nat))
    (hmatch : ∀ record revision, generator = some (record, revision) →
      record.generatorId = timeline.route.generatorId ∧
        endpointsMatch C.socketAddr record.ownerWorkerEndpoint timeline.route.ownerWorkerEndpoint) :
    ReadinessAgrees
        (buildTimelineStatusSnapshot C p nowMs timeline (generator.map Prod.fst)).failoverReadiness
        (prepareFailover C p nowMs timeline generator) ↔
      ∃ record revision, generator = some (record, revision) ∧
        ∀ expire, record.leaseExpireAtMs = some expire →
          leaseExpiredWithSafetyGap expire nowMs (C.worker p).safetyGapMs →
            (timeline.recoveryFloorTso.isSome ↔
              record.lastIssuedTso.isSome ∨ record.issuedUpperBound.isSome) := by
  cases generator with
  | none =>
    -- without a record the failover gets to its floor check, and nothing is reported
    refine iff_of_false (fun h => ?_) (by simp)
    have hblocked := h.blocked.mpr ⟨_, rfl, trivial⟩
    cases hblocked
  | some found =>
    obtain ⟨record, revision⟩ := found
    obtain ⟨hid, hown⟩ := hmatch record revision rfl
    rw [Option.map_some, snapshot_readiness hid hown]
    constructor
    · intro h
      refine ⟨record, revision, rfl, fun expire hexp hexpired => ?_⟩
      exact (agrees_of_expired hexp hexpired).mp h
    rintro ⟨_, _, heq, hfloors⟩
    cases heq
    by_cases hlease : ∀ expire, record.leaseExpireAtMs = some expire →
        leaseExpiredWithSafetyGap expire nowMs (C.worker p).safetyGapMs = false
    · exact agrees_of_not_expired hlease
    push Not at hlease
    obtain ⟨expire, hexp, hexpired⟩ := hlease
    rw [ne_eq, Bool.not_eq_false] at hexpired
    exact (agrees_of_expired hexp hexpired).mpr (hfloors expire hexp hexpired)

def sampleRecords (recoveryFloorTso lastIssuedTso : Option Nat) :
    TimelineRecord × GeneratorRecord :=
  ({ schemaVersion := 1
     route := { timelineKey := "orders", generatorId := 1, epoch := 1, routeVersion := 1,
                resourceTier := .shared, ownerWorkerEndpoint := "http://a:1" }
     state := .active
     recoveryFloorTso := recoveryFloorTso
     issuedUpperBound := none
     lastGracefulIssued := none
     leaseExpireAtMs := none
     updatedAtMs := 0 },
   { schemaVersion := 1
     generatorId := 1
     ownerWorkerEndpoint := "http://a:1"
     ownerInstanceId := "a"
     generatorLeaseToken := 1
     leaseExpireAtMs := some 10
     lastIssuedTso := lastIssuedTso
     issuedUpperBound := none
     updatedAtMs := 0 })

theorem failover_readiness_agrees_sample : let records := sampleRecords (some 160) (some 160)
    ReadinessAgrees
      (buildTimelineStatusSnapshot sampleCluster 0 100000 records.1
        (some records.2)).failoverReadiness
      (prepareFailover sampleCluster 0 100000 records.1 (some (records.2, 1))) := by
  intro records
  refine (failover_readiness_agrees_iff sampleCluster 0 100000 records.1 (some (records.2, 1))
    fun record rev h => ?_).mpr ⟨records.2, 1, rfl, fun _ _ _ => ?_⟩
  · cases h
    exact ⟨rfl, endpointsMatch_refl _ _⟩
  · decide

/-- A timeline that was never transferred has no recovery floor. It is reported as blocked, although
its generator has issued and a failover passes. -/
theorem failover_readiness_disagrees : let records := sampleRecords none (some 160)
    (buildTimelineStatusSnapshot sampleCluster 0 100000 records.1
      (some records.2)).failoverReadiness =
        .blockedMissingRecoveryFloor ∧
      ∃ prep, prepareFailover sampleCluster 0 100000 records.1 (some (records.2, 1)) =
          some (.ok prep) := by
  refine ⟨by decide +kernel, ⟨none, some 160, 100000⟩, ?_⟩
  rfl

end Chronos
