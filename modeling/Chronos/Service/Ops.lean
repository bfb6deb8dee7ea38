import Chronos.Service.World

/-! The atomic operations of a worker process: store requests, accesses to its concurrent maps and
atomics, and lock acquisitions. -/

namespace Chronos

open Interleaving

structure GeneratorBatchOp where
  generatorId : Nat
  previousRevision : Nat
  record : GeneratorRecord
  deriving DecidableEq

inductive Op where
  | nowMs
  | isCancelled
  | shutdownGate
  | retryBudgetLeft
  | invoke (key : String)
  | loadGenerator (generatorId : Nat)
  | createGenerator (generatorId : Nat) (record : GeneratorRecord)
  | compareExchangeGenerator (write : GeneratorWrite) (generatorId revision : Nat)
      (record : GeneratorRecord)
  | compareExchangeGenerators (operations : List GeneratorBatchOp)
  | leaseState (generatorId : Nat)
  | upsertLease (generatorId : Nat) (lease : GeneratorLeaseState)
  | dropLease (generatorId : Nat)
  | markReadyForLease (generatorId token : Nat)
  | clearReadyLease (generatorId : Nat)
  | clearLeases
  | leaseValidForOwner (generatorId nowMs : Nat)
  | validLeaseUpperBoundForOwner (generatorId nowMs : Nat) (final : Bool)
  | loadNextIndex (generatorId : Nat)
  | fetchMaxNextIndex (generatorId index : Nat)
  | compareExchangeNextIndex (oldIndex : Nat) (allocation : Allocation)
  | acquireFlight (generatorId : Nat)
  | releaseFlight (generatorId : Nat)
  | claimedGeneratorForTimeline (key : String)
  | claimDedicated (generatorId : Nat) (key : String)
  | releaseDedicated (generatorId : Nat) (key : String)
  | clearDedicatedClaims
  | loadTimeline (key : String)
  | loadTimelineShared (key : String)
  | createTimeline (key : String) (record : TimelineRecord)
  | compareExchangeTimeline (write : TimelineWrite) (key : String) (revision : Nat)
      (record : TimelineRecord)
  | timelineHandle (key : String)
  | timelineHandleOrInsert (key : String) (record : TimelineRecord) (revision : Nat)
  | insertTimeline (key : String) (record : TimelineRecord) (revision : Nat) (floor : Option Nat)
  | removeTimeline (key : String)
  | clearTimelines
  | readHandle (key : String) (handle : Nat)
  | syncHandle (key : String) (handle : Nat) (record : TimelineRecord) (revision : Nat)
  | lockHandle (key : String) (handle : Nat) (checked : Option TimelineRoute)
  | unlockHandle (key : String) (handle : Nat)
  | storeHandle (key : String) (handle : Nat) (state : TimelineState)
  | acquireGeneratorAdmission (generatorId : Nat)
  | chargeTimelineQuota

@[reducible] def Op.Reply : Op → Type
  | .nowMs | .loadNextIndex _ | .timelineHandleOrInsert .. => Nat
  | .isCancelled | .shutdownGate | .retryBudgetLeft | .leaseValidForOwner ..
  | .compareExchangeNextIndex .. => Bool
  | .invoke _ => Nat × Nat
  | .loadGenerator _ => Except TsoError (Option (GeneratorRecord × Nat))
  | .createGenerator .. | .compareExchangeGenerator .. | .createTimeline ..
  | .compareExchangeTimeline .. => Except TsoError Nat
  | .compareExchangeGenerators _ => Except TsoError (List Nat)
  | .leaseState _ => Option GeneratorLeaseState
  | .validLeaseUpperBoundForOwner .. | .claimedGeneratorForTimeline _ | .timelineHandle _ =>
    Option Nat
  | .loadTimeline _ | .loadTimelineShared _ => Except TsoError (Option (TimelineRecord × Nat))
  | .claimDedicated .. => Except TsoError Bool
  | .readHandle .. | .lockHandle .. => TimelineState
  | .acquireGeneratorAdmission _ | .chargeTimelineQuota => Except TsoError Unit
  | .upsertLease .. | .dropLease _ | .markReadyForLease .. | .clearReadyLease _ | .clearLeases
  | .fetchMaxNextIndex .. | .acquireFlight _ | .releaseFlight _ | .releaseDedicated ..
  | .clearDedicatedClaims | .insertTimeline .. | .removeTimeline _ | .clearTimelines
  | .syncHandle .. | .unlockHandle .. | .storeHandle .. => Unit

abbrev sig : Signature := ⟨Op, Op.Reply⟩

/-- What becomes of a store request: it is done and answered, done with its answer lost, or not
done at all. -/
inductive StoreOutcome where
  | done
  | lost (error : TsoError)
  | down (error : TsoError)
  deriving DecidableEq

inductive Choice where
  | go
  | store (outcome : StoreOutcome)
  | flag (value : Bool)
  | error (error : TsoError)
  | version (index : Nat)
  | generator (generatorId : Nat)
  deriving DecidableEq

def storeWrite {α : Type} (holds : Bool) (conflict : TsoError) (answer : α) (effect : Effect) :
    StoreOutcome → Except TsoError α × Effect
  | .done => if holds then (.ok answer, effect) else (.error conflict, .none)
  | .lost e => if holds then (.error e, effect) else (.error e, .none)
  | .down e => (.error e, .none)

def storeRead {α : Type} (answer : α) : StoreOutcome → Except TsoError α
  | .done => .ok answer
  | .lost e | .down e => .error e

namespace World

variable (w : World)

def generatorRecord (g : Nat) : Option (GeneratorRecord × Nat) :=
  (w.generators g).head?.map fun v => (v.record, v.revision)

def timelineRecord (key : String) : Option (TimelineRecord × Nat) :=
  (w.timelines key).head?.map fun v => (v.record, v.revision)

def generatorRevisionIs (g revision : Nat) : Bool :=
  (w.generators g).head?.any fun v => v.revision = revision

def timelineRevisionIs (key : String) (revision : Nat) : Bool :=
  (w.timelines key).head?.any fun v => v.revision = revision

def committedEpoch (key : String) : Nat :=
  ((w.timelines key).head?.map fun v => v.record.route.epoch).getD 0

def validLease (C : Cluster) (p g nowMs : Nat) : Option GeneratorLeaseState :=
  (w.runtime p g).lease.filter fun lease =>
    lease.leaseExpireAtMs > nowMs && lease.ownerInstanceId = (C.worker p).instanceId &&
      lease.generatorLeaseToken ≠ 0 &&
      (w.runtime p g).readyLeaseToken = lease.generatorLeaseToken

def leaseValidForOwner (C : Cluster) (p g nowMs : Nat) : Bool :=
  (w.validLease C p g nowMs).isSome

def validLeaseUpperBoundForOwner (C : Cluster) (p g nowMs : Nat) : Option Nat :=
  (w.validLease C p g nowMs).bind (·.issuedUpperBound)

def unlockedState (p : Nat) (key : String) (h : Nat) : Option TimelineState :=
  match (w.handles p key)[h]? with
  | some hd => if hd.locked then none else some hd.state
  | none => none

end World

def TimelineState.syncWith (state : TimelineState) (record : TimelineRecord) (revision : Nat) :
    TimelineState where
  route := record.route
  state := record.state
  lastIssuedTso := Floor.mergeMax state.lastIssuedTso (recoveredTimelineFloorTso record)
  recoveryFloorTso := Floor.mergeMax state.recoveryFloorTso (recoveredTimelineFloorTso record)
  lastGracefulIssued := record.lastGracefulIssued
  revision := revision

def TimelineState.reroute (state : TimelineState) (record : TimelineRecord) (floor : Option Nat)
    (revision : Nat) : TimelineState where
  route := record.route
  state := record.state
  lastIssuedTso := Floor.mergeMax state.lastIssuedTso floor
  recoveryFloorTso := Floor.mergeMax state.recoveryFloorTso floor
  lastGracefulIssued := record.lastGracefulIssued
  revision := revision

def act (C : Cluster) (p : Nat) (w : World) : (o : Op) → Choice → Option (o.Reply × Effect)
  | .nowMs, .go => some (w.clock p, .readClock (w.clock p))
  | .isCancelled, .flag b => some (b, .none)
  | .shutdownGate, .flag b => some (b, .none)
  | .retryBudgetLeft, .flag b => some (b, .none)
  | .invoke key, .go => some ((w.issued.length, w.committedEpoch key), .none)
  | .loadGenerator g, .store out => some (storeRead (w.generatorRecord g) out, .none)
  | .createGenerator g record, .store out =>
    some (storeWrite (w.generators g).isEmpty .metadataAlreadyExists (w.revision + 1)
      (.commitGenerators [(g, ⟨w.revision + 1, record, p, .create⟩)]) out)
  | .compareExchangeGenerator write g revision record, .store out =>
    some (storeWrite (w.generatorRevisionIs g revision) .casFailed (w.revision + 1)
      (.commitGenerators [(g, ⟨w.revision + 1, record, p, write⟩)]) out)
  | .compareExchangeGenerators ops, .store out =>
    some (storeWrite
      ((ops.map (·.generatorId)).Nodup ∧
        ∀ o ∈ ops, w.generatorRevisionIs o.generatorId o.previousRevision)
      .casFailed (ops.map fun _ => w.revision + 1)
      (.commitGenerators (ops.map fun o =>
        (o.generatorId, ⟨w.revision + 1, o.record, p, .refresh .maintenance⟩))) out)
  | .leaseState g, .go => some ((w.runtime p g).lease, .none)
  | .upsertLease g lease, .go => some ((), .setLease g (some lease))
  | .dropLease g, .go => some ((), .setLease g none)
  | .markReadyForLease g token, .go => some ((), .setReady g token)
  | .clearReadyLease g, .go => some ((), .setReady g 0)
  | .clearLeases, .go => some ((), .clearLeases)
  | .leaseValidForOwner g now, .go => some (w.leaseValidForOwner C p g now, .none)
  | .validLeaseUpperBoundForOwner g now final, .go =>
    let bound := w.validLeaseUpperBoundForOwner C p g now
    some (bound, if final then .finalRead g now bound else .none)
  | .loadNextIndex g, .go => some ((w.runtime p g).nextIndex, .none)
  | .fetchMaxNextIndex g index, .go => some ((), .advance g index)
  | .compareExchangeNextIndex old a, .go =>
    if (w.runtime p a.generatorId).nextIndex = old then some (true, .issue a)
    else some (false, .none)
  | .acquireFlight g, .go =>
    if (w.runtime p g).flight then none else some ((), .setFlight g true)
  | .releaseFlight g, .go => some ((), .setFlight g false)
  | .claimedGeneratorForTimeline key, .generator g =>
    if (w.runtime p g).dedicatedClaim = some key then some (some g, .none) else none
  | .claimedGeneratorForTimeline key, .go =>
    if ∀ g ∈ List.range C.layout.maxGenerators, (w.runtime p g).dedicatedClaim ≠ some key then
      some (none, .none)
    else none
  | .claimDedicated g key, .go =>
    match (w.runtime p g).dedicatedClaim with
    | some owner =>
      some (if owner ≠ key then .error .generatorPoolExhausted else .ok false, .none)
    | none => some (.ok true, .setClaim g (some key))
  | .releaseDedicated g key, .go =>
    some ((), if (w.runtime p g).dedicatedClaim = some key then .setClaim g none else .none)
  | .clearDedicatedClaims, .go => some ((), .clearClaims)
  | .loadTimeline key, .store out => some (storeRead (w.timelineRecord key) out, .none)
  | .loadTimelineShared key, .version i =>
    -- a waiter may be handed what an earlier caller's request found
    some (.ok ((w.timelines key)[i]?.map fun v => (v.record, v.revision)), .none)
  | .loadTimelineShared _, .error e => some (.error e, .none)
  | .createTimeline key record, .store out =>
    some (storeWrite (w.timelines key).isEmpty .metadataAlreadyExists (w.revision + 1)
      (.commitTimeline key ⟨w.revision + 1, record, .create⟩) out)
  | .compareExchangeTimeline write key revision record, .store out =>
    some (storeWrite (w.timelineRevisionIs key revision) .casFailed (w.revision + 1)
      (.commitTimeline key ⟨w.revision + 1, record, write⟩) out)
  | .timelineHandle key, .go => some (w.cache p key, .none)
  | .timelineHandleOrInsert key record revision, .flag room =>
    -- without room the new handle is used but not cached
    match w.cache p key with
    | some h => some (h, .none)
    | none => some ((w.handles p key).length, .newHandle key
        (buildTimelineState record revision (recoveredTimelineFloorTso record)) room)
  | .insertTimeline key record revision floor, .flag room =>
    some ((), if room then .newHandle key (buildTimelineState record revision floor) true
      else .none)
  | .removeTimeline key, .go => some ((), .uncache key)
  | .clearTimelines, .go => some ((), .uncacheAll)
  | .readHandle key h, .go => (w.unlockedState p key h).map fun st => (st, .none)
  | .syncHandle key h record revision, .go =>
    (w.unlockedState p key h).map fun st => ((), .setHandle key h (st.syncWith record revision))
  | .lockHandle key h checked, .go =>
    (w.unlockedState p key h).map fun st => (st, .lock key h checked st)
  | .unlockHandle key h, .go => some ((), .unlock key h)
  | .storeHandle key h state, .go =>
    -- the holder of the lock writes what it has made of the state it found
    some ((), .setHandle key h state)
  | .acquireGeneratorAdmission _, .go => some (.ok (), .none)
  | .acquireGeneratorAdmission _, .error e => some (.error e, .none)
  | .chargeTimelineQuota, .go => some (.ok (), .none)
  | .chargeTimelineQuota, .error e => some (.error e, .none)
  | _, _ => none

/-- The choice under which an operation goes as it usually does: requests are answered, nobody
cancels, and there is room in the cache. -/
def Op.usual : Op → Choice
  | .isCancelled | .shutdownGate => .flag false
  | .retryBudgetLeft | .timelineHandleOrInsert .. | .insertTimeline .. => .flag true
  | .loadGenerator _ | .createGenerator .. | .compareExchangeGenerator ..
  | .compareExchangeGenerators _ | .loadTimeline _ | .createTimeline ..
  | .compareExchangeTimeline .. => .store .done
  | .loadTimelineShared _ => .version 0
  | _ => .go

/-- What happens around the workers: clocks move, idle cache entries are evicted, and a task that
is dropped lets go of the flight or the lock it holds. -/
inductive Event where
  | tick (p now : Nat)
  | evict (p : Nat) (key : String)
  | dropFlight (p generatorId : Nat)
  | dropLock (p : Nat) (key : String) (handle : Nat)
  deriving DecidableEq

def environment (w : World) : Event → Option World
  | .tick p now =>
    if now < U64.size then some { w with clock := Function.update w.clock p now } else none
  | .evict p key => some (w.apply p (.uncache key))
  | .dropFlight p g => some (w.apply p (.setFlight g false))
  | .dropLock p key h => some (w.apply p (.unlock key h))

def machine (C : Cluster) : Machine sig Nat Choice Event World where
  exec p o c w := (act C p w o c).map fun x => (x.1, w.apply p x.2)
  env e w := environment w e

end Chronos
