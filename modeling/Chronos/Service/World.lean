import Chronos.Interleaving.Discipline
import Chronos.Runtime.Generator
import Chronos.Service.Renewal
import Mathlib.Logic.Function.Basic

/-! The shared world of a cluster. Metadata records are lists of committed versions, newest first,
so that the store is also its own history; every worker process has its own cursors, leases,
timeline cache and clock. -/

namespace Chronos

inductive GeneratorWrite where
  | create
  | takeover
  | refresh (reason : GeneratorLeaseRefreshReason)
  | floorFlush
  deriving DecidableEq

structure GeneratorVersion where
  revision : Nat
  record : GeneratorRecord
  writer : Nat
  write : GeneratorWrite
  deriving DecidableEq

/-- The cached state of a timeline; its quota fields are left to the outcome of the quota charge. -/
structure TimelineState where
  route : TimelineRoute
  state : TimelineLifecycleState
  lastIssuedTso : Option Nat
  recoveryFloorTso : Option Nat
  lastGracefulIssued : Option Nat
  revision : Nat
  deriving DecidableEq

def buildTimelineState (record : TimelineRecord) (revision : Nat)
    (recoveredLastIssuedTso : Option Nat) : TimelineState where
  route := record.route
  state := record.state
  lastIssuedTso := recoveredLastIssuedTso
  recoveryFloorTso := recoveredLastIssuedTso
  lastGracefulIssued := record.lastGracefulIssued
  revision := revision

/-- The code path that wrote a version of a timeline record, with what the path read besides the
record it replaced. -/
inductive TimelineWrite where
  | create
  | activate
  | transfer (reason : TransferReason) (cachedLast previousGeneratorFloor : Option Nat)
  | fencedTransfer (reason : TransferReason) (cachedLast : Option Nat) (state : TimelineState)
  | floorFlush (localLast : Nat)
  deriving DecidableEq

structure TimelineVersion where
  revision : Nat
  record : TimelineRecord
  write : TimelineWrite
  deriving DecidableEq

/-- What the service knew when it ran a served allocation: the request, the route its guard had
checked, the cached state under the allocating lock, and how much had been issued and which
epoch was committed when the request came in. -/
structure Serving where
  request : AllocateTimestampsRequest
  checkedRoute : TimelineRoute
  state : TimelineState
  seen : Nat
  invokedEpoch : Nat
  deriving DecidableEq

/-- A committed run of `allocate_after`; `serving` is absent when it was not run for a request. -/
structure Allocation where
  process : Nat
  generatorId : Nat
  args : Generator.AllocateArgs
  startIndex : Nat
  newIndex : Nat
  serving : Option Serving
  deriving DecidableEq

structure GeneratorRuntime where
  nextIndex : Nat := 0
  readyLeaseToken : Nat := 0
  lease : Option GeneratorLeaseState := none
  dedicatedClaim : Option String := none
  flight : Bool := false
  deriving DecidableEq

structure TimelineHandle where
  state : TimelineState
  locked : Bool := false
  deriving DecidableEq

/-- What a process found under a timeline lock, and the route its guard had checked before if the
lock is taken to allocate. -/
structure HandleLock where
  process : Nat
  key : String
  checked : Option TimelineRoute
  state : TimelineState
  deriving DecidableEq

structure World where
  revision : Nat
  generators : Nat → List GeneratorVersion
  timelines : String → List TimelineVersion
  runtime : Nat → Nat → GeneratorRuntime
  /-- Handles ever made by a process for a key; the cache holds the position of one of them. -/
  handles : Nat → String → List TimelineHandle
  cache : Nat → String → Option Nat
  clock : Nat → Nat
  readings : Nat → List Nat
  issued : List Allocation
  /-- Outcomes of the last bound read of `ensure_generator_lease_for_allocation`. -/
  finalReads : List (Nat × Nat × Option Nat)
  /-- Every acquisition of a timeline lock whose state is used beyond it. -/
  locks : List HandleLock

def World.initial (clock : Nat → Nat) : World where
  revision := 0
  generators := fun _ => []
  timelines := fun _ => []
  runtime := fun _ _ => {}
  handles := fun _ _ => []
  cache := fun _ _ => none
  clock := clock
  readings := fun _ => []
  issued := []
  finalReads := []
  locks := []

inductive Effect where
  | none
  | readClock (now : Nat)
  | commitGenerators (versions : List (Nat × GeneratorVersion))
  | commitTimeline (key : String) (version : TimelineVersion)
  | setLease (generatorId : Nat) (lease : Option GeneratorLeaseState)
  | setReady (generatorId token : Nat)
  | advance (generatorId index : Nat)
  | issue (allocation : Allocation)
  | setFlight (generatorId : Nat) (held : Bool)
  | setClaim (generatorId : Nat) (claim : Option String)
  | clearClaims
  | newHandle (key : String) (state : TimelineState) (cached : Bool)
  | uncache (key : String)
  | uncacheAll
  | setHandle (key : String) (handle : Nat) (state : TimelineState)
  | lock (key : String) (handle : Nat) (checked : Option TimelineRoute) (state : TimelineState)
  | unlock (key : String) (handle : Nat)
  | finalRead (generatorId nowMs : Nat) (bound : Option Nat)
  | clearLeases
  deriving DecidableEq

namespace World

def setRuntime (w : World) (p g : Nat) (r : GeneratorRuntime) : World :=
  { w with runtime := Function.update w.runtime p (Function.update (w.runtime p) g r) }

def setHandles (w : World) (p : Nat) (key : String) (hs : List TimelineHandle) : World :=
  { w with handles := Function.update w.handles p (Function.update (w.handles p) key hs) }

def setCache (w : World) (p : Nat) (key : String) (h : Option Nat) : World :=
  { w with cache := Function.update w.cache p (Function.update (w.cache p) key h) }

def apply (p : Nat) (w : World) : Effect → World
  | .none => w
  | .readClock now =>
    { w with readings := Function.update w.readings p (now :: w.readings p) }
  | .commitGenerators vs =>
    { w with
      revision := w.revision + 1
      generators := fun g =>
        match vs.find? (fun v => v.1 = g) with
        | some v => v.2 :: w.generators g
        | none => w.generators g }
  | .commitTimeline key v =>
    { w with
      revision := w.revision + 1
      timelines := Function.update w.timelines key (v :: w.timelines key) }
  | .setLease g lease => w.setRuntime p g { w.runtime p g with lease }
  | .setReady g token => w.setRuntime p g { w.runtime p g with readyLeaseToken := token }
  | .advance g index =>
    w.setRuntime p g { w.runtime p g with nextIndex := max (w.runtime p g).nextIndex index }
  | .issue a =>
    { w.setRuntime p a.generatorId
        { w.runtime p a.generatorId with nextIndex := a.newIndex } with
      issued := w.issued ++ [a] }
  | .setFlight g held => w.setRuntime p g { w.runtime p g with flight := held }
  | .setClaim g claim => w.setRuntime p g { w.runtime p g with dedicatedClaim := claim }
  | .clearClaims =>
    { w with
      runtime := Function.update w.runtime p fun g =>
        { w.runtime p g with dedicatedClaim := none } }
  | .newHandle key state cached =>
    let w' := w.setHandles p key (w.handles p key ++ [{ state }])
    if cached then w'.setCache p key (some (w.handles p key).length) else w'
  | .uncache key => w.setCache p key none
  | .uncacheAll => { w with cache := Function.update w.cache p (fun _ => none) }
  | .setHandle key h state =>
    w.setHandles p key ((w.handles p key).modify h (fun x => { x with state }))
  | .lock key h checked state =>
    { w.setHandles p key ((w.handles p key).modify h (fun x => { x with locked := true })) with
      locks := ⟨p, key, checked, state⟩ :: w.locks }
  | .unlock key h =>
    w.setHandles p key ((w.handles p key).modify h (fun x => { x with locked := false }))
  | .finalRead g _ bound => { w with finalReads := (p, g, bound) :: w.finalReads }
  | .clearLeases =>
    { w with
      runtime := Function.update w.runtime p fun g =>
        { w.runtime p g with lease := none, readyLeaseToken := 0 } }

end World

end Chronos
