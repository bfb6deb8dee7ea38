import Chronos.Transition.Run
import Chronos.Types
import Mathlib.Data.List.AList
import Mathlib.Logic.Function.Basic

/-! The lanes of the timeline proxy. A request leases the serializer of its timeline, or makes one
if there is a slot left, allocates under the serializer's lock and gives the lease back; a
serializer that nobody leases any more is queued, and pruned when a slot is needed. -/

namespace Chronos

abbrev SerializerId := Nat

/-- Of a lock that is taken, the thread that has it. -/
structure TimelineSerializer where
  serialize : Option Nat
  activeReferences : Nat
  lifecycle : Option Nat
  deriving DecidableEq

structure TimelineScopedAllocator where
  timelineSerializers : AList fun _ : String => SerializerId
  idleSerializers : List String
  serializerSlots : Nat
  maxSerializers : Nat
  serializers : SerializerId → TimelineSerializer
  nextSerializer : SerializerId

namespace TimelineScopedAllocator

def new (maxSerializers : Nat) : TimelineScopedAllocator :=
  ⟨∅, [], 0, maxSerializers, fun _ => ⟨none, 0, none⟩, 0⟩

variable (a : TimelineScopedAllocator)

abbrev laneCount : Nat := a.timelineSerializers.keys.length

def references (serializer : SerializerId) : Nat := (a.serializers serializer).activeReferences

def setReferences (serializer : SerializerId) (references : Nat) : TimelineScopedAllocator :=
  { a with
    serializers := Function.update a.serializers serializer
      { a.serializers serializer with activeReferences := references } }

def setLifecycle (serializer : SerializerId) (holder : Option Nat) : TimelineScopedAllocator :=
  { a with
    serializers := Function.update a.serializers serializer
      { a.serializers serializer with lifecycle := holder } }

def setSerialize (serializer : SerializerId) (holder : Option Nat) : TimelineScopedAllocator :=
  { a with
    serializers := Function.update a.serializers serializer
      { a.serializers serializer with serialize := holder } }

def setSlots (slots : Nat) : TimelineScopedAllocator := { a with serializerSlots := slots }

def setIdle (queue : List String) : TimelineScopedAllocator := { a with idleSerializers := queue }

def insertSerializer (timelineKey : String) : TimelineScopedAllocator :=
  { a with
    timelineSerializers := a.timelineSerializers.insert timelineKey a.nextSerializer
    serializers := Function.update a.serializers a.nextSerializer ⟨none, 1, none⟩
    nextSerializer := a.nextSerializer + 1 }

def removeSerializer (timelineKey : String) : TimelineScopedAllocator :=
  { a with timelineSerializers := a.timelineSerializers.erase timelineKey }

def serializerStillCurrent (timelineKey : String) (serializer : SerializerId) : Bool :=
  a.timelineSerializers.lookup timelineKey = some serializer

end TimelineScopedAllocator

inductive LaneLeasePhase where
  | get
  | lock (serializer : SerializerId)
  | check (serializer : SerializerId)
  | add (serializer : SerializerId)
  | unlock (serializer : SerializerId) (leased : Bool)
  deriving DecidableEq

inductive PrunePhase where
  | count
  | pop (attempts : Nat)
  | get (attempts : Nat) (timelineKey : String)
  | load (attempts : Nat) (timelineKey : String) (serializer : SerializerId)
  | lock (attempts : Nat) (timelineKey : String) (serializer : SerializerId)
  | reload (attempts : Nat) (timelineKey : String) (serializer : SerializerId)
  | remove (attempts : Nat) (timelineKey : String) (serializer : SerializerId)
  | releaseSlot (serializer : SerializerId)
  /-- The lifecycle lock is let go; without attempts the lane has been removed. -/
  | unlock (serializer : SerializerId) (attempts : Option Nat)
  deriving DecidableEq

inductive LeaseSite where
  | first | saturated | pruned | occupied
  deriving DecidableEq

inductive RequestPhase where
  | leasing (site : LeaseSite) (phase : LaneLeasePhase)
  | loadSlots
  | compareExchange (current : Nat)
  | entry
  | releaseSlot
  | pruning (phase : PrunePhase)
  | reloadSlots
  | leased (serializer : SerializerId)
  | waiting (serializer : SerializerId)
  | allocating (serializer : SerializerId)
  | dropping (serializer : SerializerId)
  | pushing
  | finished
  | failed (error : TsoError)
  deriving DecidableEq

def LeaseSite.otherwise : LeaseSite → RequestPhase
  | .first | .occupied => .loadSlots
  | .saturated => .pruning .count
  | .pruned => .reloadSlots

inductive ProxyTask where
  | request (timelineKey : String) (phase : RequestPhase)
  | prune (phase : PrunePhase ⊕ Bool)
  deriving DecidableEq

namespace TimelineScopedAllocator

variable (a : TimelineScopedAllocator)

/-- The next operation of thread `i`, and what it returns if it is the last one. -/
def leaseExistingSerializerStep (i : Nat) (timelineKey : String) :
    LaneLeasePhase → Option (TimelineScopedAllocator × (LaneLeasePhase ⊕ Option SerializerId))
  | .get =>
    match a.timelineSerializers.lookup timelineKey with
    | none => some (a, .inr none)
    | some serializer => some (a, .inl (.lock serializer))
  | .lock serializer =>
    if (a.serializers serializer).lifecycle = none then
      some (a.setLifecycle serializer (some i), .inl (.check serializer))
    else none
  | .check serializer =>
    if a.serializerStillCurrent timelineKey serializer then some (a, .inl (.add serializer))
    else some (a, .inl (.unlock serializer false))
  | .add serializer =>
    some (a.setReferences serializer (a.references serializer + 1), .inl (.unlock serializer true))
  | .unlock serializer leased =>
    some (a.setLifecycle serializer none, .inr (if leased then some serializer else none))

/-- The next operation of thread `i`. The length of the map is the sum over its shards, read one
after the other: while others work on the map it can be any number `len`. -/
def pruneOneIdleSerializerStep (i len : Nat) :
    PrunePhase → Option (TimelineScopedAllocator × (PrunePhase ⊕ Bool))
  | .count => some (a, .inl (.pop (max len 1)))
  | .pop 0 => some (a, .inr false)
  | .pop (attempts + 1) =>
    match a.idleSerializers with
    | [] => some (a, .inr false)
    | timelineKey :: rest => some (a.setIdle rest, .inl (.get attempts timelineKey))
  | .get attempts timelineKey =>
    match a.timelineSerializers.lookup timelineKey with
    | none => some (a, .inl (.pop attempts))
    | some serializer => some (a, .inl (.load attempts timelineKey serializer))
  | .load attempts timelineKey serializer =>
    if a.references serializer ≠ 0 then some (a, .inl (.pop attempts))
    else some (a, .inl (.lock attempts timelineKey serializer))
  | .lock attempts timelineKey serializer =>
    if (a.serializers serializer).lifecycle = none then
      some (a.setLifecycle serializer (some i), .inl (.reload attempts timelineKey serializer))
    else none
  | .reload attempts timelineKey serializer =>
    if a.references serializer ≠ 0 then some (a, .inl (.unlock serializer (some attempts)))
    else some (a, .inl (.remove attempts timelineKey serializer))
  | .remove attempts timelineKey serializer =>
    if a.timelineSerializers.lookup timelineKey = some serializer then
      some (a.removeSerializer timelineKey, .inl (.releaseSlot serializer))
    else some (a, .inl (.unlock serializer (some attempts)))
  | .releaseSlot serializer =>
    some (a.setSlots (a.serializerSlots - 1), .inl (.unlock serializer none))
  | .unlock serializer attempts =>
    some (a.setLifecycle serializer none,
      match attempts with
      | some attempts => .inl (.pop attempts)
      | none => .inr true)

def advanceRequest (i len : Nat) (timelineKey : String) :
    RequestPhase → Option (TimelineScopedAllocator × RequestPhase)
  | .leasing site phase =>
    (a.leaseExistingSerializerStep i timelineKey phase).map fun next =>
      (next.1, match next.2 with
        | .inl phase => .leasing site phase
        | .inr (some serializer) => .leased serializer
        | .inr none => site.otherwise)
  | .loadSlots =>
    if a.maxSerializers ≤ a.serializerSlots then some (a, .leasing .saturated .get)
    else some (a, .compareExchange a.serializerSlots)
  | .compareExchange current =>
    if a.serializerSlots = current then some (a.setSlots (current + 1), .entry)
    else some (a, .loadSlots)
  | .entry =>
    match a.timelineSerializers.lookup timelineKey with
    | some _ => some (a, .releaseSlot)
    | none => some (a.insertSerializer timelineKey, .leased a.nextSerializer)
  | .releaseSlot => some (a.setSlots (a.serializerSlots - 1), .leasing .occupied .get)
  | .pruning phase =>
    (a.pruneOneIdleSerializerStep i len phase).map fun next =>
      (next.1, match next.2 with
        | .inl phase => .pruning phase
        | .inr _ => .leasing .pruned .get)
  | .reloadSlots =>
    if a.maxSerializers ≤ a.serializerSlots then
      some (a, .failed (.timelineIngressSaturated timelineKey a.maxSerializers))
    else some (a, .loadSlots)
  | .leased serializer =>
    -- `try_lock`
    if (a.serializers serializer).serialize = none then
      some (a.setSerialize serializer (some i), .allocating serializer)
    else some (a, .waiting serializer)
  | .waiting serializer =>
    if (a.serializers serializer).serialize = none then
      some (a.setSerialize serializer (some i), .allocating serializer)
    else none
  | .allocating serializer => some (a.setSerialize serializer none, .dropping serializer)
  | .dropping serializer =>
    some (a.setReferences serializer (a.references serializer - 1),
      if a.references serializer = 1 then .pushing else .finished)
  | .pushing => some (a.setIdle (a.idleSerializers ++ [timelineKey]), .finished)
  | .finished | .failed _ => none

def advance (i len : Nat) : ProxyTask → Option (TimelineScopedAllocator × ProxyTask)
  | .request timelineKey phase =>
    (a.advanceRequest i len timelineKey phase).map fun next =>
      (next.1, .request timelineKey next.2)
  | .prune (.inl phase) =>
    (a.pruneOneIdleSerializerStep i len phase).map fun next => (next.1, .prune next.2)
  | .prune (.inr _) => none

end TimelineScopedAllocator

/-- A request that waits for the lock can be cancelled. -/
def ProxyTask.abandon : ProxyTask → Option ProxyTask
  | .request timelineKey (.waiting serializer) => some (.request timelineKey (.dropping serializer))
  | _ => none

structure ProxyState where
  allocator : TimelineScopedAllocator
  tasks : List ProxyTask

inductive ProxyLabel where
  | request (timelineKey : String)
  | prune
  | advance (i len : Nat)
  | abandon (i : Nat)
  deriving DecidableEq

namespace ProxyState

def initial (maxSerializers : Nat) : ProxyState := ⟨.new maxSerializers, []⟩

variable (s : ProxyState)

def step : ProxyLabel → Option ProxyState
  | .request timelineKey =>
    some { s with tasks := s.tasks ++ [.request timelineKey (.leasing .first .get)] }
  | .prune => some { s with tasks := s.tasks ++ [.prune (.inl .count)] }
  | .advance i len =>
    s.tasks[i]?.bind fun task => (s.allocator.advance i len task).map fun next =>
      ⟨next.1, s.tasks.set i next.2⟩
  | .abandon i =>
    s.tasks[i]?.bind fun task => task.abandon.map fun next =>
      { s with tasks := s.tasks.set i next }

def Reachable (maxSerializers : Nat) : ProxyState → Prop :=
  Transition.Reach step (fun _ _ => True) (initial maxSerializers)

end ProxyState

end Chronos
