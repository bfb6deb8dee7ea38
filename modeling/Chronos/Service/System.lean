import Chronos.Service.AllocationSafety
import Chronos.Service.TransferSafety

/-! The cluster as one system: the calls that start a task in a worker, the runs they lead to, and
the invariant rule that every property of runs is proved with. -/

namespace Chronos

open Interleaving Discipline

/-- What starts a task in a worker: requests, the maintenance loop, the route watch, the shutdown
sequence, and an allocation under a bound read earlier. -/
inductive Entry where
  | ensureTimeline (timelineKey : String) (tier : ResourceTier) (fuel : Nat)
  | allocate (request : AllocateTimestampsRequest) (cancellable : Bool) (fuel : Nat)
  | transferForRpc (timelineKey targetOwnerEndpoint : String) (targetGeneratorId : Option Nat)
      (reason : TransferReason) (fuel : Nat)
  | transfer (timelineKey : String) (tier : ResourceTier) (targetOwnerEndpoint : String)
      (targetGeneratorId : Option Nat) (fuel : Nat)
  | renewTimelineLease (timelineKey : String) (fuel : Nat)
  | ensureGeneratorLease (generatorId fuel : Nat)
  | refreshGeneratorLease (generatorId fuel : Nat)
  | refreshGeneratorLeasesBatch (generatorIds : List Nat) (leaseFuel fuel : Nat)
  | routeUpdate (route : TimelineRoute)
  | routeReset
  | persistTimelineFloor (timelineKey : String)
  | persistGeneratorFloor (generatorId : Nat)
  | invalidateRuntime
  | allocateWithCapturedBound (generatorId : Nat) (args : Generator.AllocateArgs)
  deriving DecidableEq

abbrev Outcome := Option (AllocateTimestampsRequest × AllocateTimestampsResponse)

def quiet {α : Type} (prog : Service α) : Service Outcome := do
  let _ ← prog
  return none

def code (C : Cluster) (p : Nat) : Entry → Service Outcome
  | .ensureTimeline key tier fuel => quiet (ensureTimelineWithTier C p key tier fuel)
  | .allocate request cancellable fuel => do
    let response ← allocateTimestamps C p request cancellable fuel
    return some (request, response)
  | .transferForRpc key endpoint target reason fuel =>
    quiet (transferTimelineForRpc C p key endpoint target reason fuel)
  | .transfer key tier endpoint target fuel =>
    quiet (transferTimeline C p key tier endpoint target fuel)
  | .renewTimelineLease key fuel => quiet (renewTimelineLease C p key fuel)
  | .ensureGeneratorLease g fuel => quiet (ensureGeneratorLease C p g fuel)
  | .refreshGeneratorLease g fuel => quiet (refreshGeneratorLeaseInner C p g .maintenance fuel)
  | .refreshGeneratorLeasesBatch ids leaseFuel fuel =>
    quiet (refreshGeneratorLeasesBatch C p ids leaseFuel fuel)
  | .routeUpdate route => quiet (invalidateTimelineCacheForRouteUpdate C route)
  | .routeReset => quiet resetTimelineCache
  | .persistTimelineFloor key => quiet (bestEffortPersistLocalTimelineFloor C p key)
  | .persistGeneratorFloor g => quiet (bestEffortPersistLocalGeneratorFloor C p g)
  | .invalidateRuntime => quiet invalidateLocalRuntimeAfterShutdown
  | .allocateWithCapturedBound g args => quiet (allocateWithCapturedBound C p g args)

abbrev State := Sys sig Nat World TsoError Outcome

/-- A condition on the steps of a cluster, judged before each step: on the effect that an
operation of a process is about to have, and on the time a clock is about to show. -/
structure Condition where
  effect : Nat → World → Effect → Prop := fun _ _ _ => True
  tick : Nat → Nat → World → Prop := fun _ _ _ => True

def Condition.guard (K : Condition) (C : Cluster) : Guard sig Nat Choice Event World Entry where
  op p o c w := ∀ x ∈ act C p w o c, K.effect p w x.2
  env ev w :=
    match ev with
    | .tick p now => K.tick p now w
    | _ => True

def unconditional : Condition := {}

def Condition.and (K K' : Condition) : Condition where
  effect p w e := K.effect p w e ∧ K'.effect p w e
  tick p now w := K.tick p now w ∧ K'.tick p now w

/-- Only the given workers act, their clocks never go back, and no two of them are ever further
apart than the gap. -/
def closeClocks (workers : List Nat) (gapMs : Nat) : Condition where
  effect p _ _ := p ∈ workers
  tick p now w := w.clock p ≤ now ∧
    ∀ q ∈ workers, q ≠ p → now ≤ w.clock q + gapMs ∧ w.clock q ≤ now + gapMs

section

variable {K K' : Condition} {C : Cluster}

class Condition.Checked (K : Condition) where
  effect : ∀ p w e, Decidable (K.effect p w e) := by exact fun _ _ _ => .isTrue trivial
  tick : ∀ p now w, Decidable (K.tick p now w) := by exact fun _ _ _ => .isTrue trivial

attribute [reducible, instance] Condition.Checked.effect Condition.Checked.tick

instance : unconditional.Checked where

instance [K.Checked] [K'.Checked] : (K.and K').Checked where
  effect p w e := inferInstanceAs (Decidable (K.effect p w e ∧ K'.effect p w e))
  tick p now w := inferInstanceAs (Decidable (K.tick p now w ∧ K'.tick p now w))

instance (workers : List Nat) (gapMs : Nat) : (closeClocks workers gapMs).Checked where
  effect p _ _ := inferInstanceAs (Decidable (p ∈ workers))
  tick p now w := inferInstanceAs (Decidable (w.clock p ≤ now ∧
    ∀ q ∈ workers, q ≠ p → now ≤ w.clock q + gapMs ∧ w.clock q ≤ now + gapMs))

instance [K.Checked] : (K.guard C).Checked where
  op p o c w := inferInstanceAs (Decidable (∀ x ∈ act C p w o c, K.effect p w x.2))
  env ev w :=
    match ev with
    | .tick p now => inferInstanceAs (Decidable (K.tick p now w))
    | .evict .. | .dropFlight .. | .dropLock .. => .isTrue trivial

end

def start (clock : Nat → Nat) : State := ⟨World.initial clock, []⟩

abbrev Run (C : Cluster) (K : Condition) (clock : Nat → Nat) : State → Prop :=
  Reach (machine C) (code C) (K.guard C) (start clock)

lemma Run.mono {C : Cluster} {K K' : Condition} {clock : Nat → Nat} {s : State}
    (h : Run C K clock s) (heffect : ∀ p w e, K.effect p w e → K'.effect p w e)
    (htick : ∀ p now w, K.tick p now w → K'.tick p now w) : Run C K' clock s := by
  refine Reach.mono h (fun _ _ h => h) (fun p o c w hop x hx => heffect p w x.2 (hop x hx))
    fun ev w henv => ?_
  cases ev with
  | tick p now => exact htick p now w henv
  | evict | dropFlight | dropLock => trivial

lemma Run.left {C : Cluster} {K K' : Condition} {clock : Nat → Nat} {s : State}
    (h : Run C (K.and K') clock s) : Run C K clock s :=
  h.mono (fun _ _ _ => And.left) fun _ _ _ => And.left

def Cluster.play (C : Cluster) (K : Condition) [K.Checked] (clock : Nat → Nat)
    (commands : List (Command Nat Entry Choice Event)) : Option State :=
  script (machine C) (code C) (K.guard C) Op.usual commands (start clock)

lemma Run.of_play {C : Cluster} {K : Condition} [K.Checked] (clock : Nat → Nat)
    (commands : List (Command Nat Entry Choice Event)) (P : State → Bool)
    (h : (C.play K clock commands).any P = true) : ∃ s, Run C K clock s ∧ P s = true :=
  Reach.exists_of_script h

def perform (i p : Nat) (entry : Entry) (n : Nat) : List (Command Nat Entry Choice Event) :=
  [.label (.spawn p entry), .drive i n]

def tickBoth (now : Nat) : List (Command Nat Entry Choice Event) :=
  [.label (.env (.tick 0 now)), .label (.env (.tick 1 now))]

def sampleWorker (instanceId endpoint : String) (remainders : List Nat) : TsoConfig where
  sharedGenerators := 8
  warmGenerators := 0
  maxBatchPerRequest := 8
  maxFutureBorrowMs := 100
  defaultResourceTier := .shared
  generatorLeaseTtlMs := 100
  generatorOwnershipModulo := 2
  generatorOwnershipRemainder := 0
  generatorOwnershipRemainders := remainders
  instanceId := instanceId
  advertiseEndpoint := endpoint
  preBorrowMs := 50
  maxClockRewindMs := 10
  recoveryCatchupBudgetMs := 1000
  sharedJumpAheadThresholdMs := 1000
  safetyGapMs := 5

/-- Two workers that own the even and the odd generators of a layout with eight of them and two
timestamps per millisecond; every later process is a restart of the second one. -/
def sampleCluster : Cluster where
  layout := ⟨1, 0, 60, 3, 1⟩
  layout_valid := by decide
  worker p := if p = 0 then sampleWorker "a" "a:1" [0] else sampleWorker "b" "b:1" [1]
  socketAddr _ := none
  hashKey _ := 0

def sampleRequest (expectedEpoch expectedRouteVersion : Nat) : AllocateTimestampsRequest where
  timelineKey := "k"
  count := 1
  expectedEpoch := expectedEpoch
  expectedRouteVersion := expectedRouteVersion
  clientRequestId := ""

def OutcomeFact (C : Cluster) (outcome : Outcome) (w : World) : Prop :=
  ∀ request response, outcome = some (request, response) → Answered C request response w

variable {C : Cluster} {p : Nat} {w : World}

lemma safe_quiet {α : Type} {R : α → World → Prop} {prog : Service α} (hbase : Base C w)
    (h : Safe C p prog R w) : Safe C p (quiet prog) (OutcomeFact C) w :=
  Safe.bind h hbase fun _ _ _ _ _ => safe_pure fun _ _ => nofun

lemma safe_code (hbase : Base C w) (entry : Entry) :
    Safe C p (code C p entry) (OutcomeFact C) w := by
  cases entry with
  | ensureTimeline key tier fuel =>
    exact safe_quiet hbase (safe_ensureTimelineWithTier tier fuel hbase)
  | allocate request cancellable fuel =>
    refine Safe.bind safe_allocateTimestamps hbase fun response w1 _ _ h => ?_
    refine safe_pure fun w2 h2 request' response' heq => ?_
    cases heq
    exact Answered.mono h h2
  | transferForRpc => exact safe_quiet hbase safe_transferTimelineForRpc
  | transfer => exact safe_quiet hbase safe_transferTimeline
  | renewTimelineLease key fuel => exact safe_quiet hbase (safe_renewTimelineLease fuel hbase)
  | ensureGeneratorLease g fuel => exact safe_quiet hbase (safe_ensureGeneratorLease hbase fuel)
  | refreshGeneratorLease => exact safe_quiet hbase (safe_refreshGeneratorLeaseInner hbase)
  | refreshGeneratorLeasesBatch ids =>
    exact safe_quiet hbase (safe_refreshGeneratorLeasesBatch ids hbase)
  | routeUpdate => exact safe_quiet hbase safe_invalidateTimelineCacheForRouteUpdate
  | routeReset => exact safe_quiet hbase safe_resetTimelineCache
  | persistTimelineFloor => exact safe_quiet hbase safe_bestEffortPersistLocalTimelineFloor
  | persistGeneratorFloor =>
    exact safe_quiet hbase (safe_bestEffortPersistLocalGeneratorFloor hbase)
  | invalidateRuntime => exact safe_quiet hbase safe_invalidateLocalRuntimeAfterShutdown
  | allocateWithCapturedBound => exact safe_quiet hbase safe_allocateWithCapturedBound

lemma Base.initial (clock : Nat → Nat) : Base C (World.initial clock) := by
  refine ⟨fun _ => .nil, ?_, fun _ => .nil, ?_, ?_, ?_, ?_⟩ <;> simp [World.initial]

def Effect.isLoss : Effect → Bool
  | .uncache _ | .setFlight _ false | .unlock _ _ => true
  | _ => false

section

variable {K : Condition} {clock : Nat → Nat} {s : State}

lemma holds_start : (discipline C).Holds (fun _ => OnOk (OutcomeFact C)) (start clock) :=
  ⟨Base.initial clock, fun _ ht => absurd ht List.not_mem_nil⟩

lemma Run.holds (h : Run C K clock s) : (discipline C).Holds (fun _ => OnOk (OutcomeFact C)) s :=
  holds_start.reach (fun _ entry _ hbase _ => safe_code hbase entry) h

lemma Run.base (h : Run C K clock s) : Base C s.world := h.holds.inv

lemma Run.answered (h : Run C K clock s) {req : AllocateTimestampsRequest}
    {response : AllocateTimestampsResponse} (ht : ⟨p, .ret (some (req, response))⟩ ∈ s.threads) :
    Answered C req response s.world :=
  h.holds.post ht req response rfl

/-- What one step does to the world, whatever the tasks return: nothing, a clock moves, or a process
has a permitted effect that meets the condition. -/
lemma step_effect {β : Type} {tasks : Nat → Entry → Service β}
    {Post : Nat → Except TsoError β → World → Prop} {s s' : Sys sig Nat World TsoError β}
    {l : Label Nat Entry Choice Event} (h : (discipline C).Holds Post s)
    (hG : (K.guard C).Admits s l) (hstep : step (machine C) tasks s l = some s') :
    s'.world = s.world ∨ (∃ p now, K.tick p now s.world ∧ now < U64.size ∧
        s'.world = { s.world with clock := Function.update s.world.clock p now }) ∨
      ∃ p e, Permit C p s.world e ∧ (e.isLoss = true ∨ K.effect p s.world e) ∧
        s'.world = s.world.apply p e := by
  obtain ⟨p, entry, rfl, rfl⟩ | ⟨i, c, p, o, k, r, w, rfl, hi, hexec, rfl⟩ | ⟨i, rfl, rfl⟩ |
    ⟨ev, w, rfl, henv, rfl⟩ := step_cases hstep
  · exact .inl rfl
  · obtain ⟨⟨r', e⟩, hacted, heq⟩ := Option.map_eq_some_iff.mp hexec
    obtain ⟨rfl, rfl⟩ := Prod.mk.inj heq
    exact .inr (.inr ⟨p, e, h.allowed hi c r' e hacted, .inr (hG p o k hi _ hacted), rfl⟩)
  · exact .inl rfl
  cases ev with
  | tick p now =>
    simp only [machine, environment] at henv
    split_ifs at henv with hnow
    exact .inr (.inl ⟨p, now, hG, hnow, (Option.some.inj henv).symm⟩)
  | evict p key =>
    exact .inr (.inr ⟨p, .uncache key, trivial, .inl rfl, (Option.some.inj henv).symm⟩)
  | dropFlight p g =>
    exact .inr (.inr ⟨p, .setFlight g false, trivial, .inl rfl, (Option.some.inj henv).symm⟩)
  | dropLock p key i =>
    exact .inr (.inr ⟨p, .unlock key i, trivial, .inl rfl, (Option.some.inj henv).symm⟩)

/-- The invariant rule for worlds: it is enough that the property survives the clocks and every
permitted effect that meets the condition. -/
lemma Run.invariant {I : World → Prop} (h : Run C K clock s) (h0 : I (World.initial clock))
    (happly : ∀ p w e, Base C w → I w → Permit C p w e → e.isLoss = true ∨ K.effect p w e →
      I (w.apply p e))
    (htick : ∀ p now w, Base C w → I w → K.tick p now w → now < U64.size →
      I { w with clock := Function.update w.clock p now }) : I s.world := by
  induction h with
  | refl => exact h0
  | tail hreach hG hstep ih =>
    have hbase : Base C _ := Run.base hreach
    rcases step_effect (Run.holds hreach) hG hstep with
      heq | ⟨p, now, hK, hnow, heq⟩ | ⟨p, e, hpermit, hK, heq⟩ <;> rw [heq]
    · exact ih
    · exact htick p now _ hbase ih hK hnow
    · exact happly p _ e hbase ih hpermit hK

lemma Run.issued {P : Allocation → Prop} (h : Run C K clock s)
    (hissue : ∀ p w a, IssueFact C p a w → K.effect p w (.issue a) → P a) :
    ∀ a ∈ s.world.issued, P a := by
  refine h.invariant (I := fun w => ∀ a ∈ w.issued, P a) (by simp [World.initial])
    (fun p w e _ hI hpermit hK => ?_) fun _ _ _ _ hI _ _ => hI
  rcases hpermit.issued with heq | ⟨b, rfl, heq, hfact⟩
  · rwa [heq]
  · rw [heq, List.forall_mem_append, List.forall_mem_singleton]
    exact ⟨hI, hissue p w b hfact (hK.resolve_left nofun)⟩

lemma Run.newIndex_eq (h : Run C K clock s) :
    ∀ a ∈ s.world.issued, a.newIndex = a.startIndex + a.args.count := by
  refine h.issued fun p w a hfact _ => ?_
  obtain ⟨floorIdx, last, -, hreserved⟩ := hfact.reserved
  exact hreserved.new_eq

end

end Chronos
