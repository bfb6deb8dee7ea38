import Chronos.Service.Allocation
import Chronos.Service.TimelineRules

/-! Allocation keeps to the discipline: every committed allocation carries the evidence that
justifies it, and every response is backed by one. -/

namespace Chronos

open Interleaving Discipline

variable {C : Cluster} {p g : Nat} {w : World}

def Allocated (C : Cluster) (p g : Nat) (args : Generator.AllocateArgs) (serving : Option Serving)
    (ranges : List TimestampRange) (w : World) : Prop :=
  ∃ a ∈ w.issued, a.process = p ∧ a.generatorId = g ∧ a.args = args ∧ a.serving = serving ∧
    Generator.allocatedRanges C.layout g args.count a.startIndex = .ok ranges ∧
    (g < C.layout.maxGenerators → 0 < args.count →
      ∀ f, args.floor = some f → f < C.layout.tsoAt g a.startIndex)

def Answered (C : Cluster) (request : AllocateTimestampsRequest)
    (response : AllocateTimestampsResponse) (w : World) : Prop :=
  ∃ a ∈ w.issued, ∃ s, a.serving = some s ∧ s.request = request ∧
    a.generatorId = response.generatorId ∧ s.state.route.timelineKey = response.timelineKey ∧
    s.state.route.epoch = response.epoch ∧ s.state.route.routeVersion = response.routeVersion ∧
    Generator.allocatedRanges C.layout a.generatorId request.count a.startIndex =
      .ok response.ranges

structure Accepted (inv : Invocation) (w : World) : Prop where
  positive : 0 < inv.request.count
  invoked : InvokeFact inv.request.timelineKey inv.seen inv.invokedEpoch w

variable {w' : World} {req : AllocateTimestampsRequest} {ranges : List TimestampRange}

lemma Accepted.mono {inv : Invocation} (h : Accepted inv w) (hle : w ≤ w') : Accepted inv w' :=
  ⟨h.positive, h.invoked.mono hle⟩

structure RouteChecked (C : Cluster) (p g : Nat) (request : AllocateTimestampsRequest)
    (route : TimelineRoute) : Prop where
  generator : route.generatorId = g
  epoch : route.epoch = request.expectedEpoch
  routeVersion : route.routeVersion = request.expectedRouteVersion
  owner : C.isLocalEndpoint p route.ownerWorkerEndpoint = true

lemma Answered.mono {response : AllocateTimestampsResponse}
    (h : Answered C req response w) (hle : w ≤ w') :
    Answered C req response w' :=
  h.imp fun _ ha => ⟨hle.issued.mem ha.1, ha.2⟩

lemma Allocated.mono {args : Generator.AllocateArgs} {serving : Option Serving}
    (h : Allocated C p g args serving ranges w)
    (hle : w ≤ w') : Allocated C p g args serving ranges w' :=
  h.imp fun _ ha => ⟨hle.issued.mem ha.1, ha.2⟩

section

variable {args : Generator.AllocateArgs} {serving : Option Serving}

lemma safe_allocateLoop {floorIdx : Nat} (hfloor : Generator.floorIndex C.layout g args.floor =
    .ok floorIdx)
    (hbound : ∀ u, args.issuedUpperBound = some u → BoundFact C p g u w)
    (hdirect : serving = none → args.issuedUpperBound ≠ none)
    (hserving : ∀ s, serving = some s → ServingFact C p g args s w) (tries : Nat) :
    Safe C p (allocateLoop C p g args floorIdx serving tries)
      (fun r w => ∀ ranges, r = .allocated ranges → Allocated C p g args serving ranges w) w := by
  induction tries generalizing w with
  | zero => exact safe_pure fun _ _ => nofun
  | succ tries ih =>
    refine safe_loadNextIndex fun old w1 h1 _ _ => ?_
    split
    · exact safe_fail
    · next r hreserve =>
      refine safe_compareExchangeNextIndex (fun w2 h2 _ hold => ?_) fun done w2 h2 _ hissued => ?_
      · exact ⟨rfl, ⟨floorIdx, r.lastIndex, hfloor, hold ▸ Generator.reserve_eq_ok hreserve⟩,
          fun u hu => (hbound u hu).mono (h1.trans h2), hdirect,
          fun s hs => (hserving s hs).mono (h1.trans h2)⟩
      split_ifs with hdone
      · split
        · exact safe_fail
        · next ranges hranges =>
          refine safe_pure fun w3 h3 ranges' hr => ?_
          cases hr
          exact ⟨_, h3.issued.mem (hissued hdone), rfl, rfl, rfl, rfl, hranges,
            fun hg hcount f hf =>
            (Generator.reserve_eq_ok hreserve).floor_lt hfloor hg hcount hf⟩
      · exact ih (fun u hu => (hbound u hu).mono (h1.trans h2))
          fun s hs => (hserving s hs).mono (h1.trans h2)

lemma safe_allocateAfter (hbound : ∀ u, args.issuedUpperBound = some u → BoundFact C p g u w)
    (hdirect : serving = none → args.issuedUpperBound ≠ none)
    (hserving : ∀ s, serving = some s → ServingFact C p g args s w) :
    Safe C p (allocateAfter C p g args serving)
      (fun r w => ∀ ranges, r = .allocated ranges → Allocated C p g args serving ranges w) w := by
  unfold allocateAfter
  split
  · exact safe_fail
  · next hfloor => exact safe_allocateLoop hfloor hbound hdirect hserving _

lemma safe_allocateWithCapturedBound :
    Kept C p (allocateWithCapturedBound C p g args) w := by
  refine safe_nowMs fun now w1 _ _ _ => safe_upperBound fun bound w2 _ _ hbound _ => ?_
  split
  · exact safe_fail
  refine Safe.imp (safe_allocateAfter (fun u hu => ?_) (fun _ => nofun) nofun)
    fun x w3 _ => by cases x <;> trivial
  exact Option.some.inj hu ▸ hbound _ rfl

end

section

variable {inv : Invocation} {h : Nat} {bound : Option Nat} {route : TimelineRoute}

lemma Allocated.floor_le {args : Generator.AllocateArgs} {serving : Option Serving}
    (hallocated : Allocated C p g args serving ranges w)
    (hg : g < C.layout.maxGenerators) (hcount : 0 < args.count) :
    Floor.Le args.floor (ranges.getLast?.map (·.endTso)) := by
  obtain ⟨a, -, -, -, -, -, hranges, habove⟩ := hallocated
  intro f hf
  refine ⟨_, Generator.ranges_getLast hranges le_rfl hcount, ?_⟩
  have hstart := habove hg hcount f hf
  have hlast : C.layout.tsoAt g a.startIndex ≤ C.layout.tsoAt g (a.startIndex + args.count - 1) :=
    TimestampLayout.tsoAt_le_tsoAt.mpr (by omega)
  exact hstart.le.trans hlast

lemma safe_serveLocked {state : TimelineState}
    (hroute : RouteChecked C p g inv.request route) (hg : g < C.layout.maxGenerators)
    (hbound : AllocationBound C p g bound w) (hinvoked : Accepted inv w)
    (hhandle : HandleFact inv.request.timelineKey state w)
    (hlocked : ⟨p, inv.request.timelineKey, some route, state⟩ ∈ w.locks) :
    Safe C p (serveLocked C p inv h g bound route state)
      (fun r w => ∀ response, r = .served response → Answered C inv.request response w) w := by
  refine safe_harmless rfl fun cancelled w1 h1 _ => ?_
  split_ifs
  · exact safe_pure fun _ _ => nofun
  refine safe_nowMs fun now w2 h2 _ _ => safe_harmless rfl fun charged w3 h3 hbase3 => ?_
  split
  · exact safe_pure fun _ _ => nofun
  have hle := h1.trans (h2.trans h3)
  have hbound3 := hbound.mono hle
  refine Safe.bind (Safe.attempt (safe_allocateAfter hbound3.1 nofun
    fun s hs => ?_)) hbase3 fun res w4 h4 _ hres => ?_
  · cases hs
    exact ⟨hle.locks.mem hlocked, hhandle.mono hle, hinvoked.positive, hg, rfl, hroute.generator,
      hroute.epoch, hroute.routeVersion, hroute.owner, hbound3.2, (hinvoked.mono hle).invoked⟩
  split
  · next ranges =>
    have hallocated := hres ranges rfl
    have hle4 := hle.trans h4
    have hstore : StoreFact p inv.request.timelineKey
        { state with lastIssuedTso := ranges.getLast?.map (·.endTso) } w4 :=
      .inr ⟨_, hle4.locks.mem hlocked, rfl, rfl, rfl, rfl, hallocated.floor_le hg hinvoked.positive⟩
    refine safe_storeHandle (hhandle.mono hle4) hstore fun w5 h5 _ =>
      safe_pure fun w6 h6 response hr => ?_
    cases hr
    obtain ⟨a, ha, -, hga, hargs, hserving, hranges, -⟩ := Allocated.mono hallocated (h5.trans h6)
    exact ⟨a, ha, _, hserving, rfl, hga, rfl, rfl, rfl, by rw [hga]; exact hranges⟩
  · exact safe_pure fun _ _ => nofun
  · exact safe_pure fun _ _ => nofun
  · exact safe_pure fun _ _ => nofun

def MaybeAnswered (C : Cluster) (request : AllocateTimestampsRequest)
    (r : Option AllocateTimestampsResponse) (w : World) : Prop :=
  ∀ response, r = some response → Answered C request response w

lemma safe_none : Safe C p (pure none) (MaybeAnswered C req) w := safe_pure fun _ _ => nofun

variable {key : String} {α : Type} {fuel : Nat}

lemma safe_clearThenNone :
    Safe C p (do clearTimelineCache key; return none) (MaybeAnswered C req) w :=
  safe_harmless rfl fun _ _ _ _ => safe_none

lemma safe_clearThenFail {e : TsoError} {Q : α → World → Prop} :
    Safe C p (do clearTimelineCache key; .fail e : Service α) Q w :=
  safe_harmless rfl fun _ _ _ _ => safe_fail

lemma safe_serveAllocation (hbase : Base C w)
    (hroute : RouteChecked C p g inv.request route) (hg : g < C.layout.maxGenerators)
    (hbound : AllocationBound C p g bound w)
    (hinvoked : Accepted inv w)
    (leaseFuel fuel retries : Nat) :
    Safe C p (serveAllocation C p inv h g bound route leaseFuel fuel retries)
      (MaybeAnswered C inv.request) w := by
  induction fuel generalizing w retries with
  | zero => exact safe_fail
  | succ fuel ih =>
    refine safe_checked hbase fun w1 h1 _ => safe_harmless rfl fun _ w2 h2 _ => ?_
    refine safe_harmless rfl fun admitted w3 h3 _ => ?_
    split
    · exact safe_fail
    refine safe_lockHandle fun state w4 h4 hbase4 hhandle hlocked => ?_
    have h04 := h1.trans (h2.trans (h3.trans h4))
    refine Safe.bind (safe_serveLocked hroute hg (hbound.mono h04) (hinvoked.mono h04)
      hhandle hlocked).attempt hbase4 fun out w5 h5 _ hout => ?_
    refine safe_harmless rfl fun _ w6 h6 hbase6 => ?_
    have h06 := h04.trans (h5.trans h6)
    split
    · exact safe_fail
    · exact safe_pure fun w7 h7 response hr =>
        Answered.mono (hout _ (by rw [Option.some.inj hr])) (h6.trans h7)
    · split_ifs
      · exact safe_checked hbase6 fun w7 h7 hbase7 =>
          ih hbase7 (hbound.mono (h06.trans h7)) (hinvoked.mono (h06.trans h7)) _
      · exact safe_fail
      · exact ih hbase6 (hbound.mono h06) (hinvoked.mono h06) _
    · exact Safe.bind (safe_refreshGeneratorLeaseIfUnchanged hbase6) hbase6
        fun _ _ _ _ _ => safe_none
    · have hwait : ∀ e, Kept C p (waitForFutureBorrowError inv.cancellable e) w6 := by
        intro e
        unfold waitForFutureBorrowError
        split_ifs
        · exact safe_checkRequestCancellation
        · exact safe_fail
      exact Safe.bind (hwait _) hbase6 fun _ w7 h7 hbase7 _ =>
        ih hbase7 (hbound.mono (h06.trans h7)) (hinvoked.mono (h06.trans h7)) _
    · exact safe_fail

lemma safe_serveIfUnchanged {checked : TimelineState}
    (hroute : RouteChecked C p g inv.request checked.route)
    (hbound : AllocationBound C p g bound w)
    (hinvoked : Accepted inv w) :
    Safe C p (serveIfUnchanged C p inv h g bound checked fuel) (MaybeAnswered C inv.request) w := by
  refine safe_harmless rfl fun post w1 h1 hbase1 => ?_
  split_ifs
  · exact safe_clearThenNone
  unfold serveAllocationFromTimelineStateHandle
  split
  · exact safe_fail
  · next hrange =>
    have hg := Cluster.ensureGeneratorIdRange_eq_ok hrange
    exact safe_serveAllocation hbase1 hroute hg (hbound.mono h1) (hinvoked.mono h1) fuel fuel 0

lemma safe_cachedTimelineStillMatchesMetadata {Q : α → World → Prop}
    {state : TimelineLifecycleState} {k : Bool → Service α} (hbase : Base C w)
    (hnext : ∀ r w1, w ≤ w1 → Base C w1 → Safe C p (k r) Q w1) :
    Safe C p (cachedTimelineStillMatchesMetadata C p key route state >>= k) Q w := by
  refine Safe.bind (R := fun _ _ => True) ?_ hbase fun r w1 hle h1 _ => hnext r w1 hle h1
  refine safe_loadTimelineWithSingleflight hbase fun found w1 _ _ _ => ?_
  split
  · exact safe_done
  refine safe_loadGenerator fun r w2 _ _ _ => ?_
  split
  · exact safe_fail
  · exact safe_done
  · exact safe_done

lemma safe_tryServeTimelineStateHandleWithGuard {revalidate : Bool}
    (hbase : Base C w) (hbound : AllocationBound C p g bound w)
    (hinvoked : Accepted inv w) :
    Safe C p (tryServeTimelineStateHandleWithGuard C p inv h g bound revalidate fuel)
      (MaybeAnswered C inv.request) w := by
  refine safe_checked hbase fun w1 h1 _ => safe_harmless rfl fun current w2 h2 hbase2 => ?_
  have hle := h1.trans h2
  simp only
  split_ifs with hready hgen hserve hrevalidate
  · exact safe_clearThenFail
  · exact safe_clearThenNone
  · exact safe_none
  all_goals
    have hroute : RouteChecked C p g inv.request current.route := by
      simp only [Bool.or_eq_true, Bool.not_eq_true', decide_eq_true_eq, not_or,
        Bool.not_eq_false, ne_eq, Decidable.not_not] at hgen
      simp only [requestMatchesTimelineRoute, Bool.not_eq_true', Bool.not_eq_false,
        Bool.and_eq_true, decide_eq_true_eq] at hserve
      exact ⟨hgen.2, hserve.1.2.2, hserve.1.2.1, hgen.1⟩
  · refine safe_cachedTimelineStillMatchesMetadata hbase2 fun r w3 h3 _ => ?_
    split_ifs
    · exact safe_serveIfUnchanged hroute (hbound.mono (hle.trans h3)) (hinvoked.mono (hle.trans h3))
    · exact safe_clearThenNone
  · exact safe_serveIfUnchanged hroute (hbound.mono hle) (hinvoked.mono hle)

lemma safe_tryAllocateFromCachedTimeline (hinvoked : Accepted inv w) :
    Safe C p (tryAllocateFromCachedTimeline C p inv fuel) (MaybeAnswered C inv.request) w := by
  refine safe_harmless rfl fun cached w1 h1 _ => ?_
  split
  · exact safe_none
  refine safe_harmless rfl fun cached w2 h2 hbase2 => ?_
  simp only
  split_ifs
  · refine safe_nowMs fun now w3 h3 _ _ => safe_upperBound fun bound w4 h4 hbase4 hread _ => ?_
    have h04 := h1.trans (h2.trans (h3.trans h4))
    split
    · exact safe_fail
    · exact safe_tryServeTimelineStateHandleWithGuard hbase4 (hread _ rfl).allocationBound
        (hinvoked.mono h04)
    refine safe_cachedTimelineStillMatchesMetadata hbase4 fun r w5 h5 hbase5 => ?_
    split_ifs
    · refine Safe.bind (safe_ensureGeneratorLeaseForAllocation fuel).attempt hbase5
        fun res w6 h6 hbase6 hres => ?_
      split
      · exact safe_tryServeTimelineStateHandleWithGuard hbase6 hres
          (hinvoked.mono (h04.trans (h5.trans h6)))
      · exact safe_clearThenNone
    · exact safe_clearThenNone
  · split
    · exact safe_fail
    refine safe_cachedTimelineStillMatchesMetadata hbase2 fun r w3 _ _ => ?_
    split_ifs
    · exact safe_clearThenFail
    · exact safe_clearThenNone
  · exact safe_clearThenNone
  · exact safe_none

lemma safe_serveFromMetadata {record : TimelineRecord} {rev : Nat}
    (hbase : Base C w) (hload : TimelineLoaded inv.request.timelineKey record rev w)
    (hinvoked : Accepted inv w) :
    Safe C p (serveFromMetadata C p inv record rev fuel) (MaybeAnswered C inv.request) w := by
  refine Safe.bind (safe_activateLocalTimelineRecord hbase fuel fuel hload).attempt
    hbase fun res w1 h1 hbase1 hres => ?_
  split
  · exact safe_fail
  · exact safe_fail
  split_ifs
  · exact safe_clearThenFail
  refine Safe.bind (safe_ensureGeneratorLeaseForAllocation fuel) hbase1
    fun bound w2 h2 hbase2 hbound => ?_
  refine Safe.bind (safe_timelineStateHandleFromRecord hbase2
    (TimelineLoaded.mono hres h2)) hbase2 fun handle w3 h3 hbase3 _ => ?_
  exact safe_tryServeTimelineStateHandleWithGuard hbase3 (hbound.mono h3)
    (hinvoked.mono (h1.trans (h2.trans h3)))

lemma safe_allocateTimestampsAfterValidation (hbase : Base C w) (leaseFuel fuel : Nat)
    (hinvoked : Accepted inv w) :
    Safe C p (allocateTimestampsAfterValidation C p inv leaseFuel fuel)
      (fun response => Answered C inv.request response) w := by
  induction fuel generalizing w with
  | zero => exact safe_fail
  | succ fuel ih =>
    refine safe_rejectNewWork (fun w1 h1 hbase1 => ?_) hbase
    refine safe_checked hbase1 fun w2 h2 hbase2 => ?_
    refine Safe.bind (safe_tryAllocateFromCachedTimeline
      (hinvoked.mono (h1.trans h2))) hbase2 fun found w3 h3 hbase3 hfound => ?_
    split
    · exact safe_pure fun w4 h4 => (hfound _ rfl).mono h4
    have h03 := h1.trans (h2.trans h3)
    refine safe_loadTimelineWithSingleflight hbase3 fun found w4 h4 hbase4 hload => ?_
    split
    · exact safe_fail
    split
    · exact safe_clearThenFail
    · exact safe_fail
    refine Safe.bind (safe_serveFromMetadata hbase4 (hload _ _ rfl)
      (hinvoked.mono (h03.trans h4))) hbase4 fun found w5 h5 hbase5 hfound => ?_
    split
    · exact safe_pure fun w6 h6 => (hfound _ rfl).mono h6
    · exact ih hbase5 (hinvoked.mono (h03.trans (h4.trans h5)))

end

lemma safe_allocateTimestamps {cancellable : Bool} {fuel : Nat} :
    Safe C p (allocateTimestamps C p req cancellable fuel)
      (fun response => Answered C req response) w := by
  refine safe_invoke fun ⟨seen, invokedEpoch⟩ w1 _ hbase1 hinvoked => ?_
  simp only
  split
  · exact safe_fail
  · exact safe_fail
  split_ifs with hzero
  · exact safe_fail
  · exact safe_fail
  · exact safe_allocateTimestampsAfterValidation hbase1 fuel fuel
      ⟨Nat.pos_of_ne_zero hzero, hinvoked⟩

end Chronos
