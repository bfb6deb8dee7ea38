import Chronos.Interleaving.History
import Chronos.Service.System

/-! Which lifecycle states an allocation reports as not ready. The public mapping of errors expects
only states that are unavailable by themselves; a recovering timeline is meant to be activated
before anybody is told about it. -/

namespace Chronos

open Interleaving

inductive TimelinePublicUnavailability where
  | temporarilyUnavailable
  deriving DecidableEq

def directPublicUnavailability (state : TimelineLifecycleState) :
    Option TimelinePublicUnavailability :=
  match servingReadiness state with
  | .notReady => some .temporarilyUnavailable
  | .serving | .requiresActivation => none

inductive GrpcCode where
  | unavailable
  deriving DecidableEq

inductive ErrorCode where
  | temporarilyUnavailable
  deriving DecidableEq

structure TimelineNotReadyPublicMapping where
  grpcCode : GrpcCode
  detailCode : ErrorCode
  deriving DecidableEq

/-- `none` is a failed assertion; a build without debug assertions goes on. -/
def timelineNotReadyPublicMapping (debugAssertions : Bool) (state : TimelineLifecycleState) :
    Option TimelineNotReadyPublicMapping :=
  match directPublicUnavailability state with
  | some .temporarilyUnavailable => some ⟨.unavailable, .temporarilyUnavailable⟩
  | none => if debugAssertions then none else some ⟨.unavailable, .temporarilyUnavailable⟩

lemma mapping_isSome {state : TimelineLifecycleState}
    (h : (directPublicUnavailability state).isSome) (debug : Bool) :
    (timelineNotReadyPublicMapping debug state).isSome := by
  obtain ⟨unavailability, hst⟩ := Option.isSome_iff_exists.mp h
  rw [timelineNotReadyPublicMapping, hst]
  rfl

lemma directPublicUnavailability_isSome_iff {state : TimelineLifecycleState} :
    (directPublicUnavailability state).isSome ↔ state ∈ [.creating, .draining, .locked] := by
  cases state <;> decide

def ReportsDirect : TsoError → Prop
  | .timelineNotReady _ state => (directPublicUnavailability state).isSome
  | _ => True

def Op.replyError : (o : Op) → o.Reply → Option TsoError
  | .loadGenerator _, .error e => some e
  | .createGenerator .., .error e => some e
  | .compareExchangeGenerator .., .error e => some e
  | .compareExchangeGenerators _, .error e => some e
  | .claimDedicated .., .error e => some e
  | .loadTimeline _, .error e => some e
  | .loadTimelineShared _, .error e => some e
  | .createTimeline .., .error e => some e
  | .compareExchangeTimeline .., .error e => some e
  | .acquireGeneratorAdmission _, .error e => some e
  | .chargeTimelineQuota, .error e => some e
  | _, _ => none

/-- A recovering record that its owner `p` can activate from the time `earliest` on: its floor lies
within the catch-up budget. -/
def Activatable (C : Cluster) (p earliest : Nat) (record : TimelineRecord) : Prop :=
  record.state = .recovering →
    C.isLocalEndpoint p record.route.ownerWorkerEndpoint ∧
      ∀ floor ∈ recoveredTimelineFloorTso record,
        (C.layout.decode floor).physicalMs ≤
          U64.saturatingAdd earliest (C.worker p).recoveryCatchupBudgetMs

/-- Replies under which no allocation meets a recovering timeline it cannot activate: the clock
shows `earliest` or later, a cached state that is read is not recovering, and a recovering record
that is loaded belongs to this worker and lies within its catch-up budget. -/
def Shown (C : Cluster) (p earliest : Nat) (o : Op) (r : o.Reply) : Prop :=
  (∀ e ∈ o.replyError r, ReportsDirect e) ∧
    match o, r with
    | .nowMs, now => earliest ≤ now
    | .readHandle .., state => state.state ≠ .recovering
    | .loadTimelineShared _, .ok (some (record, _)) => Activatable C p earliest record
    | _, _ => True

section

def Direct {α : Type} : Except TsoError α → Prop
  | .ok _ => True
  | .error e => ReportsDirect e

variable {C : Cluster} {p g : Nat} {L : TimestampLayout} {α : Type} {x : Except TsoError α}
  {e : TsoError}

lemma Direct.error (h : Direct x) (hx : x = .error e) : ReportsDirect e := by
  rw [hx] at h
  exact h

lemma direct_encode {ms sequence : Nat} : Direct (L.encode ms g sequence) := by
  unfold TimestampLayout.encode
  split
  · trivial
  · split_ifs <;> trivial

variable {floor : Nat}

lemma direct_nextCursorAfterWithLayout : Direct (nextCursorAfterWithLayout L floor g) := by
  unfold nextCursorAfterWithLayout
  dsimp only
  split_ifs
  · trivial
  · trivial
  · split <;> trivial
  · split <;> trivial

lemma direct_initIndex : Direct (Generator.initIndex L g floor) := by
  unfold Generator.initIndex
  split
  · next h => exact direct_nextCursorAfterWithLayout.error h
  · split <;> trivial

lemma direct_floorIndex (floor : Option Nat) : Direct (Generator.floorIndex L g floor) := by
  unfold Generator.floorIndex
  split
  · trivial
  split
  · next h => exact direct_nextCursorAfterWithLayout.error h
  · trivial

lemma direct_currentLastIssuedTso {next : Nat} :
    Direct (Generator.currentLastIssuedTso L g next) := by
  unfold Generator.currentLastIssuedTso
  split
  · trivial
  split
  · trivial
  · next h => exact direct_encode.error h

lemma direct_checkUpperBound {idx : Nat} (bound : Option Nat) :
    Direct (Generator.checkUpperBound L g idx bound) := by
  unfold Generator.checkUpperBound
  split
  · trivial
  split
  · next h => exact direct_encode.error h
  · split <;> trivial

lemma direct_reserve {args : Generator.AllocateArgs} {floorIdx old : Nat} :
    Direct (Generator.reserve L g args floorIdx old) := by
  unfold Generator.reserve
  dsimp only
  split
  · trivial
  split
  · trivial
  split
  · trivial
  split
  · trivial
  split
  · next h => exact (direct_checkUpperBound _).error h
  · split <;> trivial

lemma direct_ranges (fuel remaining idx : Nat) :
    Direct (Generator.ranges L g fuel remaining idx) := by
  induction fuel generalizing remaining idx with
  | zero => cases remaining <;> trivial
  | succ fuel ih =>
    cases remaining with
    | zero => trivial
    | succ remaining =>
      unfold Generator.ranges
      dsimp only
      split
      · next h => exact direct_encode.error h
      · next h _ => exact direct_encode.error h
      · trivial
      split
      · next h => exact (ih _ _).error h
      · trivial

lemma direct_ensureGeneratorIdRange : Direct (C.ensureGeneratorIdRange g) := by
  unfold Cluster.ensureGeneratorIdRange
  split <;> trivial

lemma direct_takeoverRecord {now : Nat} {record : GeneratorRecord} :
    Direct (C.takeoverRecord p g now record) := by
  unfold Cluster.takeoverRecord
  split
  · trivial
  split
  · next h => exact direct_nextCursorAfterWithLayout.error h
  · trivial

lemma direct_validateBatchForRoute {count : Nat} {route : TimelineRoute} :
    Direct (C.validateBatchForRoute p count route) := by
  unfold Cluster.validateBatchForRoute
  dsimp only
  split <;> split <;> trivial

lemma direct_checkLoadedTimeline {request : AllocateTimestampsRequest}
    {record : TimelineRecord} : Direct (checkLoadedTimeline C p request record) := by
  unfold checkLoadedTimeline
  split_ifs <;> trivial

lemma direct_runtimeLeaseStateFromRecord {rev : Nat} {record : GeneratorRecord} :
    Direct (runtimeLeaseStateFromRecord rev record) := by
  unfold runtimeLeaseStateFromRecord
  split <;> trivial

end

section

variable {C : Cluster} {p g earliest : Nat} {α : Type} {key : String} {Q : α → Prop}

abbrev EndsDirect (C : Cluster) (p earliest : Nat) (Q : α → Prop) (prog : Service α) : Prop :=
  prog.Ends (Shown C p earliest) ReportsDirect Q

abbrev Reports (C : Cluster) (p earliest : Nat) (prog : Service α) : Prop :=
  EndsDirect C p earliest (fun _ => True) prog

variable {now rev leaseFuel : Nat} {o : Op} {retry : Service Unit}
  {lease : GeneratorLeaseState}

lemma ends_call : EndsDirect C p earliest (Shown C p earliest o) (call o) := Prog.ends_op

lemma reports_call : Reports C p earliest (call o) := ends_call.imp fun _ _ => trivial

lemma reports_ofExcept {x : Except TsoError α} (h : Direct x) :
    Reports C p earliest (.ofExcept x) :=
  Prog.ends_ofExcept (fun _ => h.error) fun _ _ => trivial

lemma reports_checkRequestCancellation : Reports C p earliest checkRequestCancellation := by
  refine reports_call.bind fun cancelled _ => ?_
  split <;> trivial

lemma reports_backoffAfterMetadataContention (h : Reports C p earliest retry) :
    Reports C p earliest (backoffAfterMetadataContention retry) := by
  refine reports_call.bind fun left _ => ?_
  split
  · exact h
  · trivial

lemma ends_withGeneratorLeaseSingleflight {body : Service α}
    (h : EndsDirect C p earliest Q body) :
    EndsDirect C p earliest Q (withGeneratorLeaseSingleflight g body) := by
  refine reports_checkRequestCancellation.bind fun _ _ => reports_call.bind fun _ _ => ?_
  refine h.attempt.bind fun result hresult => reports_call.bind fun _ _ => ?_
  cases result with
  | ok a => exact hresult
  | error e => exact hresult

lemma reports_isGeneratorLeaseValid : Reports C p earliest (isGeneratorLeaseValid g) :=
  reports_call.bind fun _ _ => reports_call

lemma reports_initAfterFloor {floor : Option Nat} :
    Reports C p earliest (initAfterFloor C g floor) := by
  unfold initAfterFloor
  split
  · trivial
  split
  · next h => exact direct_initIndex.error h
  · exact reports_call

lemma reports_installLease : Reports C p earliest (installLease g lease) :=
  reports_call.bind fun _ _ => reports_call

lemma reports_currentLastIssuedTso : Reports C p earliest (currentLastIssuedTso C g) :=
  reports_call.bind fun _ _ => reports_ofExcept direct_currentLastIssuedTso

lemma reports_takeOverGeneratorLease {record : GeneratorRecord} (h : Reports C p earliest retry) :
    Reports C p earliest (takeOverGeneratorLease C p g record rev now retry) := by
  unfold takeOverGeneratorLease
  split
  · next herr => exact direct_takeoverRecord.error herr
  refine ends_call.bind fun res hres => ?_
  split
  · exact reports_initAfterFloor.bind fun _ _ => reports_installLease
  · exact reports_backoffAfterMetadataContention
      (reports_checkRequestCancellation.bind fun _ _ => h)
  · exact hres.1 _ rfl

lemma reports_createGeneratorLease (h : Reports C p earliest retry) :
    Reports C p earliest (createGeneratorLease C p g retry) := by
  refine reports_call.bind fun now _ => ends_call.bind fun res hres => ?_
  split
  · exact reports_installLease
  · exact reports_backoffAfterMetadataContention
      (reports_checkRequestCancellation.bind fun _ _ => h)
  · exact hres.1 _ rfl

lemma reports_adoptGeneratorLease {record : GeneratorRecord} (h : Reports C p earliest retry) :
    Reports C p earliest (adoptGeneratorLease C p g record rev retry) := by
  refine reports_call.bind fun now _ => ?_
  dsimp only
  split
  · split
    · trivial
    split
    · exact reports_initAfterFloor.bind fun _ _ => reports_installLease
    · trivial
  · split
    · exact reports_takeOverGeneratorLease h
    · trivial

lemma reports_acquireGeneratorLease (fuel : Nat) :
    Reports C p earliest (acquireGeneratorLease C p g fuel) := by
  induction fuel with
  | zero => trivial
  | succ fuel ih =>
    refine reports_checkRequestCancellation.bind fun _ _ => ends_call.bind fun found hfound => ?_
    split
    · exact hfound.1 _ rfl
    · exact reports_adoptGeneratorLease ih
    · exact reports_createGeneratorLease ih

lemma reports_ensureGeneratorLeaseAfterSingleflight {fuel : Nat} :
    Reports C p earliest (ensureGeneratorLeaseAfterSingleflight C p g fuel) := by
  unfold ensureGeneratorLeaseAfterSingleflight
  split
  · next h => exact direct_ensureGeneratorIdRange.error h
  split
  · refine reports_isGeneratorLeaseValid.bind fun valid _ => ?_
    split
    · trivial
    · exact reports_acquireGeneratorLease fuel
  · trivial

lemma reports_ensureGeneratorLease {fuel : Nat} :
    Reports C p earliest (ensureGeneratorLease C p g fuel) := by
  refine ends_withGeneratorLeaseSingleflight ?_
  refine reports_checkRequestCancellation.bind fun _ _ => ?_
  refine reports_isGeneratorLeaseValid.bind fun valid _ => ?_
  split
  · trivial
  · exact reports_ensureGeneratorLeaseAfterSingleflight

lemma reports_ensureGeneratorLeaseForAllocation {fuel : Nat} :
    Reports C p earliest (ensureGeneratorLeaseForAllocation C p key g fuel) := by
  refine reports_call.bind fun now _ => reports_call.bind fun bound _ => ?_
  split
  · trivial
  refine reports_checkRequestCancellation.bind fun _ _ => ends_withGeneratorLeaseSingleflight ?_
  refine reports_checkRequestCancellation.bind fun _ _ => reports_call.bind fun now _ => ?_
  refine reports_call.bind fun bound _ => ?_
  split
  · trivial
  refine ends_call.bind fun found hfound => ?_
  split
  · exact hfound.1 _ rfl
  · trivial
  refine reports_call.bind fun now _ => ?_
  split
  · trivial
  split
  · trivial
  · exact reports_ensureGeneratorLeaseAfterSingleflight.bind fun _ _ =>
      reports_call.bind fun _ _ => reports_call

lemma reports_reensureGeneratorLease {fuel : Nat} :
    Reports C p earliest (reensureGeneratorLease C p g lease fuel) := by
  refine reports_call.bind fun _ _ => reports_call.bind fun _ _ => ?_
  refine reports_ensureGeneratorLeaseAfterSingleflight.attempt.bind fun res hres => ?_
  split
  · trivial
  refine reports_call.bind fun current _ => ?_
  split
  · exact hres
  · exact reports_call.bind fun _ _ => hres

lemma reports_writeRefreshedLease {last : Option Nat}
    {fuel : Nat} {reason : GeneratorLeaseRefreshReason} :
    Reports C p earliest (writeRefreshedLease C p g lease last now reason fuel) := by
  refine ends_call.bind fun res hres => ?_
  split
  · split
    · next h => exact direct_runtimeLeaseStateFromRecord.error h
    · exact reports_installLease
  · exact reports_reensureGeneratorLease
  · exact hres.1 _ rfl

lemma reports_refreshGeneratorLeaseIfUnchanged {bound : Option Nat} {fuel : Nat} :
    Reports C p earliest (refreshGeneratorLeaseIfUnchanged C p g bound fuel) := by
  refine ends_withGeneratorLeaseSingleflight ?_
  refine reports_checkRequestCancellation.bind fun _ _ => reports_call.bind fun now _ => ?_
  refine reports_call.bind fun lease _ => ?_
  split
  · exact reports_ensureGeneratorLeaseAfterSingleflight
  split
  · trivial
  refine reports_call.bind fun lease _ => ?_
  split
  · trivial
  refine reports_checkRequestCancellation.bind fun _ _ => ?_
  split
  · trivial
  refine reports_currentLastIssuedTso.bind fun last _ => ?_
  split
  · exact reports_writeRefreshedLease
  · trivial

lemma reports_loadTimelineWithSingleflight :
    EndsDirect C p earliest (fun found => ∀ x ∈ found, Activatable C p earliest x.1)
      (loadTimelineWithSingleflight key) := by
  refine reports_checkRequestCancellation.bind fun _ _ => ends_call.bind fun res hres => ?_
  refine Prog.ends_ofExcept (fun e he => ?_) fun found hfound => ?_
  · exact hres.1 e (by rw [he]; rfl)
  intro x hx
  rw [hfound, hx] at hres
  exact hres.2

lemma ends_activateLocalTimelineRecord (fuel : Nat) (record : TimelineRecord)
    (rev : Nat) (hrecord : Activatable C p earliest record) :
    EndsDirect C p earliest (fun found => found.1.state ≠ .recovering)
      (activateLocalTimelineRecord C p key leaseFuel fuel record rev) := by
  induction fuel generalizing record rev with
  | zero => trivial
  | succ fuel ih =>
    refine reports_checkRequestCancellation.bind fun _ _ => ?_
    split
    · next hrem =>
      intro hst
      rw [(hrecord hst).1] at hrem
      cases hrem
    · split
      · next hready =>
        intro hst
        rw [hst] at hready
        cases hready
      · next hready =>
        refine reports_ensureGeneratorLease.bind fun _ _ hst => ?_
        rw [hst] at hready
        cases hready
      · refine ends_call.bind fun now hnow => ?_
        split
        · next hfar =>
          -- the floor would have to lie beyond the budget that covers it from `earliest` on
          intro hst
          obtain ⟨floor, hfloor, hgt⟩ := (Option.any_eq_true ..).mp hfar
          have hnear := (hrecord hst).2 floor hfloor
          have hle : U64.saturatingAdd earliest (C.worker p).recoveryCatchupBudgetMs ≤
              U64.saturatingAdd now (C.worker p).recoveryCatchupBudgetMs :=
            min_le_min_right _ (Nat.add_le_add_right hnow.2 _)
          exact absurd (of_decide_eq_true hgt) (Nat.not_lt.mpr (hnear.trans hle))
        · refine reports_ensureGeneratorLease.bind fun _ _ => reports_call.bind fun now _ => ?_
          refine ends_call.bind fun res hres => ?_
          split
          · exact nofun
          · have hdone : Reports C p earliest (return ()) := trivial
            refine (reports_backoffAfterMetadataContention hdone).bind fun _ _ => ?_
            refine reports_loadTimelineWithSingleflight.bind fun found hfound => ?_
            split
            · trivial
            · exact ih _ _ (hfound _ rfl)
          · exact hres.1 _ rfl

lemma reports_timelineStateHandleFromRecord {record : TimelineRecord} :
    Reports C p earliest (timelineStateHandleFromRecord C p key record rev) := by
  refine Prog.Ends.bind (Q := fun _ => True) ?_ fun _ _ => ?_
  · unfold restoreDedicatedClaim
    split
    · trivial
    refine Prog.Ends.bind (Q := fun _ => True) ?_ fun _ _ => trivial
    unfold claimSpecificDedicated
    split
    · trivial
    refine ends_call.bind fun res hres => Prog.ends_ofExcept (fun e he => ?_) fun _ _ => ?_
    · exact hres.1 e (by rw [he]; rfl)
    · trivial
  · exact reports_call.bind fun _ _ => reports_call.bind fun _ _ => trivial

section

variable {inv : Invocation} {handle fuel : Nat} {bound : Option Nat} {route : TimelineRoute}

lemma reports_allocateAfter {args : Generator.AllocateArgs} {serving : Option Serving} :
    Reports C p earliest (allocateAfter C p g args serving) := by
  unfold allocateAfter
  split
  · next h => exact (direct_floorIndex _).error h
  · next floorIdx _ =>
    have hloop : ∀ tries, Reports C p earliest
        (allocateLoop C p g args floorIdx serving tries) := by
      intro tries
      induction tries with
      | zero => trivial
      | succ tries ih =>
        refine reports_call.bind fun old _ => ?_
        split
        · next h => exact direct_reserve.error h
        refine reports_call.bind fun swapped _ => ?_
        split
        · split
          · next h => exact (direct_ranges _ _ _).error h
          · trivial
        · exact ih
    exact hloop _

def ServeOutcome.direct : ServeOutcome → Prop
  | .error e => ReportsDirect e
  | _ => True

lemma ends_serveLocked {state : TimelineState} : EndsDirect C p earliest ServeOutcome.direct
      (serveLocked C p inv handle g bound route state) := by
  refine reports_call.bind fun cancelled _ => ?_
  split
  · trivial
  refine reports_call.bind fun now _ => ends_call.bind fun charged hcharged => ?_
  split
  · exact hcharged.1 _ rfl
  refine reports_allocateAfter.attempt.bind fun res hres => ?_
  split
  · exact reports_call.bind fun _ _ => trivial
  · trivial
  · trivial
  · exact hres

lemma reports_serveAllocation (fuel retries : Nat) :
    Reports C p earliest (serveAllocation C p inv handle g bound route leaseFuel fuel retries) := by
  induction fuel generalizing retries with
  | zero => trivial
  | succ fuel ih =>
    refine reports_checkRequestCancellation.bind fun _ _ => reports_call.bind fun _ _ => ?_
    refine ends_call.bind fun admitted hadmitted => ?_
    split
    · exact hadmitted.1 _ rfl
    refine reports_call.bind fun state _ => ends_serveLocked.attempt.bind fun out hout => ?_
    refine reports_call.bind fun _ _ => ?_
    split
    · exact hout
    · trivial
    · split
      · split
        · exact reports_checkRequestCancellation.bind fun _ _ => ih 0
        · trivial
      · exact ih _
    · exact reports_refreshGeneratorLeaseIfUnchanged.bind fun _ _ => trivial
    · refine Prog.Ends.bind (Q := fun _ => True) ?_ fun _ _ => ih retries
      unfold waitForFutureBorrowError
      split
      · exact reports_checkRequestCancellation
      · trivial
    · exact hout

lemma reports_serveIfUnchanged {checked : TimelineState} :
    Reports C p earliest (serveIfUnchanged C p inv handle g bound checked fuel) := by
  refine reports_call.bind fun post _ => ?_
  split
  · exact reports_call.bind fun _ _ => trivial
  unfold serveAllocationFromTimelineStateHandle
  split
  · next h => exact direct_ensureGeneratorIdRange.error h
  · exact reports_serveAllocation fuel 0

lemma reports_cachedTimelineStillMatchesMetadata {state : TimelineLifecycleState} :
    Reports C p earliest (cachedTimelineStillMatchesMetadata C p key route state) := by
  refine reports_loadTimelineWithSingleflight.bind fun found _ => ?_
  split
  · trivial
  refine ends_call.bind fun found hfound => ?_
  split
  · exact hfound.1 _ rfl
  · trivial
  · trivial

lemma direct_of_not_ready {state : TimelineLifecycleState} (hready : timelineIsReady state = false)
    (hst : state ≠ .recovering) : (directPublicUnavailability state).isSome := by
  cases state with
  | active => cases hready
  | recovering => exact absurd rfl hst
  | creating | draining | locked => rfl

lemma reports_tryServeTimelineStateHandleWithGuard {revalidate : Bool} : Reports C p earliest
      (tryServeTimelineStateHandleWithGuard C p inv handle g bound revalidate fuel) := by
  refine reports_checkRequestCancellation.bind fun _ _ => ends_call.bind fun current hcurrent => ?_
  dsimp only
  split
  · next h =>
    refine reports_call.bind fun _ _ => direct_of_not_ready ?_ hcurrent.2
    simp only [Bool.and_eq_true, Bool.not_eq_true'] at h
    exact h.2
  · split
    · exact reports_call.bind fun _ _ => trivial
    split
    · trivial
    split
    · refine reports_cachedTimelineStillMatchesMetadata.bind fun still _ => ?_
      split
      · exact reports_serveIfUnchanged
      · exact reports_call.bind fun _ _ => trivial
    · exact reports_serveIfUnchanged

lemma reports_tryAllocateFromCachedTimeline :
    Reports C p earliest (tryAllocateFromCachedTimeline C p inv fuel) := by
  refine reports_call.bind fun found _ => ?_
  split
  · trivial
  refine ends_call.bind fun cached hcached => ?_
  dsimp only
  split
  · split
    · refine reports_call.bind fun now _ => reports_call.bind fun bound _ => ?_
      split
      · next h => exact direct_validateBatchForRoute.error h
      · exact reports_tryServeTimelineStateHandleWithGuard
      refine reports_cachedTimelineStillMatchesMetadata.bind fun still _ => ?_
      split
      · refine reports_ensureGeneratorLeaseForAllocation.attempt.bind fun res _ => ?_
        split
        · exact reports_tryServeTimelineStateHandleWithGuard
        · exact reports_call.bind fun _ _ => trivial
      · exact reports_call.bind fun _ _ => trivial
    · next hready =>
      split
      · next h => exact direct_validateBatchForRoute.error h
      refine reports_cachedTimelineStillMatchesMetadata.bind fun still _ => ?_
      split
      · refine reports_call.bind fun _ _ => direct_of_not_ready ?_ hcached.2
        exact Bool.not_eq_true _ ▸ hready
      · exact reports_call.bind fun _ _ => trivial
  · split
    · exact reports_call.bind fun _ _ => trivial
    · trivial

lemma reports_serveFromMetadata {record : TimelineRecord}
    (hrecord : Activatable C p earliest record) :
    Reports C p earliest (serveFromMetadata C p inv record rev fuel) := by
  refine (ends_activateLocalTimelineRecord fuel record rev hrecord).attempt.bind fun res hres => ?_
  split
  · trivial
  · exact hres
  split
  · next h =>
    refine reports_call.bind fun _ _ => direct_of_not_ready ?_ hres
    simpa only [Bool.not_eq_true'] using h
  refine reports_ensureGeneratorLeaseForAllocation.bind fun bound _ => ?_
  exact reports_timelineStateHandleFromRecord.bind fun handle _ =>
    reports_tryServeTimelineStateHandleWithGuard

lemma reports_allocateTimestampsAfterValidation (fuel : Nat) :
    Reports C p earliest (allocateTimestampsAfterValidation C p inv leaseFuel fuel) := by
  induction fuel with
  | zero => trivial
  | succ fuel ih =>
    refine Prog.Ends.bind (Q := fun _ => True) ?_ fun _ _ => ?_
    · refine reports_call.bind fun closing _ => ?_
      split <;> trivial
    refine reports_checkRequestCancellation.bind fun _ _ => ?_
    refine reports_tryAllocateFromCachedTimeline.bind fun served _ => ?_
    split
    · trivial
    refine reports_loadTimelineWithSingleflight.bind fun found hfound => ?_
    split
    · trivial
    split
    · next h => exact reports_call.bind fun _ _ => direct_checkLoadedTimeline.error h
    · next h => exact direct_validateBatchForRoute.error h
    refine (reports_serveFromMetadata (hfound _ rfl)).bind fun served _ => ?_
    split
    · trivial
    · exact ih

end

lemma direct_validateTimelineKey : Direct (validateTimelineKey key) := by
  unfold validateTimelineKey
  split_ifs <;> trivial

lemma direct_validateClientRequestId {id : String} : Direct (validateClientRequestId id) := by
  unfold validateClientRequestId
  split_ifs <;> trivial

lemma reports_allocateTimestamps {request : AllocateTimestampsRequest} {cancellable : Bool}
    {fuel : Nat} : Reports C p earliest (allocateTimestamps C p request cancellable fuel) := by
  refine reports_call.bind fun ⟨seen, invokedEpoch⟩ _ => ?_
  dsimp only
  split
  · next h => exact direct_validateTimelineKey.error h
  · next h => exact direct_validateClientRequestId.error h
  split
  · trivial
  split
  · trivial
  · exact reports_allocateTimestampsAfterValidation fuel

end

section

/-- An allocation that fails because its timeline is not ready reports a state that the public
mapping expects, however its operations were answered within `Shown`. -/
theorem allocation_reports_direct_states (C : Cluster) (p earliest : Nat)
    (request : AllocateTimestampsRequest) (cancellable : Bool) (fuel : Nat)
    (history : List (Exchange sig)) (key : String) (state : TimelineLifecycleState)
    (hran : (allocateTimestamps C p request cancellable fuel).Ran history
      (.fail (.timelineNotReady key state)))
    (hshown : ∀ x ∈ history, Shown C p earliest x.op x.reply) :
    state ∈ [.creating, .draining, .locked] ∧
      ∀ debug, (timelineNotReadyPublicMapping debug state).isSome := by
  have hdirect := hran.ends reports_allocateTimestamps hshown
  exact ⟨directPublicUnavailability_isSome_iff.mp hdirect, mapping_isSome hdirect⟩

def drainingReply : (o : Op) → Option o.Reply
  | .invoke _ => some (0, 0)
  | .shutdownGate | .isCancelled => some false
  | .timelineHandle _ => some none
  | .loadTimelineShared _ =>
    some (.ok (some ({ createdTimelineRecord "k" "a:1" 0 .shared 10 with state := .draining }, 1)))
  | .removeTimeline _ => some ()
  | _ => none

lemma shown_drainingReply {o : Op} {r : o.Reply} (h : drainingReply o = some r) :
    Shown sampleCluster 0 0 o r := by
  cases o with
  | invoke | shutdownGate | isCancelled | timelineHandle | removeTimeline =>
    exact ⟨fun _ he => (by cases he), trivial⟩
  | loadTimelineShared key =>
    cases h
    exact ⟨fun _ he => (by cases he), fun hstate => (by cases hstate)⟩
  | _ => cases h

/-- An allocation on a draining timeline reports just that. -/
theorem allocation_reports_draining :
    ∃ history, (allocateTimestamps sampleCluster 0 (sampleRequest 1 1) false 5).Ran history
        (.fail (.timelineNotReady "k" .draining)) ∧
      TimelineLifecycleState.draining ∈ [TimelineLifecycleState.creating, .draining, .locked] := by
  have hanswer : (allocateTimestamps sampleCluster 0 (sampleRequest 1 1) false 5).answer
      drainingReply = some (.error (.timelineNotReady "k" .draining)) := by
    decide +kernel
  obtain ⟨history, hran, hreplies⟩ := Prog.exists_ran_of_answer hanswer
  exact ⟨history, hran, (allocation_reports_direct_states sampleCluster 0 0
    (sampleRequest 1 1) false
    5 history "k" .draining hran fun x hx => shown_drainingReply (hreplies x hx)).1⟩

end

/-- A timeline is handed to a worker whose clock is far behind: the worker finds it recovering,
beyond its catch-up budget, and reports that state, which fails the debug assertion. -/
theorem allocation_reports_recovering :
    ∃ s, Run sampleCluster unconditional (fun p => if p = 0 then 5000 else 10) s ∧
      ⟨1, .fail (.timelineNotReady "k" .recovering)⟩ ∈ s.threads ∧
      timelineNotReadyPublicMapping true .recovering = none := by
  have hrun : (script (machine sampleCluster) (code sampleCluster)
      (unconditional.guard sampleCluster) Op.usual
      (perform 0 0 (.ensureTimeline "k" .shared 5) 60 ++
        perform 1 0 (.allocate (sampleRequest 1 1) false 5) 60 ++
        perform 2 0 (.transferForRpc "k" "b:1" (some 1) .manual 5) 60 ++
        perform 3 1 (.allocate (sampleRequest 2 2) false 5) 60)
      (start fun p => if p = 0 then 5000 else 10)).any
      (fun s => s.failure 3 = some (1, .timelineNotReady "k" .recovering)) = true := by
    decide +kernel
  obtain ⟨s, hs, hfailure⟩ := Reach.exists_of_script hrun
  exact ⟨s, hs, Sys.mem_threads_of_failure (of_decide_eq_true hfailure), rfl⟩

end Chronos
