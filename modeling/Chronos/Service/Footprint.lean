import Chronos.Interleaving.Sequential
import Chronos.Service.Transfer

/-! What the code leaves alone. Lease code never touches a timeline record, a dedicated claim or a
cached timeline, and most of the other operations touch neither records of timelines nor claims. -/

namespace Chronos

open Interleaving Option

/-- The parts of the world that belong to timelines, and the rest of it. -/
inductive Part where
  | records
  | claims
  | cache
  | rest
  deriving DecidableEq

def Effect.part : Effect → Part
  | .commitTimeline .. => .records
  | .setClaim .. | .clearClaims => .claims
  | .newHandle .. | .uncache _ | .uncacheAll | .setHandle .. | .lock .. | .unlock .. => .cache
  | _ => .rest

def Op.part : Op → Part
  | .createTimeline .. | .compareExchangeTimeline .. => .records
  | .claimDedicated .. | .releaseDedicated .. | .clearDedicatedClaims => .claims
  | .timelineHandleOrInsert .. | .insertTimeline .. | .removeTimeline _ | .clearTimelines
  | .syncHandle .. | .lockHandle .. | .unlockHandle .. | .storeHandle .. => .cache
  | _ => .rest

variable {C : Cluster} {p g : Nat} {w w' : World} {o : Op} {c : Choice} {r : o.Reply} {e : Effect}

lemma part_of_act (h : act C p w o c = some (r, e)) : e.part = o.part ∨ e.part = .rest := by
  cases o with
  | createGenerator | compareExchangeGenerator | compareExchangeGenerators =>
    cases c <;> simp only [act, reduceCtorEq] at h
    obtain ⟨-, rfl, -⟩ | ⟨rfl, -⟩ := storeWrite_cases (some.inj h) <;> exact .inr rfl
  | createTimeline | compareExchangeTimeline =>
    cases c <;> simp only [act, reduceCtorEq] at h
    obtain ⟨-, rfl, -⟩ | ⟨rfl, -⟩ := storeWrite_cases (some.inj h)
    · exact .inl rfl
    · exact .inr rfl
  | claimedGeneratorForTimeline | acquireFlight | compareExchangeNextIndex =>
    cases c <;> simp only [act, reduceCtorEq] at h <;> split_ifs at h <;>
      (obtain ⟨-, rfl⟩ := Prod.mk.inj (some.inj h); exact .inr rfl)
  | timelineHandleOrInsert | claimDedicated =>
    cases c <;> simp only [act, reduceCtorEq] at h
    split at h <;> obtain ⟨-, rfl⟩ := Prod.mk.inj (some.inj h)
    · exact .inr rfl
    · exact .inl rfl
  | readHandle | syncHandle | lockHandle =>
    cases c <;> simp only [act, map_eq_some_iff, reduceCtorEq] at h
    obtain ⟨state, -, heq⟩ := h
    obtain ⟨-, rfl⟩ := Prod.mk.inj heq
    exact .inl rfl
  | insertTimeline | releaseDedicated =>
    cases c <;> simp only [act, reduceCtorEq] at h
    cases h
    split_ifs
    · exact .inl rfl
    · exact .inr rfl
  | validLeaseUpperBoundForOwner =>
    cases c <;> simp only [act, reduceCtorEq] at h
    cases h
    split_ifs <;> exact .inr rfl
  | _ =>
    cases c <;> simp only [act, reduceCtorEq] at h <;>
      (obtain ⟨-, rfl⟩ := Prod.mk.inj (some.inj h); exact .inl rfl)

lemma World.timelines_apply (h : e.part ≠ .records) : (w.apply p e).timelines = w.timelines := by
  cases e with
  | commitTimeline => exact absurd rfl h
  | newHandle key state cached =>
    simp only [World.apply]
    split_ifs <;> rfl
  | _ => rfl

lemma World.claim_setRuntime {x : GeneratorRuntime}
    (h : x.dedicatedClaim = (w.runtime p g).dedicatedClaim) (q g' : Nat) :
    ((w.setRuntime p g x).runtime q g').dedicatedClaim = (w.runtime q g').dedicatedClaim := by
  rw [World.setRuntime_runtime]
  split_ifs with hq
  · rw [hq.1, hq.2, h]
  · rfl

lemma World.claim_apply (h : e.part ≠ .claims) (q g : Nat) :
    ((w.apply p e).runtime q g).dedicatedClaim = (w.runtime q g).dedicatedClaim := by
  cases e with
  | setClaim | clearClaims => exact absurd rfl h
  | setLease | setReady | advance | setFlight | issue => exact World.claim_setRuntime (by rfl) q g
  | newHandle key state cached =>
    simp only [World.apply]
    split_ifs <;> rfl
  | clearLeases =>
    simp only [World.apply, Function.update_apply]
    split_ifs with hq
    · rw [hq]
    · rfl
  | _ => rfl

lemma World.handles_apply (h : e.part ≠ .cache) : (w.apply p e).handles = w.handles := by
  cases e with
  | newHandle | uncache | uncacheAll | setHandle | lock | unlock => exact absurd rfl h
  | _ => rfl

lemma World.cache_apply (h : e.part ≠ .cache) : (w.apply p e).cache = w.cache := by
  cases e with
  | newHandle | uncache | uncacheAll | setHandle | lock | unlock => exact absurd rfl h
  | _ => rfl

lemma exec_cases (h : (machine C).exec p o c w = some (r, w')) :
    ∃ e, act C p w o c = some (r, e) ∧ w' = w.apply p e := by
  obtain ⟨⟨r', e⟩, hact, heq⟩ := map_eq_some_iff.mp h
  obtain ⟨rfl, rfl⟩ := Prod.mk.inj heq
  exact ⟨e, hact, rfl⟩

lemma part_ne_of_act {x : Part} (h : act C p w o c = some (r, e)) (ho : o.part ≠ x)
    (hrest : x ≠ .rest) : e.part ≠ x := by
  rcases part_of_act h with heq | heq <;> rw [heq]
  · exact ho
  · exact hrest.symm

section

def Op.leasing (o : Op) : Prop := o.part = .rest

/-- The operations of the lease code of one generator, while it holds the flight. -/
def Op.leases (g : Nat) : Op → Prop
  | .nowMs | .isCancelled | .retryBudgetLeft => True
  | .loadGenerator g' | .createGenerator g' _ | .compareExchangeGenerator _ g' _ _
  | .leaseState g' | .leaseValidForOwner g' _ | .validLeaseUpperBoundForOwner g' _ _
  | .loadNextIndex g' | .fetchMaxNextIndex g' _ | .markReadyForLease g' _ | .upsertLease g' _
  | .dropLease g' | .clearReadyLease g' => g' = g
  | _ => False

lemma Op.leases.leasing (h : o.leases g) : o.leasing := by cases o <;> first | rfl | cases h

variable {α : Type}

lemma uses_call (h : o.part = .rest) : (call o).Uses Op.leasing := Prog.uses_op h

lemma leases_call (h : o.leases g) : (call o).Uses (Op.leases g) := Prog.uses_op h

lemma leasing_of_leases {prog : Service α} (h : prog.Uses (Op.leases g)) : prog.Uses Op.leasing :=
  h.imp fun _ => Op.leases.leasing

lemma leases_checkRequestCancellation : checkRequestCancellation.Uses (Op.leases g) := by
  refine (leases_call (by exact trivial)).bind fun cancelled => ?_
  split <;> trivial

lemma uses_checkRequestCancellation : checkRequestCancellation.Uses Op.leasing :=
  leasing_of_leases (g := 0) leases_checkRequestCancellation

variable {retry : Service Unit} {floor : Option Nat} {rev fuel : Nat} {body : Service α}
  {key : String}

lemma uses_backoffAfterMetadataContention {P : Op → Prop} (hbudget : P .retryBudgetLeft)
    (h : retry.Uses P) : (backoffAfterMetadataContention retry).Uses P := by
  refine (Prog.uses_op hbudget).bind fun left => ?_
  split
  · exact h
  · trivial

lemma leases_isGeneratorLeaseValid : (isGeneratorLeaseValid g).Uses (Op.leases g) :=
  (leases_call (by exact trivial)).bind fun _ => leases_call (by exact rfl)

lemma leases_initAfterFloor : (initAfterFloor C g floor).Uses (Op.leases g) := by
  unfold initAfterFloor
  split
  · trivial
  split
  · trivial
  · exact leases_call (by exact rfl)

lemma leases_installLease {lease : GeneratorLeaseState} :
    (installLease g lease).Uses (Op.leases g) :=
  (leases_call (by exact rfl)).bind fun _ => leases_call (by exact rfl)

lemma leases_currentLastIssuedTso : (currentLastIssuedTso C g).Uses (Op.leases g) :=
  (leases_call (by exact rfl)).bind fun _ => Prog.uses_ofExcept

lemma leases_checked (h : retry.Uses (Op.leases g)) :
    (do checkRequestCancellation; retry).Uses (Op.leases g) :=
  leases_checkRequestCancellation.bind fun _ => h

lemma leases_takeOverGeneratorLease {record : GeneratorRecord} {now : Nat}
    (h : retry.Uses (Op.leases g)) :
    (takeOverGeneratorLease C p g record rev now retry).Uses (Op.leases g) := by
  unfold takeOverGeneratorLease
  split
  · trivial
  refine (leases_call (by exact rfl)).bind fun res => ?_
  split
  · exact leases_initAfterFloor.bind fun _ => leases_installLease
  · exact uses_backoffAfterMetadataContention (by exact trivial) (leases_checked h)
  · trivial

lemma leases_createGeneratorLease (h : retry.Uses (Op.leases g)) :
    (createGeneratorLease C p g retry).Uses (Op.leases g) := by
  refine (leases_call (by exact trivial)).bind fun now => (leases_call (by exact rfl)).bind
    fun res => ?_
  split
  · exact leases_installLease
  · exact uses_backoffAfterMetadataContention (by exact trivial) (leases_checked h)
  · trivial

lemma leases_adoptGeneratorLease {record : GeneratorRecord} (h : retry.Uses (Op.leases g)) :
    (adoptGeneratorLease C p g record rev retry).Uses (Op.leases g) := by
  refine (leases_call (by exact trivial)).bind fun now => ?_
  dsimp only
  split
  · split
    · trivial
    split
    · exact leases_initAfterFloor.bind fun _ => leases_installLease
    · trivial
  · split
    · exact leases_takeOverGeneratorLease h
    · trivial

lemma leases_acquireGeneratorLease (fuel : Nat) :
    (acquireGeneratorLease C p g fuel).Uses (Op.leases g) := by
  induction fuel with
  | zero => trivial
  | succ fuel ih =>
    refine leases_checkRequestCancellation.bind fun _ => (leases_call (by exact rfl)).bind
      fun found => ?_
    split
    · trivial
    · exact leases_adoptGeneratorLease ih
    · exact leases_createGeneratorLease ih

lemma leases_ensureGeneratorLeaseAfterSingleflight :
    (ensureGeneratorLeaseAfterSingleflight C p g fuel).Uses (Op.leases g) := by
  unfold ensureGeneratorLeaseAfterSingleflight
  split
  · trivial
  split
  · refine leases_isGeneratorLeaseValid.bind fun valid => ?_
    split
    · trivial
    · exact leases_acquireGeneratorLease fuel
  · trivial

lemma uses_withGeneratorLeaseSingleflight (h : body.Uses Op.leasing) :
    (withGeneratorLeaseSingleflight g body).Uses Op.leasing :=
  uses_checkRequestCancellation.bind fun _ => (uses_call (by rfl)).bind fun _ =>
    h.attempt.bind fun _ => (uses_call (by rfl)).bind fun _ => Prog.uses_ofExcept

lemma uses_ensureGeneratorLease : (ensureGeneratorLease C p g fuel).Uses Op.leasing := by
  refine uses_withGeneratorLeaseSingleflight (leasing_of_leases
    (leases_checkRequestCancellation.bind fun _ =>
      leases_isGeneratorLeaseValid.bind fun valid => ?_))
  split
  · trivial
  · exact leases_ensureGeneratorLeaseAfterSingleflight

lemma uses_requiredJumpMsForGenerator {safeFloor : Nat} :
    (requiredJumpMsForGenerator C g safeFloor).Uses Op.leasing := by
  refine Prog.Uses.bind ?_ fun floor => ?_
  · unfold currentGeneratorFloor
    split
    · trivial
    · refine (leasing_of_leases leases_currentLastIssuedTso).bind fun last =>
        (uses_call (by rfl)).bind fun found => ?_
      split <;> trivial
  · split
    · trivial
    · split <;> trivial

lemma uses_validateRecoveryCatchupBudgetForTarget :
    (validateRecoveryCatchupBudgetForTarget C p g floor).Uses Op.leasing := by
  unfold validateRecoveryCatchupBudgetForTarget
  split
  · trivial
  · refine uses_requiredJumpMsForGenerator.bind fun jump => ?_
    split <;> trivial

lemma uses_cachedLastIssuedTso : (cachedLastIssuedTso key).Uses Op.leasing := by
  refine (uses_call (by rfl)).bind fun handle => ?_
  split
  · trivial
  · exact (uses_call (by rfl)).bind fun _ => trivial

lemma uses_prepareTransferApplication {record : TimelineRecord} {reason : TransferReason} :
    (prepareTransferApplication C p key record reason).Uses Op.leasing := by
  refine (uses_call (by rfl)).bind fun now => (uses_call (by rfl)).bind fun found => ?_
  split
  · trivial
  dsimp only
  split
  · split <;> trivial
  split
  · exact uses_cachedLastIssuedTso.bind fun _ => trivial
  · trivial

end

section

def Op.choosing (o : Op) : Prop := o.part = .rest ∨ o.part = .claims

variable {key : String} {route : TimelineRoute} {plan : TransferPlan} {floor : Option Nat}
  {selection : TransferTargetSelection} {α : Type}

lemma uses_claim (h : o.part = .claims) : (call o).Uses Op.choosing := Prog.uses_op (.inr h)

lemma choosing_of_leasing {prog : Service α} (h : prog.Uses Op.leasing) :
    prog.Uses Op.choosing := h.imp fun _ => .inl

lemma uses_claimSpecificDedicated : (claimSpecificDedicated C p g key).Uses Op.choosing := by
  unfold claimSpecificDedicated
  split
  · trivial
  · exact (uses_claim (by rfl)).bind fun _ => Prog.uses_ofExcept

lemma uses_claimFirstDedicated (generators : List Nat) :
    (claimFirstDedicated C p key generators).Uses Op.choosing := by
  induction generators with
  | nil => trivial
  | cons g rest ih =>
    unfold claimFirstDedicated
    split
    · refine (uses_claim (by rfl)).bind fun claimed => ?_
      split
      · trivial
      · exact ih
      · trivial
    · exact ih

lemma uses_claimDedicated : (claimDedicated C p key).Uses Op.choosing := by
  refine (Prog.uses_op (.inl rfl)).bind fun held => ?_
  split
  · trivial
  · exact uses_claimFirstDedicated _

lemma uses_pickGeneratorId (tier : ResourceTier) :
    (pickGeneratorId C p key tier).Uses Op.choosing := by
  cases tier with
  | dedicated => exact uses_claimDedicated.bind fun _ => trivial
  | _ => exact Prog.uses_ofExcept

lemma uses_releaseClaimedDedicatedIfNeeded {claimed : Option (Nat × Bool)} :
    (releaseClaimedDedicatedIfNeeded key route claimed).Uses Op.choosing := by
  unfold releaseClaimedDedicatedIfNeeded
  split
  · trivial
  split
  · exact uses_claim (by rfl)
  · trivial

lemma uses_rejectTransfer {err : TsoError} :
    (rejectTransfer key route selection err : Service α).Uses Op.choosing :=
  uses_releaseClaimedDedicatedIfNeeded.bind fun _ => trivial

lemma uses_releasePreviousDedicated {target : TransferTarget} :
    (releasePreviousDedicated key route target).Uses Op.choosing := by
  unfold releasePreviousDedicated
  split
  · exact uses_claim (by rfl)
  · trivial

lemma uses_firstTransferTarget : (firstTransferTarget C p key plan).Uses Op.choosing := by
  unfold firstTransferTarget
  split
  · split
    · trivial
    split
    · exact uses_claimSpecificDedicated.bind fun _ => trivial
    · trivial
  · split
    · exact uses_claimDedicated.bind fun _ => trivial
    · exact (uses_pickGeneratorId _).bind fun _ => trivial

lemma uses_isolateJumpAhead : (isolateJumpAhead C p key plan floor selection).Uses Op.choosing := by
  unfold isolateJumpAhead
  split
  · trivial
  split
  · trivial
  refine (choosing_of_leasing uses_requiredJumpMsForGenerator).bind fun jump => ?_
  split
  · split
    · trivial
    · exact uses_claimDedicated.bind fun _ => trivial
  · trivial

lemma uses_checkTransferTarget : (checkTransferTarget C p key route plan selection).Uses
    Op.choosing := by
  unfold checkTransferTarget
  dsimp only
  split
  · split
    · trivial
    · exact uses_rejectTransfer
  split
  · trivial
  split
  · exact uses_rejectTransfer
  refine (Prog.uses_op (.inl rfl)).bind fun found => ?_
  split
  · trivial
  · trivial
  refine (Prog.uses_op (.inl rfl)).bind fun now => ?_
  split
  · exact uses_rejectTransfer
  · trivial

lemma uses_selectTransferTarget :
    (selectTransferTarget C p key route plan floor).Uses Op.choosing := by
  refine uses_firstTransferTarget.bind fun first => uses_isolateJumpAhead.bind fun selection => ?_
  refine (choosing_of_leasing uses_validateRecoveryCatchupBudgetForTarget).attempt.bind
    fun budget => ?_
  split
  · exact uses_rejectTransfer
  · exact uses_checkTransferTarget

end

end Chronos
