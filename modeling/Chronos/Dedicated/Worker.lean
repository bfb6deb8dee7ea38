import Chronos.Claims.Ledger
import Chronos.Service.Footprint
import Chronos.Service.System

/-! One worker that performs one call at a time: ensures and transfers of timelines, what the route
watch tells it, restarts. -/

namespace Chronos

open Interleaving Claims Option Function

/-- The generator that a route gives to its timeline alone, if the worker owns the timeline. -/
def Cluster.dedicatedSeat (C : Cluster) (p : Nat) (route : TimelineRoute) : Option Nat :=
  if route.resourceTier = .dedicated ∧ C.isLocalEndpoint p route.ownerWorkerEndpoint = true then
    some route.generatorId
  else none

namespace World

def route (w : World) (key : String) : Option TimelineRoute :=
  (w.timelines key).head?.map fun v => v.record.route

def ledger (C : Cluster) (p : Nat) (w : World) : Ledger Nat String where
  claim g := (w.runtime p g).dedicatedClaim
  seat key := (w.route key).bind (C.dedicatedSeat p)

def restarted (p : Nat) (w : World) : World :=
  { w with
    runtime := Function.update w.runtime p fun _ => {}
    handles := Function.update w.handles p fun _ => []
    cache := Function.update w.cache p fun _ => none }

end World

/-- What happens around the worker: its clock moves, idle cache entries are evicted, and other
workers create timelines they own and write generator records. -/
inductive Around where
  | tick (now : Nat)
  | evict (key : String)
  | timelineCreated (key : String) (record : TimelineRecord)
  | generatorWritten (generatorId : Nat) (record : GeneratorRecord) (writer : Nat)
      (write : GeneratorWrite)
  deriving DecidableEq

def around (C : Cluster) (p : Nat) (w : World) : Around → Option World
  | .tick now => environment w (.tick p now)
  | .evict key => some (w.apply p (.uncache key))
  | .timelineCreated key record =>
    if (w.timelines key).isEmpty && !C.isLocalEndpoint p record.route.ownerWorkerEndpoint then
      some (w.apply p (.commitTimeline key ⟨w.revision + 1, record, .create⟩))
    else none
  | .generatorWritten g record writer write =>
    some (w.apply p (.commitGenerators [(g, ⟨w.revision + 1, record, writer, write⟩)]))

/-- With one call at a time every load is the call's own, and only a request that has been answered
or done can be told that the record exists. -/
def inTurn : Op → Choice → Bool
  | .loadTimelineShared _, .version i => i == 0
  | .createTimeline .., .store (.down .metadataAlreadyExists) => false
  | _, _ => true

def workerMachine (C : Cluster) (p : Nat) : Machine sig Nat Choice Around World where
  exec q o c w := if inTurn o c then (machine C).exec q o c w else none
  env e w := around C p w e

inductive WorkerCall where
  | ensureTimeline (timelineKey : String) (tier : ResourceTier) (fuel : Nat)
  | transferForRpc (timelineKey targetOwnerEndpoint : String) (targetGeneratorId : Option Nat)
      (reason : TransferReason) (fuel : Nat)
  | transfer (timelineKey : String) (tier : ResourceTier) (targetOwnerEndpoint : String)
      (targetGeneratorId : Option Nat) (fuel : Nat)
  | routeUpdate (updated : TimelineRoute)
  | routeReset
  deriving DecidableEq

def workerCode (C : Cluster) (p : Nat) : WorkerCall → Service Unit
  | .ensureTimeline key tier fuel => do
    let _ ← ensureTimelineWithTier C p key tier fuel
    return ()
  | .transferForRpc key endpoint target reason fuel => do
    let _ ← transferTimelineForRpc C p key endpoint target reason fuel
    return ()
  | .transfer key tier endpoint target fuel => do
    let _ ← transferTimeline C p key tier endpoint target fuel
    return ()
  | .routeUpdate updated => invalidateTimelineCacheForRouteUpdate C updated
  | .routeReset => resetTimelineCache

abbrev WorkerState := Single sig World WorkerCall TsoError Unit

abbrev WorkerTurn := Turn WorkerCall Choice Around

abbrev WorkerRun (C : Cluster) (p : Nat) (G : WorkerState → WorkerTurn → Prop) (clock : Nat → Nat)
    (s : WorkerState) : Prop :=
  Transition.Reach (turn (workerMachine C p) p (workerCode C p) (World.restarted p)) G
    ⟨.initial clock, none⟩ s

def dedicatedCluster : Cluster :=
  { sampleCluster with
    worker := fun p => { sampleCluster.worker p with sharedGenerators := 2 } }

variable {C : Cluster} {p g : Nat} {key key' : String} {w w' : World} {e : Effect}

section

lemma World.route_apply (h : e.part ≠ .records) : (w.apply p e).route key = w.route key := by
  rw [World.route, World.route, World.timelines_apply h]

lemma World.ledger_apply (hrecords : e.part ≠ .records) (hclaims : e.part ≠ .claims) :
    (w.apply p e).ledger C p = w.ledger C p := by
  simp only [World.ledger, World.route_apply hrecords, World.claim_apply hclaims]

lemma World.ledger_take : (w.apply p (.setClaim g (some key))).ledger C p =
    (w.ledger C p).take g key := by
  simp only [World.ledger, Ledger.take, World.apply]
  congr 1
  funext g'
  rw [World.setRuntime_runtime, update_apply]
  split_ifs with h h' h' <;> simp_all

lemma World.ledger_release :
    (w.apply p (if (w.runtime p g).dedicatedClaim = some key then .setClaim g none
      else .none)).ledger
      C p = (w.ledger C p).release g key := by
  show _ = if (w.runtime p g).dedicatedClaim = some key then _ else _
  split_ifs
  · simp only [World.ledger, World.apply]
    congr 1
    funext g'
    rw [World.setRuntime_runtime, update_apply]
    split_ifs with h h' h' <;> simp_all
  · rfl

lemma World.ledger_clear : (w.apply p .clearClaims).ledger C p = (w.ledger C p).clear := by
  simp only [World.ledger, Ledger.clear, World.apply, update_self]
  rfl

variable {v : TimelineVersion}

lemma World.route_commit : (w.apply p (.commitTimeline key v)).route key' =
      if key' = key then some v.record.route else w.route key' := by
  simp only [World.route, World.apply, update_apply]
  split_ifs <;> rfl

lemma World.ledger_commit : (w.apply p (.commitTimeline key v)).ledger C p =
      (w.ledger C p).assign key (C.dedicatedSeat p v.record.route) := by
  simp only [World.ledger, Ledger.assign]
  congr 1
  funext key'
  rw [World.route_commit, update_apply]
  split_ifs <;> rfl

lemma World.ledger_commit_same (h : w.route key = some v.record.route) :
    (w.apply p (.commitTimeline key v)).ledger C p = w.ledger C p := by
  simp only [World.ledger]
  congr 1
  funext key'
  rw [World.route_commit]
  split_ifs with heq
  · rw [heq, h]
  · rfl

lemma World.ledger_restarted : (w.restarted p).ledger C p = (w.ledger C p).clear := by
  simp only [World.ledger, Ledger.clear, World.restarted, update_self]
  rfl

end

/-- What others can do to the world between two operations of the worker: nothing to the ledger,
nothing to a timeline that exists, and nothing at all to the timelines in `fixed`. -/
structure Drifts (C : Cluster) (p : Nat) (fixed : String → Prop) (w w' : World) : Prop where
  ledger : w'.ledger C p = w.ledger C p
  kept : ∀ key route, w.route key = some route → w'.route key = some route
  absent : ∀ key, fixed key → w'.route key = w.route key

variable {fixed : String → Prop}

lemma drifts_of_around {ev : Around} (h : around C p w ev = some w')
    (hfixed : ∀ key record, ev = .timelineCreated key record → ¬ fixed key) :
    Drifts C p fixed w w' := by
  have hsame : ∀ e, e.part = .rest ∨ e.part = .cache → Drifts C p fixed w (w.apply p e) := by
    intro e he
    have hrecords : e.part ≠ .records := by rcases he with he | he <;> simp [he]
    have hclaims : e.part ≠ .claims := by rcases he with he | he <;> simp [he]
    exact ⟨World.ledger_apply hrecords hclaims, fun key _ hr => by rwa [World.route_apply hrecords],
      fun key _ => World.route_apply hrecords⟩
  cases ev with
  | tick now =>
    simp only [around, environment] at h
    split_ifs at h
    cases h
    exact ⟨rfl, fun _ _ => id, fun _ _ => rfl⟩
  | evict key => exact Option.some.inj h ▸ hsame _ (.inr rfl)
  | generatorWritten g record writer write => exact Option.some.inj h ▸ hsame _ (.inl rfl)
  | timelineCreated key record =>
    simp only [around] at h
    split_ifs at h with hnew
    cases h
    obtain ⟨hempty, hforeign⟩ := Bool.and_eq_true_iff.mp hnew
    have hnone : w.route key = none := by simp [World.route, List.isEmpty_iff.mp hempty]
    refine ⟨?_, fun key' route hroute => ?_, fun key' hkey => ?_⟩
    · -- the new timeline belongs to another worker
      have hseat : C.dedicatedSeat p record.route = none := by
        simp only [Bool.not_eq_true', ← Bool.not_eq_true] at hforeign
        simp [Cluster.dedicatedSeat, hforeign]
      simp only [World.ledger]
      congr 1
      funext key'
      rw [World.route_commit]
      split_ifs with heq
      · rw [heq, hnone]
        exact hseat
      · rfl
    · rw [World.route_commit, if_neg, hroute]
      rintro rfl
      cases hnone.symm.trans hroute
    · rw [World.route_commit, if_neg]
      rintro rfl
      exact hfixed key' record rfl hkey

def workerSetting (C : Cluster) (p : Nat) (allowed : Op → Choice → World → Prop)
    (fixed : String → Prop) : Setting sig Nat Choice Around World where
  machine := workerMachine C p
  actor := p
  Allowed := allowed
  Drift := Drifts C p fixed
  drift_refl _ := ⟨rfl, fun _ _ => id, fun _ _ => rfl⟩
  drift_trans h₁ h₂ := ⟨h₂.ledger.trans h₁.ledger,
    fun key route hr => h₂.kept key route (h₁.kept key route hr),
    fun key hkey => (h₂.absent key hkey).trans (h₁.absent key hkey)⟩

lemma workerExec_cases {o : Op} {c : Choice} {r : o.Reply}
    (h : (workerMachine C p).exec p o c w = some (r, w')) :
    inTurn o c = true ∧ ∃ e, act C p w o c = some (r, e) ∧ w' = w.apply p e := by
  simp only [workerMachine] at h
  split_ifs at h with hturn
  exact ⟨hturn, exec_cases h⟩

end Chronos
