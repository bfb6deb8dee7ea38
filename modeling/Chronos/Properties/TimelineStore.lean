import Chronos.StatusIndex.Writes

/-! What holds in every run of the programs on the timeline store: a current marker means that the
status indexes agree with the records, and timelines that are created under a limit stay within
it. -/

namespace Chronos

open Interleaving KeyValue

def IndexEntry.Keyed : IndexEntry → Prop
  | .rebuild .. => True
  | .create key record | .createWithLimit key record _ | .exchange key _ record => record.key = key
  | .exchangeBatch operations => ∀ x ∈ operations, x.record.key = x.timelineKey

def IndexEntry.Limited (maxTimelines : Nat) : IndexEntry → Prop
  | .create .. => False
  | .createWithLimit _ _ limit => limit = maxTimelines
  | _ => True

instance : DecidablePred IndexEntry.Keyed := fun entry => by
  cases entry <;> unfold IndexEntry.Keyed <;> infer_instance

instance (maxTimelines : Nat) : DecidablePred (IndexEntry.Limited maxTimelines) := fun entry => by
  cases entry <;> unfold IndexEntry.Limited <;> infer_instance

def keyedCalls : IndexGuard := { entry := fun _ entry => entry.Keyed }

def limitedCalls (maxTimelines : Nat) : IndexGuard :=
  { entry := fun _ entry => entry.Keyed ∧ entry.Limited maxTimelines }

variable {w₀ : IndexWorld} {s : IndexState} {maxTimelines : Nat}

def IndexOp.usual : IndexOp → IndexChoice
  | .isKnownLost _ | .deadlinePassed => .flag false
  | .retryAllowed => .flag true
  | _ => .done

def sampleIndexWorld (keys : List String) (marker : Option StatusValue) : IndexWorld where
  revision := keys.length
  routes := keys.mapIdx fun i key => ⟨key, sampleTimeline key .active, i + 1⟩
  status key := if key = timelineStatusIndexMarkerKey then marker else none
  lock _ := none
  leases := []
  nextLease := 1

lemma IndexRun.of_script (G : IndexGuard) [G.Checked] (w₀ : IndexWorld)
    (commands : List (Command Unit IndexEntry IndexChoice IndexEvent)) (P : IndexState → Bool)
    (h : (script indexMachine indexCode G IndexOp.usual commands ⟨w₀, []⟩).any P = true) :
    ∃ s, IndexRun G w₀ s ∧ P s = true :=
  Reach.exists_of_script h

instance : keyedCalls.Checked where
  entry _ entry := inferInstanceAs (Decidable entry.Keyed)

instance : (limitedCalls maxTimelines).Checked where
  entry _ entry := inferInstanceAs (Decidable (entry.Keyed ∧ entry.Limited maxTimelines))

lemma mem_commit_create {w : IndexWorld} {key : String} {record : TimelineRecord}
    {lock : Option Nat} {entry : RouteEntry} (hw : w.Wellformed)
    (hadmits : w.admits (.create key record lock) = true) (hentry : entry ∈ w.routes) :
    entry ∈ (w.commit (.create key record lock)).routes := by
  have hzero : w.routeRevision key = 0 := IndexWorld.admits_routeRevision hadmits List.mem_cons_self
  rw [IndexWorld.commit_create]
  exact (mem_routes_rewrite hw.advance).mpr
    (.inr ⟨hentry, hw.notMem_of_routeRevision hzero entry hentry⟩)

/-- Timelines that are all created under one limit stay within it, whenever the leases of the
creation lock expire, and a creation leaves every record as it is. -/
theorem timeline_limit_kept (hw : w₀.Wellformed) (h₀ : w₀.routes.length ≤ maxTimelines)
    (hrun : IndexRun (limitedCalls maxTimelines) w₀ s) :
    s.world.routes.length ≤ maxTimelines ∧
    ∀ (i : Nat) a key record lock k c s',
      s.threads[i]? = some ⟨a, .call (.txn (.create key record lock)) k⟩ →
      step indexMachine indexCode s (.call i c) = some s' →
      ∀ entry ∈ s.world.routes, entry ∈ s'.world.routes := by
  have hadmits : ∀ entry, (limitedCalls maxTimelines).entry () entry →
      (Duty.mk False (some maxTimelines)).Admits entry := by
    rintro entry ⟨hkeyed, hlimited⟩
    cases entry with
    | rebuild rounds pages => trivial
    | create key record => exact hlimited.elim
    | createWithLimit key record limit =>
      exact ⟨hkeyed, fun max hmax => (Option.some.inj hmax).symm.trans hlimited.symm⟩
    | exchange key revision record => exact hkeyed
    | exchangeBatch operations => exact hkeyed
  have hinv := hrun.inv hadmits ⟨hw, False.elim, fun max hmax => Option.some.inj hmax ▸ h₀⟩
  refine ⟨hinv.limit maxTimelines rfl, fun i a key record lock k c s' hi hstep entry hentry => ?_⟩
  obtain ⟨a', o, k', r, w, hi', hexec, rfl⟩ := step_call hstep
  obtain rfl : IndexOp.txn (.create key record lock) = o := by
    cases hi.symm.trans hi'
    rfl
  rcases IndexWorld.exec_txn hexec with ⟨hadmitted, rfl, -⟩ | ⟨rfl, -⟩
  · exact mem_commit_create hinv.wellformed hadmitted hentry
  · exact hentry

/-- Two workers create the last timeline. The first loses its lease between the count and the
creation; the answer to the creation of the second is lost. -/
theorem timeline_limit_kept_sample :
    ∃ s, IndexRun (limitedCalls 2) (sampleIndexWorld ["a"] none) s ∧
      s.world.routes.map RouteEntry.key = ["a", "c"] ∧ s.world.routes.length ≤ 2 := by
  obtain ⟨s, hrun, hst⟩ := IndexRun.of_script (limitedCalls 2) (sampleIndexWorld ["a"] none)
    [.label (.spawn () (.createWithLimit "b" (sampleTimeline "b" .active) 2)), .drive 0 5,
      .label (.env (.expire 1)),
      .label (.spawn () (.createWithLimit "c" (sampleTimeline "c" .active) 2)), .drive 1 5,
      .label (.call 1 (.lost "timed out")), .drive 0 20, .drive 1 20]
    (fun s => s.world.routes.map RouteEntry.key = ["a", "c"])
    (by decide +kernel)
  refine ⟨s, hrun, of_decide_eq_true hst, (timeline_limit_kept ⟨?_, ?_, ?_, ?_⟩ ?_ hrun).1⟩
  all_goals decide +kernel

end Chronos
