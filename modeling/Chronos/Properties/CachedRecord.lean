import Chronos.RouteWatch.UpdateLoop

/-! The record behind a cached timeline. A record is read from the store, or written to it, some
awaits before it is put into the cache of the worker. -/

namespace Chronos

open Interleaving Discipline List

def logged (C : Cluster) (p : Nat) (entry : Entry) : Service (Nat × Entry) := do
  let _ ← code C p entry
  return (p, entry)

abbrev LoggedState := Sys sig Nat World TsoError (Nat × Entry)

abbrev LoggedRun (C : Cluster) (K : Condition) : LoggedState → LoggedState → Prop :=
  Reach (machine C) (logged C) (K.guard C)

def loggedStart (clock : Nat → Nat) : LoggedState := ⟨World.initial clock, []⟩

def Processed (s : LoggedState) (p : Nat) (updated : TimelineRoute) : Prop :=
  ∃ i, s.result i = some (p, .routeUpdate updated)

namespace World

def cached (w : World) (p : Nat) (key : String) : Option (Nat × TimelineState) :=
  (w.cache p key).bind fun h => (w.handles p key)[h]?.map fun hd => (h, hd.state)

lemma cached_eq_some {w : World} {p h : Nat} {key : String} {state : TimelineState} :
    w.cached p key = some (h, state) ↔
      w.cache p key = some h ∧ ∃ hd, (w.handles p key)[h]? = some hd ∧ hd.state = state := by
  simp only [cached, Option.bind_eq_some_iff, Option.map_eq_some_iff, Prod.mk.injEq]
  constructor
  · rintro ⟨h', hcache, hd, hget, rfl, hst⟩
    exact ⟨hcache, hd, hget, hst⟩
  · rintro ⟨hcache, hd, hget, hst⟩
    exact ⟨h, hcache, hd, hget, rfl, hst⟩

end World

namespace TimelineState

def SameRecord (state state' : TimelineState) : Prop :=
  state.revision = state'.revision ∧ state.route = state'.route

instance (state state' : TimelineState) : Decidable (state.SameRecord state') :=
  inferInstanceAs (Decidable (_ ∧ _))

structure NotAfter (state state' : TimelineState) : Prop where
  revision : state.revision ≤ state'.revision
  epoch : state.route.epoch ≤ state'.route.epoch
  routeVersion : state.route.routeVersion ≤ state'.route.routeVersion

lemma NotAfter.trans {a b c : TimelineState} (h : a.NotAfter b) (h' : b.NotAfter c) :
    a.NotAfter c :=
  ⟨h.revision.trans h'.revision, h.epoch.trans h'.epoch, h.routeVersion.trans h'.routeVersion⟩

lemma SameRecord.notAfter {state state' : TimelineState} (h : state.SameRecord state') :
    state.NotAfter state' :=
  ⟨h.1.le, by rw [h.2], by rw [h.2]⟩

end TimelineState

def CacheNeverRegresses (C : Cluster) (K : Condition) (p : Nat) (key : String)
    (clock : Nat → Nat) : Prop :=
  ∀ s s', LoggedRun C K (loggedStart clock) s → LoggedRun C K s s' → ∀ h state state',
    s.world.cached p key = some (h, state) → s'.world.cached p key = some (h, state') →
    state.NotAfter state'

/-- A record that a step puts into the cache is not older than a route update that the process was
done with before, where updates tell of routes that have been committed. -/
def NoStaleRecordCached (C : Cluster) (K : Condition) (p : Nat) (key : String)
    (clock : Nat → Nat) : Prop :=
  ∀ s l s', LoggedRun C K (loggedStart clock) s → (K.guard C).Admits s l →
    step (machine C) (logged C) s l = some s' → ∀ h state,
    s'.world.cached p key = some (h, state) →
    (∀ state₀, s.world.cached p key = some (h, state₀) → ¬ state₀.SameRecord state) →
    ∀ updated, Processed s p updated → (∃ v ∈ s.world.timelines key, v.record.route = updated) →
    updated.epoch ≤ state.route.epoch ∧ updated.routeVersion ≤ state.route.routeVersion

/-- The revision of the record that an effect puts into the cache, unless the cached state has this
record already. -/
def Effect.cachedRevision (w : World) (p : Nat) (key : String) (e : Effect) : Option Nat :=
  match e with
  | .newHandle key' state true => if key' = key then some state.revision else .none
  | .setHandle key' h state =>
    if key' = key ∧ (w.cached p key).any fun x => x.1 = h ∧ ¬ x.2.SameRecord state then
      some state.revision
    else .none
  | _ => .none

/-- Whenever a record is put into the cache, it is still the newest version in the store. -/
def freshCache (p : Nat) (key : String) : Condition where
  effect q w e := q = p → ∀ revision ∈ e.cachedRevision w p key,
    w.timelineRevisionIs key revision = true

variable {C : Cluster} {K : Condition} {p q h : Nat} {key : String} {w w' : World} {e : Effect}
  {clock : Nat → Nat} {s s' : LoggedState} {state : TimelineState}

section

variable {hd : TimelineHandle}

lemma World.handle_kept {i : Nat} (hi : i < (w.handles p key).length)
    (hget : ((w.apply q e).handles p key)[i]? = some hd) :
    ∃ hd0, (w.handles p key)[i]? = some hd0 ∧
      (hd0.state = hd.state ∨ q = p ∧ e = .setHandle key i hd.state) := by
  cases e with
  | newHandle key' state cached =>
    rw [World.handles_newHandle] at hget
    split_ifs at hget with heq
    · obtain ⟨rfl, rfl⟩ := heq
      rw [getElem?_append_left hi] at hget
      exact ⟨hd, hget, .inl rfl⟩
    · exact ⟨hd, hget, .inl rfl⟩
  | setHandle key' j state =>
    simp only [World.apply, World.setHandles_handles] at hget
    split_ifs at hget with heq
    · obtain ⟨rfl, rfl⟩ := heq
      rw [getElem?_modify] at hget
      obtain ⟨hd0, hget0, heq⟩ := Option.map_eq_some_iff.mp hget
      refine ⟨hd0, hget0, ?_⟩
      split_ifs at heq with hj
      · subst hj heq
        exact .inr ⟨rfl, rfl⟩
      · subst heq
        exact .inl rfl
    · exact ⟨hd, hget, .inl rfl⟩
  | lock key' j checked state | unlock key' j =>
    simp only [World.apply, World.setHandles_handles] at hget
    split_ifs at hget with heq
    · obtain ⟨rfl, rfl⟩ := heq
      rw [getElem?_modify] at hget
      obtain ⟨hd0, hget0, heq⟩ := Option.map_eq_some_iff.mp hget
      refine ⟨hd0, hget0, .inl ?_⟩
      split_ifs at heq <;> subst heq <;> rfl
    · exact ⟨hd, hget, .inl rfl⟩
  | _ => exact ⟨hd, hget, .inl rfl⟩

lemma World.handle_made (hcache : (w.apply q e).cache p key = some h)
    (hold : w.cache p key ≠ some h) (hget : ((w.apply q e).handles p key)[h]? = some hd) :
    q = p ∧ e = .newHandle key hd.state true := by
  obtain ⟨rfl, rfl, state, rfl⟩ := (World.cache_apply_eq_some hcache).resolve_left hold
  rw [World.handles_newHandle, if_pos ⟨rfl, rfl⟩, getElem?_concat_length] at hget
  rw [← Option.some.inj hget]
  exact ⟨rfl, rfl⟩

def World.Indexed (p : Nat) (key : String) (w : World) : Prop :=
  ∀ i, w.cache p key = some i → i < (w.handles p key).length

lemma World.Indexed.recached (h : w.Indexed p key) (hw : Recached p w w') : w'.Indexed p key := by
  intro i hi
  rcases hw.cached key i hi with hold | ⟨-, hlt⟩
  · exact (h i hold).trans_le (hw.grows key)
  · exact hlt

lemma Permit.cached (hpermit : Permit C q w e) (hindexed : w.Indexed p key)
    (hcached : (w.apply q e).cached p key = some (h, state)) :
    (∃ state0, w.cached p key = some (h, state0) ∧ state0.SameRecord state) ∨
      q = p ∧ e.cachedRevision w p key = some state.revision ∧ HandleFact key state w := by
  obtain ⟨hcache, hd, hget, rfl⟩ := World.cached_eq_some.mp hcached
  by_cases hold : w.cache p key = some h
  · obtain ⟨hd0, hget0, hkept⟩ := World.handle_kept (hindexed h hold) hget
    have hcached0 := World.cached_eq_some.mpr ⟨hold, hd0, hget0, rfl⟩
    by_cases hsame : hd0.state.SameRecord hd.state
    · exact .inl ⟨hd0.state, hcached0, hsame⟩
    rcases hkept with hkept | ⟨rfl, rfl⟩
    · rw [hkept] at hsame
      exact absurd ⟨rfl, rfl⟩ hsame
    refine .inr ⟨rfl, if_pos ⟨rfl, ?_⟩, hpermit.1⟩
    rw [hcached0]
    exact decide_eq_true ⟨rfl, hsame⟩
  · obtain ⟨rfl, rfl⟩ := World.handle_made hcache hold hget
    exact .inr ⟨rfl, if_pos rfl, hpermit⟩

end

section

lemma Base.le_newest (hbase : Base C w) (hfact : HandleFact key state w)
    (hnewest : w.timelineRevisionIs key state.revision = true) {v : TimelineVersion}
    (hv : v ∈ w.timelines key) :
    v.revision ≤ state.revision ∧ v.record.route.epoch ≤ state.route.epoch ∧
      v.record.route.routeVersion ≤ state.route.routeVersion := by
  obtain ⟨v0, hhead, hrev0⟩ := World.timelineRevisionIs_iff.mp hnewest
  obtain ⟨v', hv', hroute, hrev⟩ := hfact
  obtain rfl : v0 = v' := KeyValue.eq_of_pairwise_lt
    ((hbase.timelineOrder key).imp And.left) (mem_of_mem_head? hhead) hv'
    (hrev0.trans hrev.symm)
  obtain ⟨old, hlist⟩ := head?_eq_some_iff.mp hhead
  have horder := hbase.timelineOrder key
  rw [hlist] at hv horder
  rw [← hroute, ← hrev]
  rcases mem_cons.mp hv with rfl | hv
  · exact ⟨le_rfl, le_rfl, le_rfl⟩
  obtain ⟨hlt, hsame | ⟨hepoch, hversion⟩⟩ := (pairwise_cons.mp horder).1 v hv
  · exact ⟨hlt.le, by rw [hsame], by rw [hsame]⟩
  · exact ⟨hlt.le, hepoch.le, hversion.le⟩

lemma safe_logged (hbase : Base C w) (entry : Entry) :
    Safe C p (logged C p entry) (fun _ _ => True) w :=
  Safe.bind (safe_code hbase entry) hbase fun _ _ _ _ _ => safe_done

lemma LoggedRun.holds (hrun : LoggedRun C K (loggedStart clock) s) :
    (discipline C).Holds (fun _ => OnOk fun _ _ => True) s := by
  have hstart : (discipline C).Holds (fun _ => OnOk fun _ _ => True)
      (loggedStart clock) := ⟨Base.initial clock, fun _ ht => absurd ht not_mem_nil⟩
  exact hstart.reach (fun _ entry _ hbase _ => safe_logged hbase entry) hrun

lemma LoggedRun.indexed (hrun : LoggedRun C K (loggedStart clock) s) : s.world.Indexed p key := by
  induction hrun with
  | refl => exact nofun
  | tail hreach hG hstep ih =>
    rcases step_effect (LoggedRun.holds hreach) hG hstep with
      heq | ⟨q, now, -, -, heq⟩ | ⟨q, e, -, -, heq⟩ <;> rw [heq]
    · exact ih
    · exact ih
    · exact ih.recached recached_apply

variable {l : Label Nat Entry Choice Event}

lemma cached_of_step (hrun : LoggedRun C (freshCache p key) (loggedStart clock) s)
    (hG : ((freshCache p key).guard C).Admits s l)
    (hstep : step (machine C) (logged C) s l = some s')
    (hcached : s'.world.cached p key = some (h, state)) :
    (∃ state0, s.world.cached p key = some (h, state0) ∧ state0.SameRecord state) ∨
      HandleFact key state s.world ∧ s.world.timelineRevisionIs key state.revision = true := by
  rcases step_effect hrun.holds hG hstep with
    heq | ⟨q, now, -, -, heq⟩ | ⟨q, e, hpermit, hK, heq⟩ <;> rw [heq] at hcached
  · exact .inl ⟨state, hcached, rfl, rfl⟩
  · exact .inl ⟨state, hcached, rfl, rfl⟩
  rcases hpermit.cached hrun.indexed hcached with hkept | ⟨rfl, hrev, hfact⟩
  · exact .inl hkept
  refine .inr ⟨hfact, ?_⟩
  rcases hK with hloss | hK
  · -- what the environment takes away puts nothing into the cache
    cases e <;> simp [Effect.isLoss, Effect.cachedRevision] at hloss hrev
  · exact hK rfl _ hrev

structure World.KeptSince (p : Nat) (key : String) (h : Nat) (state : TimelineState)
    (w : World) : Prop where
  made : h < (w.handles p key).length
  notAfter : ∀ state', w.cached p key = some (h, state') → state.NotAfter state'

lemma World.KeptSince.step (hkept : s.world.KeptSince p key h state)
    (hrun : LoggedRun C (freshCache p key) (loggedStart clock) s)
    (hG : ((freshCache p key).guard C).Admits s l)
    (hstep : Interleaving.step (machine C) (logged C) s l = some s') :
    s'.world.KeptSince p key h state := by
  have hrecached : Recached p s.world s'.world := by
    rcases step_effect hrun.holds hG hstep with
      heq | ⟨q, now, -, -, heq⟩ | ⟨q, e, -, -, heq⟩ <;> rw [heq]
    · exact ⟨fun _ => le_rfl, fun _ _ => .inl⟩
    · exact ⟨fun _ => le_rfl, fun _ _ => .inl⟩
    · exact recached_apply
  refine ⟨hkept.made.trans_le (hrecached.grows key), fun state' hcached => ?_⟩
  rcases cached_of_step hrun hG hstep hcached with ⟨state0, hcached0, hsame⟩ | ⟨hfact, hnewest⟩
  · exact (hkept.notAfter state0 hcached0).trans hsame.notAfter
  -- the handle was there before the step, with a version that the newest one succeeds
  have hcache : s.world.cache p key = some h := by
    rcases hrecached.cached key h (World.cached_eq_some.mp hcached).1 with hold | ⟨hnew, -⟩
    · exact hold
    · exact absurd hkept.made (Nat.not_lt.mpr hnew)
  obtain ⟨hd, hget⟩ : ∃ hd, (s.world.handles p key)[h]? = some hd :=
    ⟨_, List.getElem?_eq_getElem hkept.made⟩
  have hcached0 := World.cached_eq_some.mpr ⟨hcache, hd, hget, rfl⟩
  obtain ⟨v, hv, hroute, hrev⟩ := hrun.holds.inv.handles p key _ (List.mem_of_getElem? hget)
  obtain ⟨hle, hepoch, hversion⟩ := hrun.holds.inv.le_newest hfact hnewest hv
  rw [hroute] at hepoch hversion
  exact (hkept.notAfter _ hcached0).trans ⟨hrev ▸ hle, hepoch, hversion⟩

end

/-- While every record that is put into the cache of a worker is still the newest one in the store,
what its cache holds of a timeline never goes back, and never behind a route update. -/
theorem cached_timeline_never_regresses (C : Cluster) (p : Nat) (key : String) (clock : Nat → Nat) :
    CacheNeverRegresses C (freshCache p key) p key clock ∧
      NoStaleRecordCached C (freshCache p key) p key clock := by
  constructor
  · intro s s' hrun hlater h state state' hcached hcached'
    suffices hkept : LoggedRun C (freshCache p key) (loggedStart clock) s' ∧
        s'.world.KeptSince p key h state from hkept.2.notAfter state' hcached'
    clear hcached'
    induction hlater with
    | refl =>
      refine ⟨hrun, hrun.indexed h (World.cached_eq_some.mp hcached).1, fun state' hcached' => ?_⟩
      rw [hcached] at hcached'
      cases hcached'
      exact TimelineState.SameRecord.notAfter ⟨rfl, rfl⟩
    | tail _ hG hstep ih => exact ⟨ih.1.tail hG hstep, ih.2.step ih.1 hG hstep⟩
  · intro s l s' hrun hG hstep h state hcached hplaced update _ hcommitted
    obtain ⟨v, hv, rfl⟩ := hcommitted
    rcases cached_of_step hrun hG hstep hcached with ⟨state0, hcached0, hsame⟩ | ⟨hfact, hnewest⟩
    · exact absurd hsame (hplaced state0 hcached0)
    · exact (hrun.holds.inv.le_newest hfact hnewest hv).2

instance : (freshCache p key).Checked where
  effect q w e := inferInstanceAs (Decidable (q = p → ∀ revision ∈ e.cachedRevision w p key,
    w.timelineRevisionIs key revision = true))

def playLogged (K : Condition) [K.Checked] (commands : List (Command Nat Entry Choice Event)) :
    LoggedState → Option LoggedState :=
  script (machine sampleCluster) (logged sampleCluster) (K.guard sampleCluster) Op.usual commands

def cachedVersion (s : LoggedState) : Option (Nat × Nat × Nat) :=
  (s.world.cached 0 "k").map fun x => (x.1, x.2.revision, x.2.route.epoch)

def loadedRecord : List (Command Nat Entry Choice Event) :=
  perform 0 0 (.ensureTimeline "k" .shared 5) 60 ++ [.label (.env (.evict 0 "k"))] ++
    perform 1 0 (.allocate (sampleRequest 1 1) true 5) 15

def transferredRoute : TimelineRoute where
  timelineKey := "k"
  generatorId := 1
  epoch := 2
  routeVersion := 2
  resourceTier := .shared
  ownerWorkerEndpoint := "b:1"

lemma exists_cached_of_version {i rev epoch : Nat} (h : cachedVersion s = some (i, rev, epoch)) :
    ∃ state, s.world.cached 0 "k" = some (i, state) ∧ state.revision = rev ∧
      state.route.epoch = epoch := by
  obtain ⟨⟨j, state⟩, hcached, heq⟩ := Option.map_eq_some_iff.mp h
  obtain ⟨rfl, hrest⟩ := Prod.mk.inj heq
  obtain ⟨hrev, hepoch⟩ := Prod.mk.inj hrest
  exact ⟨state, hcached, hrev, hepoch⟩

/-- A fenced transfer takes the cached state of the timeline from one version to the next. -/
theorem cached_timeline_never_regresses_sample :
    ∃ s s' h state state', LoggedRun sampleCluster (freshCache 0 "k") (loggedStart fun _ => 10) s ∧
      LoggedRun sampleCluster (freshCache 0 "k") s s' ∧
      s.world.cached 0 "k" = some (h, state) ∧ s'.world.cached 0 "k" = some (h, state') ∧
      state.route.epoch = 1 ∧ state'.route.epoch = 2 ∧ state.NotAfter state' := by
  have hscript : (playLogged (freshCache 0 "k")
      (perform 0 0 (.ensureTimeline "k" .shared 5) 60) (loggedStart fun _ => 10)).any
      (fun s => cachedVersion s = some (0, 2, 1) ∧ (playLogged (freshCache 0 "k")
        (perform 1 0 (.transferForRpc "k" "a:1" (some 2) .manual 5) 60) s).any
          (fun s' => cachedVersion s' = some (0, 4, 2))) = true := by
    decide +kernel
  obtain ⟨s, hrun, hs⟩ := Reach.exists_of_script hscript
  obtain ⟨hversion, hscript'⟩ := of_decide_eq_true hs
  obtain ⟨s', hlater, hs'⟩ := Reach.exists_of_script hscript'
  obtain ⟨state, hcached, -, hepoch⟩ := exists_cached_of_version hversion
  obtain ⟨state', hcached', -, hepoch'⟩ := exists_cached_of_version (of_decide_eq_true hs')
  exact ⟨s, s', 0, state, state', hrun, hlater, hcached, hcached', hepoch, hepoch',
    (cached_timeline_never_regresses sampleCluster 0 "k" fun _ => 10).1 s s' hrun hlater 0 state
      state' hcached hcached'⟩

/-- An allocation applies the record it loaded before a transfer. If the transfer was a local one,
the handle in the cache goes back to the old record; if it was one to another worker, the old record
comes into the cache after the update of its route has been processed. -/
theorem cached_timeline_regresses :
    ¬ CacheNeverRegresses sampleCluster unconditional 0 "k" (fun _ => 10) ∧
      ¬ NoStaleRecordCached sampleCluster unconditional 0 "k" (fun _ => 10) := by
  constructor
  · have hscript : (playLogged unconditional
        (loadedRecord ++ perform 2 0 (.transferForRpc "k" "a:1" (some 2) .manual 5) 60)
        (loggedStart fun _ => 10)).any
        (fun s => cachedVersion s = some (1, 4, 2) ∧ (playLogged unconditional [.drive 1 2] s).any
          (fun s' => cachedVersion s' = some (1, 2, 1))) = true := by
      decide +kernel
    obtain ⟨s, hrun, hs⟩ := Reach.exists_of_script hscript
    obtain ⟨hversion, hscript'⟩ := of_decide_eq_true hs
    obtain ⟨s', hlater, hs'⟩ := Reach.exists_of_script hscript'
    obtain ⟨state, hcached, hrev, -⟩ := exists_cached_of_version hversion
    obtain ⟨state', hcached', hrev', -⟩ := exists_cached_of_version (of_decide_eq_true hs')
    intro hkept
    have hle := (hkept s s' hrun hlater 1 state state' hcached hcached').revision
    omega
  · have hscript : (playLogged unconditional
        (loadedRecord ++ perform 2 0 (.transferForRpc "k" "b:1" (some 1) .manual 5) 60 ++
          perform 3 0 (.routeUpdate transferredRoute) 5) (loggedStart fun _ => 10)).any
        (fun s => s.result 3 = some (0, .routeUpdate transferredRoute) ∧
          (s.world.timelines "k").any (fun v => v.record.route = transferredRoute) ∧
          s.world.cached 0 "k" = none ∧
          (step (machine sampleCluster) (logged sampleCluster) s (.call 1 (.flag true))).any
            (fun s' => cachedVersion s' = some (1, 2, 1))) = true := by
      decide +kernel
    obtain ⟨s, hrun, hs⟩ := Reach.exists_of_script hscript
    obtain ⟨hres, hcommitted, hnone, hany⟩ := of_decide_eq_true hs
    obtain ⟨s', hstep, hs'⟩ := (Option.any_eq_true ..).mp hany
    obtain ⟨state, hcached, -, hepoch⟩ := exists_cached_of_version (of_decide_eq_true hs')
    obtain ⟨v, hv, hroute⟩ := any_eq_true.mp hcommitted
    intro hfresh
    have hle := (hfresh s (.call 1 (.flag true)) s' hrun (fun _ _ _ _ _ _ => trivial) hstep 1 state
      hcached (fun state0 hcached0 => by rw [hnone] at hcached0; cases hcached0) transferredRoute
      ⟨3, hres⟩ ⟨v, hv, of_decide_eq_true hroute⟩).1
    rw [hepoch] at hle
    exact absurd hle (by decide)

end Chronos
