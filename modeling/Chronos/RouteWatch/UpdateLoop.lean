import Chronos.RouteWatch.Watch
import Chronos.Service.Footprint
import Chronos.Service.System

/-! The loop of a worker that receives route signals and keeps its cache in step with them. -/

namespace Chronos

open Interleaving Transition List Function

def routeWatchLagClearCooldown : Nat := 200 * 10 ^ 6

inductive RouteNotice where
  | route (route : TimelineRoute)
  | reset
  deriving DecidableEq

def RouteUpdateSignal.updated : RouteUpdateSignal → Option TimelineRoute
  | .route updated => some updated
  | .reset => none

/-- A lag notification: the signals that were dropped, and the cache when it was received. -/
structure Lag where
  dropped : List RouteUpdateSignal
  present : String → Option Nat

/-- What is left to do about a signal, the notice that is sent then, and the lag it is done for. -/
structure Handling where
  rest : Service Unit
  notice : RouteNotice
  lag : Option Lag

structure UpdateLoop where
  world : World
  now : Nat
  lastLagClearAt : Option Nat
  handling : Option Handling
  notices : List RouteNotice
  lags : List Lag

inductive UpdateLabel where
  | elapse (duration : Nat)
  | recv (signal : RouteUpdateSignal)
  | lagged (dropped : List RouteUpdateSignal)
  | call (c : Choice)
  | done
  | other (q : Nat) (o : Op) (c : Choice)
  | env (e : Event)

namespace UpdateLoop

def initial (clock : Nat → Nat) (now : Nat) : UpdateLoop where
  world := .initial clock
  now := now
  lastLagClearAt := none
  handling := none
  notices := []
  lags := []

def coolingDown (s : UpdateLoop) : Bool :=
  s.lastLagClearAt.any fun last => s.now - last < routeWatchLagClearCooldown

variable (C : Cluster) (p : Nat) (s : UpdateLoop)

def receive : RouteUpdateSignal → UpdateLoop
  | .route route =>
    { s with
      handling := some ⟨invalidateTimelineCacheForRouteUpdate C route, .route route, none⟩ }
  | .reset => { s with handling := some ⟨resetTimelineCache, .reset, none⟩ }

def receiveLagged (dropped : List RouteUpdateSignal) : UpdateLoop :=
  if s.coolingDown then { s with lags := ⟨dropped, s.world.cache p⟩ :: s.lags }
  else
    { s with
      lastLagClearAt := some s.now
      handling := some ⟨resetTimelineCache, .reset, some ⟨dropped, s.world.cache p⟩⟩ }

def step : UpdateLabel → Option UpdateLoop
  | .elapse duration => some { s with now := s.now + duration }
  | .recv signal => if s.handling.isNone then some (s.receive C signal) else none
  | .lagged dropped => if s.handling.isNone then some (s.receiveLagged p dropped) else none
  | .call c =>
    match s.handling with
    | some ⟨.call o k, notice, lag⟩ => ((machine C).exec p o c s.world).map fun x =>
        { s with world := x.2, handling := some ⟨k x.1, notice, lag⟩ }
    | _ => none
  | .done =>
    match s.handling with
    | some ⟨.ret _, notice, lag⟩ =>
      some { s with
        handling := none, notices := s.notices ++ [notice], lags := lag.toList ++ s.lags }
    | _ => none
  | .other q o c => ((machine C).exec q o c s.world).map fun x => { s with world := x.2 }
  | .env e => (environment s.world e).map fun w => { s with world := w }

end UpdateLoop

abbrev UpdateRun (C : Cluster) (p : Nat) (G : UpdateLoop → UpdateLabel → Prop) (clock : Nat → Nat)
    (now : Nat) (s : UpdateLoop) : Prop :=
  Reach (UpdateLoop.step C p) G (.initial clock now) s

/-- A lag that comes too early for a clear drops no update of a timeline in the cache. -/
def lagHeeded (p : Nat) (s : UpdateLoop) : UpdateLabel → Prop
  | .lagged dropped => s.coolingDown = true →
      ∀ updated ∈ dropped.filterMap RouteUpdateSignal.updated,
        s.world.cache p updated.timelineKey = none
  | _ => True

instance (p : Nat) (s : UpdateLoop) (label : UpdateLabel) : Decidable (lagHeeded p s label) := by
  unfold lagHeeded
  split <;> infer_instance

variable {C : Cluster} {p q : Nat} {w w' : World} {s s' : UpdateLoop} {label : UpdateLabel}

structure Recached (p : Nat) (w w' : World) : Prop where
  grows : ∀ key, (w.handles p key).length ≤ (w'.handles p key).length
  cached : ∀ key h, w'.cache p key = some h → w.cache p key = some h ∨
    (w.handles p key).length ≤ h ∧ h < (w'.handles p key).length

lemma World.cache_apply_eq_some {e : Effect} {key : String} {h : Nat}
    (hcache : (w.apply q e).cache p key = some h) :
    w.cache p key = some h ∨
      q = p ∧ h = (w.handles p key).length ∧ ∃ state, e = .newHandle key state true := by
  cases e with
  | newHandle key' state cached =>
    cases cached with
    | false => exact .inl hcache
    | true =>
      simp only [World.apply, World.setCache, if_true, update_apply] at hcache
      split_ifs at hcache with hp
      · subst hp
        rw [update_apply] at hcache
        split_ifs at hcache with hkey
        · subst hkey
          exact .inr ⟨rfl, (Option.some.inj hcache).symm, state, rfl⟩
        · exact .inl hcache
      · exact .inl hcache
  | uncache key' =>
    simp only [World.apply, World.setCache, update_apply] at hcache
    split_ifs at hcache with hp
    · subst hp
      rw [update_apply] at hcache
      split_ifs at hcache
      exact .inl hcache
    · exact .inl hcache
  | uncacheAll =>
    simp only [World.apply, update_apply] at hcache
    split_ifs at hcache
    exact .inl hcache
  | _ => exact .inl hcache

lemma World.handles_newHandle {state : TimelineState} {cached : Bool} {key key' : String} :
    (w.apply q (.newHandle key state cached)).handles p key' =
      if p = q ∧ key' = key then w.handles q key ++ [{ state := state }] else w.handles p key' := by
  have hsame : (w.apply q (.newHandle key state cached)).handles =
      (w.setHandles q key (w.handles q key ++ [{ state := state }])).handles := by
    simp only [World.apply]
    split_ifs <;> rfl
  rw [hsame, World.setHandles_handles]

lemma World.length_handles_le_apply {e : Effect} {key : String} :
    (w.handles p key).length ≤ ((w.apply q e).handles p key).length := by
  cases e with
  | setHandle key' | lock key' | unlock key' =>
    simp only [World.apply, World.setHandles_handles]
    split_ifs with heq
    · rw [heq.1, heq.2, length_modify]
    · exact le_rfl
  | newHandle key' state cached =>
    rw [World.handles_newHandle]
    split_ifs with heq
    · rw [heq.1, heq.2, length_append]
      exact Nat.le_add_right _ _
    · exact le_rfl
  | _ => exact le_rfl

lemma recached_apply {e : Effect} : Recached p w (w.apply q e) := by
  refine ⟨fun _ => World.length_handles_le_apply, fun key h hcache => ?_⟩
  rcases World.cache_apply_eq_some hcache with hold | ⟨rfl, rfl, state, rfl⟩
  · exact .inl hold
  refine .inr ⟨le_rfl, ?_⟩
  rw [World.handles_newHandle, if_pos ⟨rfl, rfl⟩, length_append]
  exact Nat.lt_succ_self _

lemma recached_environment {e : Event} (h : environment w e = some w') : Recached p w w' := by
  cases e with
  | tick q now =>
    simp only [environment] at h
    split_ifs at h
    exact Option.some.inj h ▸ ⟨fun _ => le_rfl, fun _ _ => .inl⟩
  | _ => exact Option.some.inj h ▸ recached_apply

section

def Lag.Behind (p : Nat) (lag : Lag) (w : World) : Prop :=
  ∀ key h, lag.present key = some h → h < (w.handles p key).length

def Lag.Gone (p : Nat) (lag : Lag) (w : World) : Prop :=
  ∀ updated ∈ lag.dropped.filterMap RouteUpdateSignal.updated, ∀ h,
    lag.present updated.timelineKey = some h → w.cache p updated.timelineKey ≠ some h

variable {lag : Lag}

lemma Lag.Behind.recached (h : lag.Behind p w) (hw : Recached p w w') : lag.Behind p w' :=
  fun key i hi => (h key i hi).trans_le (hw.grows key)

lemma Lag.Gone.recached (h : lag.Gone p w) (hbehind : lag.Behind p w) (hw : Recached p w w') :
    lag.Gone p w' := by
  intro update hupdated i hi hcached
  rcases hw.cached _ i hcached with hold | ⟨hnew, -⟩
  · exact h update hupdated i hi hold
  · exact absurd (hbehind _ i hi) (Nat.not_lt.mpr hnew)

structure UpdateInv (p : Nat) (s : UpdateLoop) : Prop where
  cached : ∀ key h, s.world.cache p key = some h → h < (s.world.handles p key).length
  handled : ∀ lag ∈ s.lags, lag.Behind p s.world ∧ lag.Gone p s.world
  current : ∀ rest notice lag, s.handling = some ⟨rest, notice, some lag⟩ →
    lag.Behind p s.world ∧ (rest = resetTimelineCache ∨ lag.Gone p s.world)

variable (h : UpdateInv p s)

include h

lemma UpdateInv.recached (hw : Recached p s.world w) : UpdateInv p { s with world := w } where
  cached key i hi := by
    rcases hw.cached key i hi with hold | ⟨-, hlt⟩
    · exact (h.cached key i hold).trans_le (hw.grows key)
    · exact hlt
  handled lag hlag := ⟨(h.handled lag hlag).1.recached hw,
    (h.handled lag hlag).2.recached (h.handled lag hlag).1 hw⟩
  current rest notice lag hlag := by
    obtain ⟨hbehind, hrest⟩ := h.current rest notice lag hlag
    exact ⟨hbehind.recached hw, hrest.imp_right fun hgone => hgone.recached hbehind hw⟩

lemma UpdateInv.receive {signal : RouteUpdateSignal} : UpdateInv p (s.receive C signal) := by
  cases signal with
  | route update => exact ⟨h.cached, h.handled, fun _ _ _ heq => by cases heq⟩
  | reset => exact ⟨h.cached, h.handled, fun _ _ _ heq => by cases heq⟩

lemma UpdateInv.receiveLagged {dropped : List RouteUpdateSignal}
    (hheeded : lagHeeded p s (.lagged dropped)) (hidle : s.handling = none) :
    UpdateInv p (s.receiveLagged p dropped) := by
  have hbehind := h.cached
  unfold UpdateLoop.receiveLagged
  split_ifs with hcooling
  · refine ⟨h.cached, fun lag hlag => ?_, fun rest notice lag heq => ?_⟩
    · rcases mem_cons.mp hlag with rfl | hlag
      · refine ⟨hbehind, fun update hupdated i hi => ?_⟩
        have hpresent := hi
        cases (hheeded hcooling update hupdated).symm.trans hpresent
      · exact h.handled lag hlag
    · cases hidle.symm.trans heq
  · refine ⟨h.cached, h.handled, fun rest notice lag heq => ?_⟩
    cases heq
    exact ⟨hbehind, .inl rfl⟩

lemma UpdateInv.call {o : Op} {k : o.Reply → Service Unit} {notice : RouteNotice}
    {lag : Option Lag} {c : Choice} {r : o.Reply}
    (hhandling : s.handling = some ⟨.call o k, notice, lag⟩)
    (hexec : (machine C).exec p o c s.world = some (r, w)) :
    UpdateInv p { s with world := w, handling := some ⟨k r, notice, lag⟩ } := by
  obtain ⟨e, hact, rfl⟩ := exec_cases hexec
  have hnext := h.recached (recached_apply (q := p) (e := e))
  refine ⟨hnext.cached, hnext.handled, fun rest' notice' lag' heq => ?_⟩
  obtain ⟨rfl, rfl, rfl⟩ := Handling.mk.inj (Option.some.inj heq)
  obtain ⟨hbehind, hrest⟩ := hnext.current _ _ lag' hhandling
  refine ⟨hbehind, .inr ?_⟩
  rcases hrest with hreset | hgone
  · obtain ⟨rfl, -⟩ := Prog.call.inj hreset
    cases c <;> simp only [act, reduceCtorEq] at hact
    cases hact
    intro update _ i _
    simp [World.apply]
  · exact hgone

lemma UpdateInv.step (hheeded : lagHeeded p s label)
    (hstep : s.step C p label = some s') : UpdateInv p s' := by
  cases label with
  | elapse duration => exact Option.some.inj hstep ▸ ⟨h.cached, h.handled, h.current⟩
  | recv signal =>
    simp only [UpdateLoop.step] at hstep
    split_ifs at hstep
    exact Option.some.inj hstep ▸ h.receive
  | lagged dropped =>
    simp only [UpdateLoop.step] at hstep
    split_ifs at hstep with hidle
    exact Option.some.inj hstep ▸ h.receiveLagged hheeded (Option.isNone_iff_eq_none.mp hidle)
  | call c =>
    simp only [UpdateLoop.step] at hstep
    split at hstep
    · next hhandling =>
      obtain ⟨⟨r, w⟩, hexec, rfl⟩ := Option.map_eq_some_iff.mp hstep
      exact h.call hhandling hexec
    · cases hstep
  | done =>
    simp only [UpdateLoop.step] at hstep
    split at hstep
    · next x notice lag hhandling =>
      cases hstep
      refine ⟨h.cached, fun lag' hlag => ?_, fun _ _ _ heq => by cases heq⟩
      rcases mem_append.mp hlag with hnew | hold
      · obtain rfl := Option.mem_toList.mp hnew
        obtain ⟨hbehind, hrest⟩ := h.current _ _ lag' hhandling
        exact ⟨hbehind, hrest.resolve_left fun heq => by cases heq⟩
      · exact h.handled lag' hold
    · cases hstep
  | other q o c =>
    obtain ⟨⟨r, w⟩, hexec, rfl⟩ := Option.map_eq_some_iff.mp hstep
    obtain ⟨e, -, rfl⟩ := exec_cases hexec
    exact h.recached recached_apply
  | env e =>
    obtain ⟨w, henv, rfl⟩ := Option.map_eq_some_iff.mp hstep
    exact h.recached (recached_environment henv)

end

def movedTimeline (version : Nat) : TimelineRecord :=
  { createdTimelineRecord "k" "a:1" 0 .shared 1000 with
    route := ⟨"k", 0, version, version, .shared, "a:1"⟩ }

def cachedBeforeUpdate : List UpdateLabel :=
  [.lagged [], .call .go, .call .go, .done, .other 1 (.createTimeline "k" (movedTimeline 1))
      (.store .done),
    .other 0 (.loadTimeline "k") (.store .done),
    .other 0 (.timelineHandleOrInsert "k" (movedTimeline 1) 1) (.flag true),
    .other 0 (.syncHandle "k" 0 (movedTimeline 1) 1) .go,
    .other 1 (.compareExchangeTimeline (.transfer .manual none none) "k" 1 (movedTimeline 2))
      (.store .done)]

/-- Once a lag has been handled that dropped an update of a timeline, the cache entry that the
timeline had then is not there any more with a route from before the update. -/
theorem lagged_update_leaves_no_stale_entry (C : Cluster) (p : Nat) (clock : Nat → Nat) (now : Nat)
    {s : UpdateLoop} (h : UpdateRun C p (lagHeeded p) clock now s) {lag : Lag}
    {updated : TimelineRoute} (hlag : lag ∈ s.lags) (hdropped : .route updated ∈ lag.dropped) :
    ¬ ∃ handle entry, lag.present updated.timelineKey = some handle ∧
      s.world.cache p updated.timelineKey = some handle ∧
      (s.world.handles p updated.timelineKey)[handle]? = some entry ∧
      entry.state.route.routeVersion < updated.routeVersion := by
  have hinv : UpdateInv p s := by
    refine h.invariant ⟨?_, ?_, ?_⟩ fun _ _ _ hs hheeded hstep => hs.step hheeded hstep
    · exact nofun
    · exact nofun
    · exact nofun
  rintro ⟨handle, entry, hpresent, hcached, -, -⟩
  have hupdated : updated ∈ lag.dropped.filterMap RouteUpdateSignal.updated :=
    List.mem_filterMap.mpr ⟨_, hdropped, rfl⟩
  exact (hinv.handled lag hlag).2 updated hupdated handle hpresent hcached

/-- The update is dropped and the lag comes when the cooldown is over. -/
theorem lagged_update_leaves_no_stale_entry_sample : ∃ s lag,
    UpdateRun sampleCluster 0 (lagHeeded 0) (fun _ => 1000) 0 s ∧ lag ∈ s.lags ∧
      .route (movedTimeline 2).route ∈ lag.dropped ∧ lag.present "k" = some 0 ∧
      ¬ ∃ handle entry, lag.present "k" = some handle ∧ s.world.cache 0 "k" = some handle ∧
        (s.world.handles 0 "k")[handle]? = some entry ∧ entry.state.route.routeVersion < 2 := by
  have hrun : (run (UpdateLoop.step sampleCluster 0) (lagHeeded 0) (cachedBeforeUpdate ++
      [.elapse (200 * 10 ^ 6), .lagged [.route (movedTimeline 2).route], .call .go, .call .go,
        .done]) (.initial (fun _ => 1000) 0)).any (fun s => s.lags.any fun lag =>
          decide (.route (movedTimeline 2).route ∈ lag.dropped) && lag.present "k" = some 0) =
      true := by
    decide +kernel
  obtain ⟨s, hs, hst⟩ := Reach.exists_of_run hrun
  obtain ⟨lag, hlag, hlost⟩ := List.any_eq_true.mp hst
  simp only [Bool.and_eq_true, decide_eq_true_eq] at hlost
  exact ⟨s, lag, hs, hlag, hlost.1, hlost.2,
    lagged_update_leaves_no_stale_entry sampleCluster 0 (fun _ => 1000) 0 hs hlag hlost.1⟩

/-- The lag that dropped the update comes 10 ms after the clear for an earlier one, and the cache
entry that was loaded in between stays. -/
theorem lagged_update_leaves_stale_entry : ∃ s lag entry,
    UpdateRun sampleCluster 0 (fun _ _ => True) (fun _ => 1000) 0 s ∧ s.handling.isNone = true ∧
      lag ∈ s.lags ∧ .route (movedTimeline 2).route ∈ lag.dropped ∧ lag.present "k" = some 0 ∧
      s.world.cache 0 "k" = some 0 ∧ (s.world.handles 0 "k")[0]? = some entry ∧
      entry.state.route.routeVersion < (movedTimeline 2).route.routeVersion := by
  have hrun : (run (UpdateLoop.step sampleCluster 0) (fun _ _ => True) (cachedBeforeUpdate ++
      [.elapse (10 * 10 ^ 6), .lagged [.route (movedTimeline 2).route]])
      (.initial (fun _ => 1000) 0)).any (fun s => s.handling.isNone &&
        s.world.cache 0 "k" = some 0 &&
        (s.world.handles 0 "k")[0]?.any (fun entry => entry.state.route.routeVersion < 2) &&
        s.lags.any fun lag => decide (.route (movedTimeline 2).route ∈ lag.dropped) &&
          lag.present "k" = some 0) = true := by
    decide +kernel
  obtain ⟨s, hs, hst⟩ := Reach.exists_of_run hrun
  simp only [Bool.and_eq_true, decide_eq_true_eq, Option.any_eq_true, any_eq_true] at hst
  obtain ⟨⟨⟨hidle, hcached⟩, entry, hentry, hold⟩, lag, hlag, hdropped, hpresent⟩ := hst
  exact ⟨s, lag, entry, hs, hidle, hlag, hdropped, hpresent, hcached, hentry, hold⟩

end Chronos
