import Chronos.RouteWatch.Watch
import Mathlib.Data.Nat.Basic

/-! Delivery of route changes. A change that no signal has followed yet is still on the stream, or
the watch is down and will be resumed at a revision that is not later. -/

namespace Chronos

open Transition List Option

variable {w w' : WatchWorld} {event : RouteEvent} {route : TimelineRoute}

section

def uncovered : List WatchTrace → List RouteEvent
  | [] => []
  | .commit event :: older =>
    if .connected ∈ older ∧ event.changed.isSome = true then event :: uncovered older
    else uncovered older
  | .signal .reset :: _ => []
  | .signal (.route route) :: older =>
    (uncovered older).filter fun event => event.write.timelineKey ≠ route.timelineKey
  | .connected :: older => uncovered older

def Covers (key : String) (signals : List WatchTrace) : Prop :=
  .signal .reset ∈ signals ∨ ∃ route, .signal (.route route) ∈ signals ∧ route.timelineKey = key

lemma RouteEvent.timelineKey_of_changed (h : event.changed = some route) :
    route.timelineKey = event.write.timelineKey := by
  unfold RouteEvent.changed at h
  split at h
  · next next hwrite =>
    unfold timelineRouteUpdateFromRoutes at h
    split_ifs at h
    rw [← some.inj h, hwrite]
    rfl
  · cases h

variable {older : List WatchTrace}

lemma covers_or_mem_uncovered {newer : List WatchTrace} (hconnected : .connected ∈ older)
    (hchanged : event.changed.isSome = true) :
    Covers event.write.timelineKey newer ∨ event ∈ uncovered (newer ++ .commit event :: older) := by
  induction newer with
  | nil =>
    right
    rw [nil_append, uncovered, if_pos ⟨hconnected, hchanged⟩]
    exact mem_cons_self
  | cons entry newer ih =>
    rcases ih with hcovers | hmem
    · left
      rcases hcovers with hreset | ⟨route, hroute, hkey⟩
      · exact .inl (mem_cons_of_mem _ hreset)
      · exact .inr ⟨route, mem_cons_of_mem _ hroute, hkey⟩
    · cases entry with
      | commit event' =>
        right
        rw [cons_append, uncovered]
        split_ifs
        · exact mem_cons_of_mem _ hmem
        · exact hmem
      | connected => exact .inr hmem
      | signal s =>
        cases s with
        | reset => exact .inl (.inl mem_cons_self)
        | route route =>
          by_cases hkey : route.timelineKey = event.write.timelineKey
          · exact .inl (.inr ⟨route, mem_cons_self, hkey⟩)
          right
          rw [cons_append, uncovered, mem_filter, decide_eq_true_eq]
          exact ⟨hmem, Ne.symm hkey⟩

lemma changed_of_mem_uncovered {trace : List WatchTrace} (h : event ∈ uncovered trace) :
    event.changed.isSome = true := by
  induction trace with
  | nil => exact absurd h not_mem_nil
  | cons entry older ih =>
    cases entry with
    | commit first =>
      rw [uncovered] at h
      split_ifs at h with hfirst
      · rcases mem_cons.mp h with rfl | h
        · exact hfirst.2
        · exact ih h
      · exact ih h
    | connected => exact ih h
    | signal s =>
      cases s with
      | reset => exact absurd h not_mem_nil
      | route route => exact ih (mem_filter.mp h).1

lemma mem_uncovered_commits {events : List RouteEvent}
    (h : event ∈ uncovered (events.map .commit ++ older)) :
    event ∈ uncovered older ∨ event ∈ events ∧ .connected ∈ older ∧
    event.changed.isSome = true := by
  induction events with
  | nil => exact .inl h
  | cons first rest ih =>
    have hlater : event ∈ uncovered (rest.map .commit ++ older) → event ∈ uncovered older ∨
        event ∈ first :: rest ∧ .connected ∈ older ∧ event.changed.isSome = true := by
      intro hmem
      rcases ih hmem with hold | ⟨hrest, hnew⟩
      · exact .inl hold
      · exact .inr ⟨mem_cons_of_mem _ hrest, hnew⟩
    rw [map_cons, cons_append, uncovered] at h
    split_ifs at h with hfirst
    · rcases mem_cons.mp h with rfl | h
      · have hconnected : WatchTrace.connected ∈ older := by simpa using hfirst.1
        exact .inr ⟨mem_cons_self, hconnected, hfirst.2⟩
      · exact hlater h
    · exact hlater h

lemma mem_uncovered_signals {signals : List RouteUpdateSignal}
    (h : event ∈ uncovered (signals.map .signal ++ older)) :
    event ∈ uncovered older ∧ .reset ∉ signals ∧
      ∀ route, .route route ∈ signals → route.timelineKey ≠ event.write.timelineKey := by
  induction signals with
  | nil => exact ⟨h, not_mem_nil, fun _ hroute => absurd hroute not_mem_nil⟩
  | cons first rest ih =>
    cases first with
    | reset => exact absurd h not_mem_nil
    | route route =>
      rw [map_cons, cons_append, uncovered, mem_filter, decide_eq_true_eq] at h
      obtain ⟨hmem, hkey⟩ := h
      obtain ⟨hold, hreset, hroutes⟩ := ih hmem
      refine ⟨hold, ?_, fun route' hroute' => ?_⟩
      · simpa using hreset
      rcases mem_cons.mp hroute' with heq | hrest
      · cases heq
        exact Ne.symm hkey
      · exact hroutes route' hrest

end

section

variable {task : WatchTask} {pending rest : List RouteEvent} {shown : List WatchEvent}

lemma WatchTask.reset_mem_reconnect (h : task.resetSentForOutage = false) :
    .reset ∈ task.reconnect.2 := by
  simp [reconnect, sendRouteWatchResetOnce, failed, h]

lemma WatchTask.reset_mem_restart (h : task.resetSentForOutage = false) :
    .reset ∈ task.restart.2 := by
  simp [restart, sendRouteWatchResetOnce, failed, h]

lemma WatchTask.nextWatchRevision_reconnect :
    task.reconnect.1.nextWatchRevision = task.nextWatchRevision := by
  unfold reconnect sendRouteWatchResetOnce
  split_ifs <;> rfl

lemma WatchTask.nextWatchRevision_restart : task.restart.1.nextWatchRevision = none := by
  unfold restart sendRouteWatchResetOnce
  split_ifs <;> rfl

lemma RouteEvent.signal_of_shows {prevRoute : Option TimelineRoute} {changed : TimelineRoute}
    (hshows : event.shows (.put route prevRoute) = true) (hchanged : event.changed = some changed) :
    timelineRouteUpdateFromRoutes prevRoute route = some changed := by
  simp only [RouteEvent.shows, Bool.and_eq_true, Bool.or_eq_true, decide_eq_true_eq] at hshows
  obtain ⟨hwrite, hprev⟩ := hshows
  rw [RouteEvent.changed, hwrite] at hchanged
  rcases hprev with rfl | rfl
  · have hroute : route = changed := by
      simp only [timelineRouteUpdateFromRoutes] at hchanged
      split_ifs at hchanged
      exact some.inj hchanged
    simp [timelineRouteUpdateFromRoutes, hroute]
  · exact hchanged

lemma WatchTask.handleEvents_goesOn (hrest : remaining pending shown = some rest)
    (hgoes : (task.handleEvents shown).2.2 = true) :
    (task.handleEvents shown).1 = task ∧ ∀ event ∈ pending, event ∈ rest ∨
      ∀ route, event.changed = some route → .route route ∈ (task.handleEvents shown).2.1 := by
  induction shown generalizing pending with
  | nil =>
    obtain rfl : pending = rest := by simpa [remaining] using hrest
    exact ⟨rfl, fun event hevent => .inl hevent⟩
  | cons first shown ih =>
    cases pending with
    | nil => simp [remaining] at hrest
    | cons head pending =>
      simp only [remaining] at hrest
      split_ifs at hrest with hshows
      cases first with
      | missingKv | undecodable => cases hgoes
      | delete =>
        obtain ⟨htask, hevents⟩ := ih hrest hgoes
        refine ⟨htask, fun event hevent => ?_⟩
        rcases mem_cons.mp hevent with rfl | hevent
        · right
          intro route hchanged
          have hdel : event.write = .delete event.write.timelineKey := by
            simpa [RouteEvent.shows] using hshows
          rw [RouteEvent.changed, hdel] at hchanged
          cases hchanged
        · exact hevents event hevent
      | put route prevRoute =>
        obtain ⟨htask, hevents⟩ := ih hrest hgoes
        refine ⟨htask, fun event hevent => ?_⟩
        rcases mem_cons.mp hevent with rfl | hevent
        · right
          intro changed hchanged
          refine mem_append_left _ ?_
          rw [event.signal_of_shows hshows hchanged]
          exact mem_singleton_self _
        · rcases hevents event hevent with hleft | hsignalled
          · exact .inl hleft
          · exact .inr fun changed hchanged => mem_append_right _ (hsignalled changed hchanged)

lemma WatchTask.handleEvents_breaks (hreset : task.resetSentForOutage = false)
    (hgoes : (task.handleEvents shown).2.2 = false) :
    .reset ∈ (task.handleEvents shown).2.1 ∧
      (task.handleEvents shown).1.nextWatchRevision = none := by
  induction shown with
  | nil => cases hgoes
  | cons first shown ih =>
    cases first with
    | delete => exact ih hgoes
    | missingKv | undecodable =>
      exact ⟨task.reset_mem_restart hreset, task.nextWatchRevision_restart⟩
    | put route prevRoute =>
      obtain ⟨hmem, hnext⟩ := ih hgoes
      exact ⟨mem_append_right _ hmem, hnext⟩

lemma WatchTask.handleResponse_cases {response : WatchResponse}
    (hreset : (task.readHeader response.headerRevision).resetSentForOutage = false)
    (hrest : remaining pending response.events = some rest) :
    ((task.handleResponse response).2.2 = true ∧
      (task.handleResponse response).1 = task.readHeader response.headerRevision ∧
      ∀ event ∈ pending, event ∈ rest ∨ ∀ route, event.changed = some route →
        .route route ∈ (task.handleResponse response).2.1) ∨
    ((task.handleResponse response).2.2 = false ∧ .reset ∈ (task.handleResponse response).2.1 ∧
      (task.handleResponse response).1.nextWatchRevision = none) := by
  simp only [handleResponse]
  generalize task.readHeader response.headerRevision = task at hreset
  by_cases hcompacted : response.compactRevision > 0
  · rw [if_pos hcompacted]
    exact .inr ⟨rfl, task.reset_mem_restart hreset, task.nextWatchRevision_restart⟩
  rw [if_neg hcompacted]
  by_cases hcanceled : response.canceled = true
  · rw [if_pos hcanceled]
    exact .inr ⟨rfl, task.reset_mem_restart hreset, task.nextWatchRevision_restart⟩
  rw [if_neg hcanceled]
  cases hgoes : (task.handleEvents response.events).2.2 with
  | true => exact .inl ⟨rfl, task.handleEvents_goesOn hrest hgoes⟩
  | false => exact .inr ⟨rfl, task.handleEvents_breaks hreset hgoes⟩

end

/-- The change will be delivered: it is on the stream, or the watch is resumed in time for it. -/
def Awaited (w : WatchWorld) (event : RouteEvent) : Prop :=
  match w.connection with
  | some pending => event ∈ pending
  | none => ∃ start, w.task.nextWatchRevision = some start ∧ start ≤ event.revision

structure WatchInv (w : WatchWorld) : Prop where
  log : ∀ event ∈ w.log, event.revision ≤ w.revision
  logged : ∀ event ∈ uncovered w.trace, event ∈ w.log
  resume : ∀ start, w.task.nextWatchRevision = some start → 0 < start ∧ start ≤ w.revision + 1
  fresh : w.connection.isSome = true → w.task.resetSentForOutage = false
  awaited : w.running = true → ∀ event ∈ uncovered w.trace, Awaited w event

/-- No route is changed while the watch is down, has been up before, and has dropped the revision it
would resume at. -/
def resumable (w : WatchWorld) : WatchLabel → Prop
  | .commit writes => w.running = true → .connected ∈ w.trace → w.connection = none →
      w.task.nextWatchRevision = none → ∀ event ∈ w.events writes, event.changed = none
  | _ => True

instance (w : WatchWorld) (label : WatchLabel) : Decidable (resumable w label) := by
  unfold resumable
  split <;> infer_instance

lemma down_of_and {running : Bool}
    (h : (running && w.connection.isNone) = true) : w.connection = none :=
  isNone_iff_eq_none.mp (Bool.and_eq_true_iff.mp h).2

namespace WatchInv

variable (h : WatchInv w)
include h

lemma commit {writes : List RouteWrite} (hresumable : resumable w (.commit writes)) :
    WatchInv (w.commit writes) := by
  have hrev : ∀ event ∈ w.events writes, event.revision = w.revision + 1 := by
    intro event hevent
    obtain ⟨write, -, rfl⟩ := List.mem_map.mp hevent
    rfl
  have huncovered : ∀ event ∈ uncovered (w.commit writes).trace, event ∈ uncovered w.trace ∨
      event ∈ w.events writes ∧ .connected ∈ w.trace ∧ event.changed.isSome = true := by
    intro event hevent
    rcases mem_uncovered_commits hevent with hold | ⟨hnew, hrest⟩
    · exact .inl hold
    · exact .inr ⟨List.mem_reverse.mp hnew, hrest⟩
  refine ⟨?_, ?_, ?_, ?_, ?_⟩
  · intro event hevent
    rcases List.mem_append.mp hevent with hold | hnew
    · exact (h.log event hold).trans (Nat.le_succ _)
    · exact (hrev event hnew).le
  · intro event hevent
    rcases huncovered event hevent with hold | ⟨hnew, -⟩
    · exact List.mem_append_left _ (h.logged event hold)
    · exact List.mem_append_right _ hnew
  · intro start hstart
    obtain ⟨hpos, hle⟩ := h.resume start hstart
    exact ⟨hpos, hle.trans (Nat.le_succ _)⟩
  · intro hconnection
    exact h.fresh (by simpa [WatchWorld.commit] using hconnection)
  · intro hrunning event hevent
    cases hconnection : w.connection with
    | some pending =>
      have hconnection' : (w.commit writes).connection = some (pending ++ w.events writes) := by
        simp [WatchWorld.commit, hconnection]
      rw [Awaited, hconnection']
      rcases huncovered event hevent with hold | ⟨hnew, -⟩
      · have hawaited := h.awaited hrunning event hold
        rw [Awaited, hconnection] at hawaited
        exact List.mem_append_left _ hawaited
      · exact List.mem_append_right _ hnew
    | none =>
      have hconnection' : (w.commit writes).connection = none := by
        simp [WatchWorld.commit, hconnection]
      rw [Awaited, hconnection']
      rcases huncovered event hevent with hold | ⟨hnew, hconnected, hchanged⟩
      · have hawaited := h.awaited hrunning event hold
        rwa [Awaited, hconnection] at hawaited
      -- a new change: the watch must have kept a revision to resume at
      cases hnext : w.task.nextWatchRevision with
      | none =>
        have hnone := hresumable hrunning hconnected hconnection hnext event hnew
        rw [hnone] at hchanged
        cases hchanged
      | some start =>
        refine ⟨start, hnext, ?_⟩
        rw [hrev event hnew]
        exact (h.resume start hnext).2

lemma move_down {task : WatchTask} {signals : List RouteUpdateSignal}
    (hnext : task.nextWatchRevision = none ∨
      ∃ start, task.nextWatchRevision = some start ∧ 0 < start ∧ start ≤ w.revision + 1)
    (hcovered : .reset ∈ signals ∨
      w.connection = none ∧ task.nextWatchRevision = w.task.nextWatchRevision) :
    WatchInv (w.move task signals none) := by
  have huncovered : ∀ event ∈ uncovered (w.move task signals none).trace,
      event ∈ uncovered w.trace ∧ .reset ∉ signals := by
    intro event hevent
    obtain ⟨hold, hreset, -⟩ := mem_uncovered_signals hevent
    exact ⟨hold, fun hmem => hreset (mem_reverse.mpr hmem)⟩
  refine ⟨h.log, fun event hevent => h.logged event (huncovered event hevent).1, ?_, nofun, ?_⟩
  · intro start hstart
    rcases hnext with hnone | ⟨start', hsome, hbounds⟩
    · exact nomatch hnone.symm.trans hstart
    · cases hsome.symm.trans hstart
      exact hbounds
  · intro hrunning event hevent
    obtain ⟨hold, hreset⟩ := huncovered event hevent
    obtain ⟨hdown, hsame⟩ := hcovered.resolve_left hreset
    have hawaited := h.awaited hrunning event hold
    rw [Awaited, hdown] at hawaited
    obtain ⟨start, hstart, hle⟩ := hawaited
    exact ⟨start, hsame.trans hstart, hle⟩

lemma resume_cases : w.task.nextWatchRevision = none ∨
    ∃ start, w.task.nextWatchRevision = some start ∧ 0 < start ∧ start ≤ w.revision + 1 := by
  cases hnext : w.task.nextWatchRevision with
  | none => exact .inl rfl
  | some start => exact .inr ⟨start, rfl, h.resume start hnext⟩

lemma connected (hdown : w.connection = none) : WatchInv w.connected := by
  refine ⟨h.log, h.logged, h.resume, fun _ => rfl, fun hrunning event hevent => ?_⟩
  have hawaited := h.awaited hrunning event hevent
  rw [Awaited, hdown] at hawaited
  obtain ⟨start, hstart, hle⟩ := hawaited
  have hoptions : w.task.startRevision = some start := by
    simp [WatchTask.startRevision, hstart, (h.resume start hstart).1]
  have hmem : event ∈ w.log.filter fun event => start ≤ event.revision :=
    mem_filter.mpr ⟨h.logged event hevent, decide_eq_true hle⟩
  simpa [Awaited, WatchWorld.connected, hoptions] using hmem

lemma receive {response : WatchResponse} {pending rest : List RouteEvent}
    (hup : w.connection = some pending) (hrest : remaining pending response.events = some rest)
    (hheader : response.headerRevision.all (· ≤ w.revision) = true) :
    WatchInv (w.move (w.task.handleResponse response).1 (w.task.handleResponse response).2.1
      (if (w.task.handleResponse response).2.2 then some rest else none)) := by
  have hfresh := h.fresh (by rw [hup]; rfl)
  have hread : (w.task.readHeader response.headerRevision).resetSentForOutage = false := by
    unfold WatchTask.readHeader
    split
    · split_ifs <;> exact hfresh
    · exact hfresh
  have hresume : ∀ start, (w.task.readHeader response.headerRevision).nextWatchRevision =
      some start →
      0 < start ∧ start ≤ w.revision + 1 := by
    intro start hstart
    unfold WatchTask.readHeader at hstart
    split at hstart
    · next revision hrev =>
      have hle : revision ≤ w.revision := by simpa [hrev] using hheader
      split_ifs at hstart
      · unfold WatchTask.nextRevision at hstart
        split_ifs at hstart
        cases hstart
        exact ⟨Nat.succ_pos _, Nat.succ_le_succ hle⟩
      · exact h.resume start hstart
    · exact h.resume start hstart
  rcases w.task.handleResponse_cases hread hrest with ⟨hgoes, hsame, hevents⟩ |
    ⟨hgoes, hreset, hnext⟩
  · rw [if_pos hgoes]
    refine ⟨h.log, fun event hevent => h.logged event (mem_uncovered_signals hevent).1, ?_, ?_, ?_⟩
    · rwa [WatchWorld.move, hsame]
    · intro _
      rwa [WatchWorld.move, hsame]
    intro hrunning event hevent
    obtain ⟨hold, -, hroutes⟩ := mem_uncovered_signals hevent
    have hawaited := h.awaited hrunning event hold
    rw [Awaited, hup] at hawaited
    rcases hevents event hawaited with hleft | hsignalled
    · exact hleft
    -- the event was taken off the stream, so its signal has covered it
    obtain ⟨route, hroute⟩ := Option.isSome_iff_exists.mp (changed_of_mem_uncovered hold)
    have hsent := List.mem_reverse.mpr (hsignalled route hroute)
    exact absurd (RouteEvent.timelineKey_of_changed hroute) (hroutes route hsent)
  · rw [if_neg (by simp [hgoes])]
    exact h.move_down (.inl hnext) (.inl hreset)

lemma step {label : WatchLabel} (hresumable : resumable w label)
    (hstep : w.step label = some w') : WatchInv w' := by
  cases label with
  | commit writes =>
    simp only [WatchWorld.step] at hstep
    split_ifs at hstep
    cases hstep
    exact h.commit hresumable
  | connect =>
    simp only [WatchWorld.step] at hstep
    split_ifs at hstep with hdown
    cases hstep
    exact h.connected (down_of_and hdown)
  | connectFailed =>
    simp only [WatchWorld.step] at hstep
    split_ifs at hstep with hdown
    cases hstep
    have hnext := w.task.nextWatchRevision_reconnect
    exact h.move_down (hnext ▸ h.resume_cases) (.inr ⟨down_of_and hdown, hnext⟩)
  | receive response =>
    simp only [WatchWorld.step] at hstep
    split at hstep
    · cases hstep
    · next pending hup =>
      by_cases hheader : response.headerRevision.all (· ≤ w.revision) = true
      · rw [if_pos hheader] at hstep
        obtain ⟨rest, hrest, rfl⟩ := map_eq_some_iff.mp hstep
        exact h.receive hup hrest hheader
      · cases (if_neg hheader).symm.trans hstep
  | streamClosed | streamFailed =>
    simp only [WatchWorld.step] at hstep
    split_ifs at hstep with hup
    cases hstep
    have hnext := w.task.nextWatchRevision_reconnect
    exact h.move_down (hnext ▸ h.resume_cases) (.inl (w.task.reset_mem_reconnect (h.fresh hup)))
  | shutdown =>
    cases hstep
    exact ⟨h.log, h.logged, h.resume, nofun, nofun⟩

end WatchInv

section

variable {G : WatchWorld → WatchLabel → Prop} {revision : Nat}
  {routes : String → Option TimelineRoute} {log : List RouteEvent}

abbrev WatchRun (G : WatchWorld → WatchLabel → Prop) (revision : Nat)
    (routes : String → Option TimelineRoute) (log : List RouteEvent) : WatchWorld → Prop :=
  Reach WatchWorld.step G (.initial revision routes log)

lemma WatchRun.inv (hlog : ∀ event ∈ log, event.revision ≤ revision)
    (h : WatchRun resumable revision routes log w) : WatchInv w := by
  refine h.invariant ⟨hlog, nofun, nofun, nofun, nofun⟩ fun s l s' hs hG hstep => ?_
  exact hs.step hG hstep

/-- In runs that change no route while the watch is down without a revision to resume at: when the
watch is up and has delivered everything, every route change since its first connection has been
followed by a signal for its timeline or by a reset. -/
theorem route_change_signalled (revision : Nat) (routes : String → Option TimelineRoute)
    (log : List RouteEvent) (hlog : ∀ event ∈ log, event.revision ≤ revision) (w : WatchWorld)
    (h : WatchRun resumable revision routes log w) (hrunning : w.running = true)
    (hdelivered : w.connection = some []) (newer older : List WatchTrace) (event : RouteEvent)
    (htrace : w.trace = newer ++ .commit event :: older) (hconnected : .connected ∈ older)
    (route : TimelineRoute) (hchanged : event.changed = some route) :
    Covers route.timelineKey newer := by
  have hinv := WatchRun.inv hlog h
  rw [RouteEvent.timelineKey_of_changed hchanged]
  have hcases : Covers event.write.timelineKey newer ∨
      event ∈ uncovered (newer ++ .commit event :: older) :=
    covers_or_mem_uncovered hconnected (isSome_of_eq_some hchanged)
  rcases hcases with hcovers | hmem
  · exact hcovers
  have hawaited := hinv.awaited hrunning event (htrace ▸ hmem)
  rw [Awaited, hdelivered] at hawaited
  exact absurd hawaited not_mem_nil

def sampleRoute (epoch : Nat) : TimelineRoute := ⟨"k", 0, epoch, epoch, .shared, "a:1"⟩

/-- The stream closes, the route is changed, and the next stream resumes at the change. -/
theorem route_change_signalled_sample : ∃ w newer event older,
    WatchRun resumable 5 (fun _ => none) [] w ∧ w.trace = newer ++ .commit event :: older ∧
      .signal .reset ∈ older ∧ Covers "k" newer := by
  have hrun : (run WatchWorld.step resumable [.connect, .commit [.put (sampleRoute 1)],
      .receive ⟨some 6, 0, false, [.put (sampleRoute 1) none]⟩, .streamClosed,
      .commit [.put (sampleRoute 2)], .connectFailed, .connect,
      .receive ⟨some 7, 0, false, [.put (sampleRoute 2) none]⟩]
      (.initial 5 (fun _ => none) [])).any (fun w => w.running && w.connection = some [] &&
        w.trace = [.signal (.route (sampleRoute 2)), .connected] ++
          .commit ⟨7, .put (sampleRoute 2), some (sampleRoute 1)⟩ :: [.signal .reset,
            .signal (.route (sampleRoute 1)), .commit ⟨6, .put (sampleRoute 1), none⟩,
            .connected]) = true := by
    decide +kernel
  obtain ⟨w, hrun, hst⟩ := Reach.exists_of_run hrun
  simp only [Bool.and_eq_true, decide_eq_true_eq] at hst
  obtain ⟨⟨hrunning, hdelivered⟩, htrace⟩ := hst
  exact ⟨w, _, _, _, hrun, htrace, List.mem_cons_self, route_change_signalled 5 (fun _ => none) []
    (by simp) w hrun hrunning hdelivered _ _ _ htrace (by decide) (sampleRoute 2) (by decide)⟩

/-- The stream closes before it has delivered anything. The reset is sent, then a route is changed,
and the new stream, which has no revision to resume at, starts after the change. -/
theorem route_change_lost :
    ∃ w newer event older route, WatchRun (fun _ _ => True) 5 (fun _ => none) [] w ∧
      w.running = true ∧ w.connection = some [] ∧ w.trace = newer ++ .commit event :: older ∧
      .connected ∈ older ∧ event.changed = some route ∧ ¬ Covers route.timelineKey newer := by
  have hrun : (run WatchWorld.step (fun _ _ => True) [.connect, .streamClosed,
      .commit [.put (sampleRoute 1)], .connect]
      (.initial 5 (fun _ => none) [])).any (fun w => w.running && w.connection = some [] &&
        w.trace = [.connected, .commit ⟨6, .put (sampleRoute 1), none⟩, .signal .reset,
          .connected]) = true := by
    decide +kernel
  obtain ⟨w, hrun, hst⟩ := Reach.exists_of_run hrun
  simp only [Bool.and_eq_true, decide_eq_true_eq] at hst
  obtain ⟨⟨hrunning, hdelivered⟩, htrace⟩ := hst
  exact ⟨w, [.connected], _, _, sampleRoute 1, hrun, hrunning, hdelivered, htrace, by decide,
    by decide, by simp [Covers]⟩

end

end Chronos
