import Mathlib.Data.List.AList
import Chronos.Status.Readiness

/-! The ownership drift of a worker's generators. A call changes the tracker's entries under the
lock and calls the readiness sink after it has released the lock, so callbacks may overtake each
other. -/

namespace Chronos

open List Function

structure OwnershipDriftEvidence where
  generatorId : Nat
  contendingInstanceId : String
  leaseExpireAtMs : Nat
  observedAtMs : Nat
  deriving DecidableEq

structure OwnershipDriftEntry where
  contendingInstanceId : String
  lastLeaseExpireAtMs : Nat
  active : Bool
  nextRetryAfterMs : Nat
  deriving DecidableEq

abbrev DriftEntries := AList fun _ : Nat => OwnershipDriftEntry

inductive SinkAction where
  | started (evidence : OwnershipDriftEvidence)
  | cleared
  deriving DecidableEq

namespace DriftEntries

variable (entries : DriftEntries)

def observeContendedLocalGenerator (generatorId : Nat) (contendingInstanceId : String)
    (leaseExpireAtMs observedAtMs : Nat) : Option SinkAction × DriftEntries :=
  let entry := (entries.lookup generatorId).getD
    ⟨contendingInstanceId, leaseExpireAtMs, false, observedAtMs⟩
  let renewed := entry.contendingInstanceId = contendingInstanceId ∧
    leaseExpireAtMs > entry.lastLeaseExpireAtMs
  let updated := { entry with contendingInstanceId, lastLeaseExpireAtMs := leaseExpireAtMs }
  if renewed ∧ entry.active = false then
    (some (.started ⟨generatorId, contendingInstanceId, leaseExpireAtMs, observedAtMs⟩),
      entries.insert generatorId { updated with active := true })
  else (none, entries.insert generatorId updated)

def clearGenerator (generatorId : Nat) : Option SinkAction × DriftEntries :=
  let removed := entries.lookup generatorId
  let entries := entries.erase generatorId
  if removed.any (·.active) ∧ entries.entries.all (fun entry => !entry.2.active) then
    (some .cleared, entries)
  else (none, entries)

def isActive (generatorId : Nat) : Bool := (entries.lookup generatorId).any (·.active)

def AnyActive : Prop := ∃ generatorId, entries.isActive generatorId = true

variable {entries} {generatorId : Nat}

lemma isActive_insert (entry : OwnershipDriftEntry) : isActive (entries.insert generatorId entry) =
      update entries.isActive generatorId entry.active := by
  funext other
  by_cases h : other = generatorId
  · subst h
    simp [isActive]
  · simp [isActive, h, AList.lookup_insert_ne h]

lemma isActive_erase :
    isActive (entries.erase generatorId) = update entries.isActive generatorId false := by
  funext other
  by_cases h : other = generatorId
  · subst h
    simp [isActive]
  · simp [isActive, h, AList.lookup_erase_ne h]

lemma all_inactive_iff :
    entries.entries.all (fun entry => !entry.2.active) = true ↔ ¬entries.AnyActive := by
  rw [all_eq_true]
  constructor
  · rintro hall ⟨generatorId, hactive⟩
    obtain ⟨entry, hlook, hentry⟩ := (Option.any_eq_true ..).mp hactive
    simpa [hentry] using hall _ (AList.mem_lookup_iff.mp hlook)
  rintro hnone ⟨generatorId, entry⟩ hmem
  have hlook : entries.lookup generatorId = some entry := AList.mem_lookup_iff.mpr hmem
  have hinactive : ¬entries.isActive generatorId = true := fun h => hnone ⟨generatorId, h⟩
  simpa [isActive, hlook] using hinactive

inductive Settles (entries : DriftEntries) : Option SinkAction × DriftEntries → Prop where
  | started {entries' evidence} :
    entries'.AnyActive → Settles entries (some (.started evidence), entries')
  | cleared {entries'} : ¬entries'.AnyActive → Settles entries (some .cleared, entries')
  | silent {entries'} : (entries'.AnyActive ↔ entries.AnyActive) → Settles entries (none, entries')

lemma settles_observeContendedLocalGenerator (contendingInstanceId : String)
    (leaseExpAtMs observedAtMs : Nat) :
    Settles entries (entries.observeContendedLocalGenerator generatorId contendingInstanceId
      leaseExpAtMs observedAtMs) := by
  unfold observeContendedLocalGenerator
  dsimp only
  split_ifs
  · refine .started ⟨generatorId, ?_⟩
    rw [isActive_insert, Function.update_self]
  refine .silent (exists_congr fun other => ?_)
  -- a new entry is inactive, and an old one stays as it was
  have hsame : ((entries.lookup generatorId).getD
      ⟨contendingInstanceId, leaseExpAtMs, false, observedAtMs⟩).active =
      entries.isActive generatorId := by
    unfold isActive
    cases entries.lookup generatorId <;> rfl
  rw [isActive_insert, hsame, Function.update_eq_self]

lemma settles_clearGenerator : Settles entries (entries.clearGenerator generatorId) := by
  unfold clearGenerator
  dsimp only
  split_ifs with hclear
  · exact .cleared (all_inactive_iff.mp hclear.2)
  refine .silent ?_
  by_cases hactive : entries.isActive generatorId = true
  · have hothers : AnyActive (entries.erase generatorId) := by
      by_contra hnone
      exact hclear ⟨hactive, all_inactive_iff.mpr hnone⟩
    exact iff_of_true hothers ⟨generatorId, hactive⟩
  · refine exists_congr fun other => ?_
    have hinactive : entries.isActive generatorId = false := by simpa using hactive
    rw [isActive_erase, ← hinactive, update_eq_self]

end DriftEntries

/-- `pending` are the callbacks of the calls that have left their critical section, in the order in
which they left it. -/
structure DriftWorld where
  entries : DriftEntries
  pending : List SinkAction
  delivered : List SinkAction
  health : WorkerStatusSnapshot

inductive DriftStep where
  | observeContendedLocalGenerator (generatorId : Nat) (contendingInstanceId : String)
      (leaseExpireAtMs observedAtMs : Nat)
  | clearGenerator (generatorId : Nat)
  | dispatchSinkAction (call : Nat)
  deriving DecidableEq

def SinkAction.dispatch : SinkAction → WorkerStatusSnapshot → WorkerStatusSnapshot
  | .started _, health => health.markOwnershipDrift
  | .cleared, health => health.clearOwnershipDrift

namespace DriftWorld

def initial : DriftWorld := ⟨∅, [], [], .serving⟩

def leave (w : DriftWorld) (result : Option SinkAction × DriftEntries) : DriftWorld :=
  { w with entries := result.2, pending := w.pending ++ result.1.toList }

def step (w : DriftWorld) : DriftStep → Option DriftWorld
  | .observeContendedLocalGenerator generatorId contendingInstanceId leaseExpireAtMs observedAtMs =>
    w.leave (w.entries.observeContendedLocalGenerator generatorId contendingInstanceId
      leaseExpireAtMs observedAtMs)
  | .clearGenerator generatorId => w.leave (w.entries.clearGenerator generatorId)
  | .dispatchSinkAction call => w.pending[call]?.map fun action =>
    { w with
      pending := w.pending.eraseIdx call
      delivered := w.delivered ++ [action]
      health := action.dispatch w.health }

def InOrder (_ : DriftWorld) : DriftStep → Prop
  | .dispatchSinkAction call => call = 0
  | _ => True

instance (w : DriftWorld) (label : DriftStep) : Decidable (w.InOrder label) := by
  cases label <;> unfold InOrder <;> infer_instance

abbrev ReachableBy (G : DriftWorld → DriftStep → Prop) : DriftWorld → Prop :=
  Transition.Reach step G initial

def SaysStarted (actions : List SinkAction) : Prop :=
  ∃ evidence, actions.getLast? = some (.started evidence)

def Told (w : DriftWorld) : Prop := SaysStarted (w.delivered ++ w.pending) ↔ w.entries.AnyActive

variable {w w' : DriftWorld} {label : DriftStep}

lemma Told.leave (h : w.Told) {result : Option SinkAction × DriftEntries}
    (hresult : w.entries.Settles result) : (w.leave result).Told := by
  cases hresult with
  | started hactive => simp [Told, DriftWorld.leave, SaysStarted, hactive]
  | cleared hnone => simp [Told, DriftWorld.leave, SaysStarted, hnone]
  | silent hsame => simpa [Told, DriftWorld.leave, hsame] using h

lemma Told.step (h : w.Told) (horder : w.InOrder label) (hstep : w.step label = some w') :
    w'.Told := by
  cases label with
  | observeContendedLocalGenerator =>
    cases hstep
    exact h.leave (DriftEntries.settles_observeContendedLocalGenerator ..)
  | clearGenerator =>
    cases hstep
    exact h.leave DriftEntries.settles_clearGenerator
  | dispatchSinkAction call =>
    obtain rfl : call = 0 := horder
    obtain ⟨action, hfirst, rfl⟩ := Option.map_eq_some_iff.mp hstep
    obtain ⟨rest, hpending⟩ := head?_eq_some_iff.mp ((head?_eq_getElem? ..).trans hfirst)
    simpa [Told, hpending] using h

lemma ReachableBy.told (h : w.ReachableBy InOrder) : w.Told :=
  h.invariant (by simp [Told, SaysStarted, initial, DriftEntries.AnyActive,
    DriftEntries.isActive]) fun _ _ _ h horder hstep => h.step horder hstep

/-- The status is what the last callback made it. -/
def Marked (w : DriftWorld) : Prop :=
  SaysStarted w.delivered ∧ w.health = WorkerStatusSnapshot.serving.markOwnershipDrift ∨
    ¬SaysStarted w.delivered ∧ w.health = .serving

lemma ReachableBy.marked {G : DriftWorld → DriftStep → Prop} (h : w.ReachableBy G) :
    w.Marked := by
  refine h.invariant (.inr ⟨by simp [SaysStarted, initial], rfl⟩) ?_
  intro w label w' h _ hstep
  cases label with
  | observeContendedLocalGenerator =>
    cases hstep
    exact h
  | clearGenerator =>
    cases hstep
    exact h
  | dispatchSinkAction call =>
    obtain ⟨action, -, rfl⟩ := Option.map_eq_some_iff.mp hstep
    have hhealth := h.imp And.right And.right
    cases action with
    | started evidence =>
      refine .inl ⟨⟨evidence, getLast?_concat⟩, ?_⟩
      rcases hhealth with heq | heq <;> simp only [heq] <;> rfl
    | cleared =>
      refine .inr ⟨by simp [SaysStarted], ?_⟩
      rcases hhealth with heq | heq <;> simp only [heq] <;> rfl

end DriftWorld

/-- If the callbacks are made in the order of the critical sections, then, once all calls have
returned, the last one says whether an entry is active. -/
theorem drift_callbacks_agree (w : DriftWorld) (hw : w.ReachableBy DriftWorld.InOrder)
    (hreturned : w.pending = []) :
    (w.entries.AnyActive → ∃ evidence, w.delivered.getLast? = some (.started evidence)) ∧
      (¬w.entries.AnyActive → w.delivered.getLast? = some .cleared ∨ w.delivered = []) := by
  have h : DriftWorld.SaysStarted (w.delivered ++ w.pending) ↔ w.entries.AnyActive := hw.told
  rw [hreturned, append_nil] at h
  refine ⟨h.mpr, fun hnone => ?_⟩
  cases hlast : w.delivered.getLast? with
  | none => exact .inr (getLast?_eq_none_iff.mp hlast)
  | some action =>
    cases action with
    | started evidence => exact absurd (h.mp ⟨evidence, hlast⟩) hnone
    | cleared => exact .inl rfl

theorem drift_callbacks_agree_of_renewal :
    ∃ w, DriftWorld.ReachableBy DriftWorld.InOrder w ∧ w.pending = [] ∧ w.entries.AnyActive ∧
      ∃ evidence, w.delivered.getLast? = some (.started evidence) := by
  have hrun : (Transition.run DriftWorld.step DriftWorld.InOrder
      [.observeContendedLocalGenerator 7 "b" 110 1, .observeContendedLocalGenerator 7 "b" 120 2,
        .clearGenerator 7, .observeContendedLocalGenerator 8 "b" 130 3, .dispatchSinkAction 0,
        .observeContendedLocalGenerator 8 "b" 140 4, .dispatchSinkAction 0, .dispatchSinkAction 0]
      .initial).any (fun w => w.pending = [] ∧ w.entries.isActive 8 = true) = true := by
    decide +kernel
  obtain ⟨w, hw, hend⟩ := Transition.Reach.exists_of_run hrun
  obtain ⟨hpending, hactive⟩ := of_decide_eq_true hend
  exact ⟨w, hw, hpending, ⟨8, hactive⟩, (drift_callbacks_agree w hw hpending).1 ⟨8, hactive⟩⟩

/-- The callback of the call that removes the only entry overtakes the one of the call that made the
entry active: the worker stays degraded with no entry left. -/
theorem drift_callbacks_overtake :
    ∃ w evidence, DriftWorld.ReachableBy (fun _ _ => True) w ∧ w.pending = [] ∧
      ¬w.entries.AnyActive ∧ w.delivered.getLast? = some (.started evidence) ∧
      w.health.readinessReason = .ownershipDrift := by
  have hrun : (Transition.run DriftWorld.step (fun _ _ => True)
      [.observeContendedLocalGenerator 7 "b" 110 1, .observeContendedLocalGenerator 7 "b" 120 2,
        .clearGenerator 7, .dispatchSinkAction 1, .dispatchSinkAction 0] .initial).any
      (fun w => w.pending = [] ∧ w.entries.entries.all (fun entry => !entry.2.active) ∧
        w.delivered.getLast? = some (.started ⟨7, "b", 120, 2⟩) ∧
        w.health.readinessReason = .ownershipDrift) = true := by
    decide +kernel
  obtain ⟨w, hw, hend⟩ := Transition.Reach.exists_of_run hrun
  obtain ⟨hpending, hnone, hlast, hhealth⟩ := of_decide_eq_true hend
  exact ⟨w, _, hw, hpending, DriftEntries.all_inactive_iff.mp hnone, hlast, hhealth⟩

/-- The worker is serving exactly if the last callback made is no start of a drift. If the callbacks
are made in order, then once all calls have returned it is serving exactly if no entry is active. -/
theorem drift_decides_serving {G : DriftWorld → DriftStep → Prop} {w : DriftWorld}
    (hw : w.ReachableBy G) : (w.health.Serving ↔ ¬DriftWorld.SaysStarted w.delivered) ∧
      ((∀ w label, G w label → w.InOrder label) → w.pending = [] →
        (w.health.Serving ↔ ¬w.entries.AnyActive)) := by
  have hsaid : w.health.Serving ↔ ¬DriftWorld.SaysStarted w.delivered := by
    rcases hw.marked with ⟨hlast, hhealth⟩ | ⟨hlast, hhealth⟩
    · simp [hlast, hhealth, WorkerStatusSnapshot.Serving, WorkerStatusSnapshot.serving,
        WorkerStatusSnapshot.markOwnershipDrift]
    · simp [hlast, hhealth, WorkerStatusSnapshot.Serving, WorkerStatusSnapshot.serving]
  refine ⟨hsaid, fun horder hreturned => ?_⟩
  have hin : w.ReachableBy DriftWorld.InOrder :=
    hw.imp (I := fun _ => True) trivial (fun _ _ _ _ _ _ => trivial) fun w label _ => horder w label
  have htold : DriftWorld.SaysStarted (w.delivered ++ w.pending) ↔ w.entries.AnyActive := hin.told
  rwa [← htold, hreturned, append_nil]

theorem drift_decides_serving_of_renewal : ∃ w, DriftWorld.ReachableBy DriftWorld.InOrder w ∧
    w.pending = [] ∧ w.entries.AnyActive ∧ ¬ w.health.Serving := by
  have hrun : (Transition.run DriftWorld.step DriftWorld.InOrder
      [.observeContendedLocalGenerator 7 "b" 110 1, .observeContendedLocalGenerator 7 "b" 120 2,
        .dispatchSinkAction 0] .initial).any
      (fun w => w.pending = [] ∧ w.entries.isActive 7 = true) = true := by
    decide +kernel
  obtain ⟨w, hw, hend⟩ := Transition.Reach.exists_of_run hrun
  obtain ⟨hpending, hactive⟩ := of_decide_eq_true hend
  exact ⟨w, hw, hpending, ⟨7, hactive⟩,
    fun h => ((drift_decides_serving hw).2 (fun _ _ h => h) hpending).mp h ⟨7, hactive⟩⟩

end Chronos
