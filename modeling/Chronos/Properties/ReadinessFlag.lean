import Chronos.Status.Readiness

/-! When the readiness flag agrees with the health status. Every call that takes the worker out of
service lowers the flag afterwards, so the flag is wrong at the end only if a call acted on a health
status that had changed since it read it. -/

namespace Chronos

open Interleaving

variable {w : ReadinessWorld} {s : ReadinessState}

lemma consistent_run (o : ReadinessOp) (h : w.health.Consistent) :
    (o.run w).2.health.Consistent := by
  have hmark : w.health.markOwnershipDrift.Consistent := by
    unfold WorkerStatusSnapshot.markOwnershipDrift
    split
    · exact h
    · exact h
    · simp [WorkerStatusSnapshot.Consistent]
  have hclear : w.health.clearOwnershipDrift.Consistent := by
    unfold WorkerStatusSnapshot.clearOwnershipDrift
    split_ifs
    · simp [WorkerStatusSnapshot.Consistent]
    · exact h
  have hstop : w.health.markShuttingDown.Consistent := by
    unfold WorkerStatusSnapshot.markShuttingDown
    by_cases hlost : w.health.readinessReason = .identityLeaseLost
    · simp [WorkerStatusSnapshot.Consistent, hlost]
    · simp [WorkerStatusSnapshot.Consistent, hlost]
  cases o with
  | markOwnershipDrift prevState prevReason => exact hmark
  | clearOwnershipDrift => exact hclear
  | markShuttingDown => exact hstop
  | markIdentityLeaseLost => exact iff_of_false nofun nofun
  | _ => exact h

lemma stopped_markShuttingDown (snapshot : WorkerStatusSnapshot) :
    snapshot.markShuttingDown.Stopped := by
  unfold WorkerStatusSnapshot.markShuttingDown WorkerStatusSnapshot.Stopped
  by_cases h : snapshot.readinessReason = .identityLeaseLost
  · simp [h]
  · simp [h]

lemma WorkerStatusSnapshot.Stopped.not_serving {snapshot : WorkerStatusSnapshot}
    (h : snapshot.Stopped) : ¬ snapshot.Serving := by
  rintro ⟨-, hserving⟩
  rcases h with h | h
  · cases hserving.symm.trans h
  · cases hserving.symm.trans h

lemma readinessExec_eq {o : ReadinessOp} {r : o.Reply} {w' : ReadinessWorld}
    (h : readinessMachine.exec () o () w = some (r, w')) : r = (o.run w).1 ∧ w' = (o.run w).2 := by
  have hrun : o.run w = (r, w') := Option.some.inj h
  rw [hrun]
  exact ⟨rfl, rfl⟩

def readinessUpkeep : Upkeep ReadinessWorld where
  Inv w := w.health.Consistent
  Good w := w.ready = true → w.health.Serving

section

variable {α : Type} {o : ReadinessOp} {k : o.Reply → ReadinessProg α}

abbrev RepairsFlag (prog : ReadinessProg α) : Prop :=
  readinessUpkeep.Repairs readinessMachine currentReads () prog

abbrev CarefulFlag (prog : ReadinessProg α) : Prop :=
  readinessUpkeep.Careful readinessMachine currentReads () prog

lemma repairsFlag_look
    (h : ∀ w, w.health.Consistent → ¬ w.health.Serving → RepairsFlag (k (o.run w).1)) :
    RepairsFlag (.call o k) := by
  intro c w r w' hinv hbad _ hexec
  obtain ⟨rfl, rfl⟩ := readinessExec_eq hexec
  exact .inr (h w hinv fun hserving => hbad fun _ => hserving)

lemma repairsFlag_lower : RepairsFlag (readinessCall (.setStartupReady false)) := by
  intro c w r w' _ _ _ hexec
  cases hexec
  exact .inl fun h => nomatch h

lemma carefulFlag_keep (ho : ∀ w, currentReads.op () o () w → (w.ready = true → w.health.Serving) →
      (o.run w).2.ready = true → (o.run w).2.health.Serving)
    (h : ∀ r, CarefulFlag (k r)) : CarefulFlag (.call o k) := by
  intro c w r w' hinv hG hexec
  obtain ⟨rfl, rfl⟩ := readinessExec_eq hexec
  exact ⟨consistent_run o hinv, fun hgood => .inl (ho w hG hgood), h _⟩

lemma carefulFlag_look (ho : ∀ w, (o.run w).2 = w) (h : ∀ r, CarefulFlag (k r)) :
    CarefulFlag (.call o k) := by
  refine carefulFlag_keep (fun w _ hgood => ?_) h
  rw [ho]
  exact hgood

lemma carefulFlag_mark
    (hrepairs : ∀ w, currentReads.op () o () w → w.health.Serving → RepairsFlag (k (o.run w).1))
    (ho : ∀ w, (o.run w).2.ready = w.ready) (h : ∀ r, CarefulFlag (k r)) :
    CarefulFlag (.call o k) := by
  intro c w r w' hinv hG hexec
  obtain ⟨rfl, rfl⟩ := readinessExec_eq hexec
  refine ⟨consistent_run o hinv, fun hgood => ?_, h _⟩
  cases hready : w.ready with
  | true => exact .inr (hrepairs w hG (hgood hready))
  | false => exact .inl fun hready' => nomatch hready.symm.trans ((ho w).symm.trans hready')

end

lemma carefulFlag_setStartupReady (isReady : Bool) :
    CarefulFlag (readinessCall (.setStartupReady isReady)) := by
  refine carefulFlag_keep (fun w hG _ hready => ?_) fun _ => trivial
  cases isReady with
  | true => exact hG
  | false => cases hready

lemma carefulFlag_recordTransitionIfChanged (prevState : WorkerReadinessState)
    (prevReason : WorkerReadinessReason) :
    CarefulFlag (recordTransitionIfChanged prevState prevReason) :=
  carefulFlag_look (fun _ => rfl) fun _ => carefulFlag_look (fun _ => rfl) fun _ => trivial

lemma repairsFlag_recordTransitionIfChanged {α : Type}
    {f : Option (WorkerReadinessState × WorkerReadinessReason) → ReadinessProg α}
    (hf : ∀ x, RepairsFlag (f (some x))) :
    RepairsFlag (recordTransitionIfChanged .ready .serving >>= f) := by
  refine repairsFlag_look fun w hinv hbad => ?_
  have hchanged : WorkerReadinessState.ready ≠ (ReadinessOp.readinessState.run w).1 :=
    fun hready => hbad ⟨hready.symm, hinv.mp hready.symm⟩
  refine repairsFlag_look fun w' _ _ => ?_
  change RepairsFlag (f (if _ ≠ (ReadinessOp.readinessState.run w).1 ∨ _ then _ else _))
  rw [if_pos (.inl hchanged)]
  exact hf _

lemma carefulFlag_ownershipDriftStarted : CarefulFlag ownershipDriftStarted := by
  refine carefulFlag_look (fun _ => rfl) fun prevState => ?_
  refine carefulFlag_look (fun _ => rfl) fun prevReason => ?_
  refine carefulFlag_mark (fun w hG hserving => ?_) (fun _ => rfl) fun _ => ?_
  · -- the callback has read a serving worker
    obtain ⟨rfl, rfl⟩ := hG hserving
    exact repairsFlag_recordTransitionIfChanged fun _ => repairsFlag_lower
  refine (carefulFlag_recordTransitionIfChanged prevState prevReason).bind fun changed => ?_
  cases changed with
  | some _ => exact carefulFlag_setStartupReady false
  | none => trivial

lemma carefulFlag_ownershipDriftCleared : CarefulFlag ownershipDriftCleared := by
  refine carefulFlag_look (fun _ => rfl) fun prevState => ?_
  refine carefulFlag_look (fun _ => rfl) fun prevReason => ?_
  refine carefulFlag_keep (fun w _ hgood hready => ?_) fun _ => ?_
  · change w.health.clearOwnershipDrift.Serving
    unfold WorkerStatusSnapshot.clearOwnershipDrift
    split_ifs
    · exact ⟨rfl, rfl⟩
    · exact hgood hready
  · refine (carefulFlag_recordTransitionIfChanged prevState prevReason).bind fun changed => ?_
    cases changed with
    | none => trivial
    | some seen =>
      refine carefulFlag_look (fun _ => rfl) fun complete => ?_
      change CarefulFlag (if complete = true ∧ seen.1 = .ready ∧ seen.2 = .serving then _ else _)
      split
      · exact carefulFlag_setStartupReady true
      · trivial

lemma carefulFlag_requestShutdown (trigger : ShutdownTrigger) :
    CarefulFlag (requestShutdown trigger) := by
  refine carefulFlag_look (fun _ => rfl) fun _ => carefulFlag_look (fun _ => rfl) fun _ => ?_
  let rest : ReadinessProg Unit := do
    let _newState ← readinessCall .readinessState
    let _newReason ← readinessCall .readinessReason
    readinessCall (.setStartupReady false)
  have hcareful : CarefulFlag rest :=
    carefulFlag_look (fun _ => rfl) fun _ => carefulFlag_look (fun _ => rfl) fun _ =>
      carefulFlag_setStartupReady false
  have hrepairs : RepairsFlag rest := repairsFlag_look fun _ _ _ => repairsFlag_look fun _ _ _ =>
      repairsFlag_lower
  unfold ShutdownTrigger.applyTo
  split_ifs
  · exact carefulFlag_mark (fun _ _ _ => hrepairs) (fun _ => rfl) fun _ => hcareful
  · exact carefulFlag_mark (fun _ _ _ => hrepairs) (fun _ => rfl) fun _ => hcareful

lemma carefulFlag_completeStartup : CarefulFlag completeStartup := by
  refine carefulFlag_keep (fun w _ hgood => hgood) fun _ => ?_
  refine carefulFlag_look (fun _ => rfl) fun state => ?_
  change CarefulFlag (if state = .ready then _ else _)
  split
  · refine carefulFlag_look (fun _ => rfl) fun reason => ?_
    change CarefulFlag (if reason = .serving then _ else _)
    split
    · exact carefulFlag_setStartupReady true
    · trivial
  · trivial

lemma carefulFlag_readinessCode (entry : ReadinessEntry) :
    CarefulFlag (readinessCode () entry) := by
  cases entry with
  | completeStartup => exact carefulFlag_completeStartup.bind fun _ => trivial
  | ownershipDriftStarted => exact carefulFlag_ownershipDriftStarted.bind fun _ => trivial
  | ownershipDriftCleared => exact carefulFlag_ownershipDriftCleared.bind fun _ => trivial
  | requestShutdown trigger => exact (carefulFlag_requestShutdown trigger).bind fun _ => trivial

section

/-- A worker that is shutting down stays so. -/
instance : Preorder ReadinessWorld where
  le w w' := w.health.Stopped → w'.health.Stopped
  le_refl _ h := h
  le_trans _ _ _ h h' := h' ∘ h

lemma stopped_run (o : ReadinessOp) : w ≤ (o.run w).2 := by
  intro h
  have hmark : w.health.markOwnershipDrift = w.health := by
    unfold WorkerStatusSnapshot.markOwnershipDrift
    rcases h with h | h
    · rw [h]
    · rw [h]
  have hclear : w.health.clearOwnershipDrift = w.health := by
    unfold WorkerStatusSnapshot.clearOwnershipDrift
    rcases h with h | h
    · rw [h]
      rfl
    · rw [h]
      rfl
  cases o with
  | markOwnershipDrift prevState prevReason =>
    change w.health.markOwnershipDrift.Stopped
    rw [hmark]
    exact h
  | clearOwnershipDrift =>
    change w.health.clearOwnershipDrift.Stopped
    rw [hclear]
    exact h
  | markShuttingDown => exact stopped_markShuttingDown w.health
  | markIdentityLeaseLost => exact .inl rfl
  | _ => exact h

def stoppedDiscipline : Discipline readinessMachine where
  Inv _ := True
  Allowed _ _ _ := True
  exec_inv _ _ _ := trivial
  exec_le _ _ hexec := (readinessExec_eq hexec).2 ▸ stopped_run _
  env_inv _ _ := trivial
  env_le {e} := nomatch e

open Discipline

lemma stoppedSafe_any {α : Type} (prog : ReadinessProg α) :
    stoppedDiscipline.Safe () prog (OnOk fun _ _ => True) w := by
  induction prog generalizing w with
  | ret x => exact fun _ _ => trivial
  | fail e => exact fun _ _ => trivial
  | call o k ih => exact fun _ _ _ => ⟨trivial, fun _ r _ _ => ih r⟩

lemma stoppedSafe_applyTo (trigger : ShutdownTrigger) :
    stoppedDiscipline.Safe () trigger.applyTo (OnOk fun _ w' => w'.health.Stopped) w := by
  unfold ShutdownTrigger.applyTo
  split_ifs
  · refine safe_op fun w1 _ _ => ⟨trivial, fun c r w2 hexec w3 h3 => h3 ?_⟩
    obtain ⟨-, rfl⟩ := readinessExec_eq hexec
    exact .inl rfl
  refine safe_op fun w1 _ _ => ⟨trivial, fun c r w2 hexec w3 h3 => h3 ?_⟩
  obtain ⟨-, rfl⟩ := readinessExec_eq hexec
  exact stopped_markShuttingDown w1.health

lemma stoppedSafe_readinessCode (entry : ReadinessEntry) :
    stoppedDiscipline.Safe () (readinessCode () entry)
      (OnOk fun call w' => ∀ trigger, call = .requestShutdown trigger → w'.health.Stopped) w := by
  have hother : ∀ {prog : ReadinessProg Unit}, (∀ trigger, entry ≠ .requestShutdown trigger) →
      stoppedDiscipline.Safe () (prog >>= fun _ => pure entry)
        (OnOk fun call w' => ∀ trigger, call = .requestShutdown trigger → w'.health.Stopped) w := by
    intro prog hentry
    refine Safe.bind (stoppedSafe_any prog) trivial fun _ _ _ _ _ => ?_
    exact safe_pure fun _ _ trigger h => absurd h (hentry trigger)
  cases entry with
  | completeStartup => exact hother nofun
  | ownershipDriftStarted => exact hother nofun
  | ownershipDriftCleared => exact hother nofun
  | requestShutdown trigger =>
    have hshutdown : stoppedDiscipline.Safe () (requestShutdown trigger)
        (OnOk fun _ w' => w'.health.Stopped) w := by
      refine Safe.bind (stoppedSafe_any _) trivial fun _ _ _ _ _ => ?_
      refine Safe.bind (stoppedSafe_any _) trivial fun _ _ _ _ _ => ?_
      refine Safe.bind (stoppedSafe_applyTo trigger) trivial fun _ w1 _ _ h1 => ?_
      refine Safe.bind (stoppedSafe_any _) trivial fun _ w2 h2 _ _ => ?_
      refine Safe.bind (stoppedSafe_any _) trivial fun _ w3 h3 _ _ => ?_
      refine safe_op fun w4 h4 _ => ⟨trivial, fun c r w5 hexec w6 h6 => h6 ?_⟩
      exact stoppedDiscipline.exec_le trivial trivial hexec (h4 (h3 (h2 h1)))
    refine Safe.bind hshutdown trivial fun _ w1 _ _ h1 => ?_
    exact safe_pure fun w2 h2 _ _ => h2 h1

end

section

variable {s' : ReadinessState}

lemma ReadinessRun.stopped {a : Unit} {trigger : ShutdownTrigger} {G : ReadinessGuard}
    (hrun : ReadinessRun G ⟨.initial, []⟩ s)
    (ht : ⟨a, .ret (.requestShutdown trigger)⟩ ∈ s.threads) : s.world.health.Stopped := by
  have h0 : stoppedDiscipline.Holds (fun _ => Discipline.OnOk fun call w' =>
      ∀ trigger, call = .requestShutdown trigger → w'.health.Stopped)
      (⟨.initial, []⟩ : ReadinessState) := ⟨trivial, by simp⟩
  have hholds := h0.reach (fun _ entry _ _ _ => stoppedSafe_readinessCode entry) hrun.reach
  exact hholds.post ht trigger rfl

lemma ReadinessRun.lowered (hstopped : s.world.health.Stopped) (hlow : s.world.ready = false)
    (hrun : ReadinessRun currentReads s s') : s'.world.ready = false := by
  have hkept : s'.world.health.Stopped ∧ s'.world.ready = false := by
    refine Transition.Reach.invariant
      (I := fun s : ReadinessState => s.world.health.Stopped ∧ s.world.ready = false)
      hrun ⟨hstopped, hlow⟩ ?_
    rintro s l s' ⟨hs, hready⟩ ⟨hG, hstop⟩ hstep
    obtain ⟨a, e, rfl, rfl⟩ | ⟨i, c, a, o, k, r, w, rfl, hi, hexec, rfl⟩ | ⟨i, rfl, rfl⟩ |
      ⟨e, w, rfl, henv, rfl⟩ := step_cases hstep
    · exact ⟨hs, hready⟩
    · have hop := hG a o k hi
      obtain ⟨-, rfl⟩ := readinessExec_eq hexec
      refine ⟨stopped_run o hs, ?_⟩
      cases o with
      | setStartupReady isReady =>
        cases isReady with
        | false => rfl
        | true =>
          have hserving : s.world.health.Serving := hop
          exact absurd hserving hs.not_serving
      | _ => exact hready
    · exact absurd trivial hstop
    · cases e
  exact hkept.2

instance : currentReads.Checked where
  op _ _ _ _ := by
    unfold currentReads
    dsimp only
    split <;> infer_instance

def readinessSteps (i n : Nat) : List (Label Unit ReadinessEntry Unit Empty) :=
  List.replicate n (.call i ())

lemma ReadinessRun.of_labels (G : ReadinessGuard) [G.Checked]
    (labels : List (Label Unit ReadinessEntry Unit Empty)) (P : ReadinessState → Bool)
    (h : (Transition.run (step readinessMachine readinessCode)
      (fun s l => G.Admits s l ∧ ¬ l.Abandons) labels ⟨.initial, []⟩).any P = true) :
    ∃ s, ReadinessRun G ⟨.initial, []⟩ s ∧ P s = true :=
  Transition.Reach.exists_of_run h

/-- In runs whose calls act on what still holds: whenever no call is in progress, the flag is up
only if the worker is serving; and once a shutdown request has returned, it is down for good. -/
theorem readiness_flag_agrees (hrun : ReadinessRun currentReads ⟨.initial, []⟩ s)
    (hidle : ∀ t ∈ s.threads, t.prog.Ended) :
    (s.world.ready = true → s.world.health.Serving) ∧
    ∀ a trigger, ⟨a, .ret (.requestShutdown trigger)⟩ ∈ s.threads →
      ∀ s', ReadinessRun currentReads s s' → s'.world.ready = false := by
  have hgood : s.world.ready = true → s.world.health.Serving := by
    have hinitial : readinessUpkeep.Good .initial := fun h => absurd h Bool.false_ne_true
    exact Upkeep.good_of_ended (iff_of_true rfl rfl) hinitial
      (fun _ entry _ => carefulFlag_readinessCode entry) (fun e => nomatch e) hrun hidle
  refine ⟨hgood, fun a trigger ht s' hrun' => ?_⟩
  have hstopped := ReadinessRun.stopped hrun ht
  refine ReadinessRun.lowered hstopped (Bool.eq_false_iff.mpr fun hready => ?_) hrun'
  exact hstopped.not_serving (hgood hready)

/-- After a startup and a drift that was cleared, the flag is up; after a signal, it is down. -/
theorem readiness_flag_agrees_sample :
    (∃ s, ReadinessRun currentReads ⟨.initial, []⟩ s ∧ s.world.ready = true ∧
      s.world.health.Serving) ∧
    ∃ s, ReadinessRun currentReads ⟨.initial, []⟩ s ∧
      s.result 3 = some (.requestShutdown (.processSignal "signal_sigterm")) ∧
      ∀ s', ReadinessRun currentReads s s' → s'.world.ready = false := by
  let drift : List (Label Unit ReadinessEntry Unit Empty) :=
    .spawn () .completeStartup :: readinessSteps 0 4 ++
      .spawn () .ownershipDriftStarted :: readinessSteps 1 6 ++
      .spawn () .ownershipDriftCleared :: readinessSteps 2 7
  obtain ⟨s, hrun, hst⟩ := ReadinessRun.of_labels currentReads drift
    (fun s => (∀ t ∈ s.threads, t.prog.Ended) ∧ s.world.ready = true) (by decide +kernel)
  obtain ⟨hidle, hready⟩ := of_decide_eq_true hst
  refine ⟨⟨s, hrun, hready, (readiness_flag_agrees hrun hidle).1 hready⟩, ?_⟩
  obtain ⟨s, hrun, hst⟩ := ReadinessRun.of_labels currentReads
    (drift ++ .spawn () (.requestShutdown (.processSignal "signal_sigterm")) :: readinessSteps 3 6)
    (fun s => (∀ t ∈ s.threads, t.prog.Ended) ∧
      s.result 3 = some (.requestShutdown (.processSignal "signal_sigterm")))
    (by decide +kernel)
  obtain ⟨hidle, hreturned⟩ := of_decide_eq_true hst
  obtain ⟨a, ht⟩ := Sys.mem_threads_of_result hreturned
  exact ⟨s, hrun, hreturned, (readiness_flag_agrees hrun hidle).2 a _ ht⟩

/-- The identity lease is lost after the startup has read the health status: the startup raises the
flag of a worker whose shutdown request has returned. -/
theorem readiness_flag_disagrees :
    ∃ s, ReadinessRun .free ⟨.initial, []⟩ s ∧ (∀ t ∈ s.threads, t.prog.Ended) ∧
      s.result 0 = some .completeStartup ∧ s.result 1 = some (.requestShutdown .identityLeaseLost) ∧
      s.world = ⟨⟨.degraded, .identityLeaseLost, false⟩, true, true⟩ := by
  obtain ⟨s, hrun, hst⟩ := ReadinessRun.of_labels .free
    (.spawn () .completeStartup :: readinessSteps 0 3 ++
      .spawn () (.requestShutdown .identityLeaseLost) :: readinessSteps 1 6 ++ readinessSteps 0 1)
    (fun s => (∀ t ∈ s.threads, t.prog.Ended) ∧ s.result 0 = some .completeStartup ∧
      s.result 1 = some (.requestShutdown .identityLeaseLost) ∧
      s.world = ⟨⟨.degraded, .identityLeaseLost, false⟩, true, true⟩)
    (by decide +kernel)
  exact ⟨s, hrun, of_decide_eq_true hst⟩

/-- Once a shutdown request has returned, no call brings the worker back into service, whatever it
has read before. -/
theorem shutdown_is_final {a : Unit} {trigger : ShutdownTrigger}
    (hrun : ReadinessRun .free ⟨.initial, []⟩ s)
    (ht : ⟨a, .ret (.requestShutdown trigger)⟩ ∈ s.threads) (hrun' : ReadinessRun .free s s') :
    ¬ s'.world.health.Serving := by
  have hkept : s'.world.health.Stopped := by
    refine Transition.Reach.invariant (I := fun s : ReadinessState => s.world.health.Stopped)
      hrun' (ReadinessRun.stopped hrun ht) ?_
    rintro s l s' hs - hstep
    obtain ⟨_, _, rfl, rfl⟩ | ⟨_, _, _, o, _, _, _, rfl, _, hexec, rfl⟩ | ⟨_, rfl, rfl⟩ |
      ⟨e, _, rfl, _, rfl⟩ := step_cases hstep
    · exact hs
    · obtain ⟨-, rfl⟩ := readinessExec_eq hexec
      exact stopped_run o hs
    · exact hs
    · cases e
  exact hkept.not_serving

/-- A startup and the callback of a drift have read the health before the signal, and act on it
during the shutdown request. -/
theorem shutdown_is_final_after_signal :
    ∃ s, ReadinessRun .free ⟨.initial, []⟩ s ∧ s.world.health.readinessReason = .shuttingDown ∧
      s.result 0 = some .completeStartup ∧
      ∀ s', ReadinessRun .free s s' → ¬ s'.world.health.Serving := by
  obtain ⟨s, hrun, hst⟩ := ReadinessRun.of_labels .free
    (.spawn () .completeStartup :: readinessSteps 0 3 ++
      .spawn () .ownershipDriftStarted :: readinessSteps 1 1 ++
      .spawn () (.requestShutdown (.processSignal "signal_sigterm")) :: readinessSteps 2 3 ++
      readinessSteps 0 1 ++ readinessSteps 1 2 ++ readinessSteps 2 3)
    (fun s => s.world.health.readinessReason = .shuttingDown ∧
      s.result 0 = some .completeStartup ∧
      s.result 2 = some (.requestShutdown (.processSignal "signal_sigterm"))) (by decide +kernel)
  obtain ⟨hreason, hstarted, hreturned⟩ := of_decide_eq_true hst
  obtain ⟨a, ht⟩ := Sys.mem_threads_of_result hreturned
  exact ⟨s, hrun, hreason, hstarted, fun s' hrun' => shutdown_is_final hrun ht hrun'⟩

end

end Chronos
