import Chronos.Properties.TimelineFloor
import Chronos.Service.Footprint

/-! The floor a transfer puts into the cache, next to the one it has persisted. -/

namespace Chronos

open Interleaving Option

variable {C : Cluster} {p : Nat} {key : String} {record : TimelineRecord} {revision fuel : Nat}
  {plan : TransferPlan} {w w' w0 : World} {α : Type} {Q : Except TsoError α → World → Prop}

abbrev SoloWp (C : Cluster) (p : Nat) (prog : Service α) (Q : Except TsoError α → World → Prop)
    (w : World) : Prop :=
  (Setting.alone (machine C) p).Wp (fun _ => True) prog Q w

structure Unmoved (p : Nat) (key : String) (w w' : World) : Prop where
  timelines : w'.timelines key = w.timelines key
  cache : w'.cache p key = w.cache p key
  handles : (w'.handles p key).length = (w.handles p key).length
  revision_le : w.revision ≤ w'.revision

lemma Unmoved.refl : Unmoved p key w w := ⟨rfl, rfl, rfl, le_rfl⟩

lemma Unmoved.trans (h1 : Unmoved p key w0 w) (h2 : Unmoved p key w w') :
    Unmoved p key w0 w' where
  timelines := h2.timelines.trans h1.timelines
  cache := h2.cache.trans h1.cache
  handles := h2.handles.trans h1.handles
  revision_le := h1.revision_le.trans h2.revision_le

variable {o : Op} {next : TimelineRecord} {write : TimelineWrite} {J : World → Prop}

lemma unmoved_of_act {c : Choice} {r : o.Reply} {e : Effect} (ho : o.choosing)
    (h : act C p w o c = some (r, e)) : Unmoved p key w (w.apply p e) := by
  have hrecords : e.part ≠ .records := part_ne_of_act h (by rcases ho with ho | ho <;> simp [ho])
    (by decide)
  have hcache : e.part ≠ .cache := part_ne_of_act h (by rcases ho with ho | ho <;> simp [ho])
    (by decide)
  exact ⟨by rw [World.timelines_apply hrecords], by rw [World.cache_apply hcache],
    by rw [World.handles_apply hcache], World.revision_le_apply⟩

lemma soloWp_call {k : o.Reply → Service α}
    (h : ∀ c r e, act C p w o c = some (r, e) → SoloWp C p (k r) Q (w.apply p e)) :
    SoloWp C p (call o >>= k) Q w := by
  rintro w1 rfl - c r w2 - hexec
  obtain ⟨e, hact, rfl⟩ := exec_cases hexec
  exact ⟨trivial, h c r e hact⟩

lemma soloWp_ofExcept {x : Except TsoError α} (h : Q x w) : SoloWp C p (.ofExcept x) Q w := by
  refine Setting.wp_ofExcept fun w1 h1 => ?_
  obtain rfl : w1 = w := h1
  exact h

lemma soloWp_pure {x : α} (h : Q (.ok x) w) : SoloWp C p (pure x) Q w := soloWp_ofExcept h

lemma soloWp_fail {e : TsoError} (h : Q (.error e) w) : SoloWp C p (.fail e) Q w :=
  soloWp_ofExcept h

lemma soloWp_choosing {β : Type} (key : String) {prog : Service β} {f : β → Service α}
    (h : prog.Uses Op.choosing)
    (hok : ∀ x w1, Unmoved p key w w1 → SoloWp C p (f x) Q w1)
    (herr : ∀ e w1, Unmoved p key w w1 → Q (.error e) w1) :
    SoloWp C p (prog >>= f) Q w := by
  refine Setting.Wp.bind (Setting.Wp.of_uses h ?_ ?_ .refl) hok herr
  · rintro w1 w2 hw rfl
    exact hw
  intro o c r w1 w2 ho _ hexec
  obtain ⟨e, hact, rfl⟩ := exec_cases hexec
  exact ⟨id, fun hw => hw.trans (unmoved_of_act ho hact)⟩

lemma soloWp_choosing_call {k : o.Reply → Service α} (ho : o.choosing)
    (h : ∀ r w1, Unmoved p key w w1 → SoloWp C p (k r) Q w1) : SoloWp C p (call o >>= k) Q w :=
  soloWp_call fun _ r _ hact => h r _ (unmoved_of_act ho hact)

def World.routedFloor (w : World) (record : TimelineRecord) : Option Nat :=
  (w.generatorRecord record.route.generatorId).bind fun x => generatorRecoveryFloorTso x.1

structure Handed (p : Nat) (key : String) (graceful floor : Option Nat) (w : World) : Prop where
  newest : ∃ v older, w.timelines key = v :: older ∧ v.record.lastGracefulIssued = graceful ∧
    v.record.recoveryFloorTso = floor ∧ (∀ u ∈ older, u.revision < v.revision) ∧
    v.revision ≤ w.revision
  uncached : w.cache p key = none

variable {graceful floor : Option Nat}

lemma Handed.unmoved (h : Handed p key graceful floor w) (hw : Unmoved p key w w') :
    Handed p key graceful floor w' := by
  obtain ⟨v, old, hlist, hgraceful, hfloor, holder, hrev⟩ := h.newest
  refine ⟨⟨v, old, ?_, hgraceful, hfloor, holder, hrev.trans hw.revision_le⟩, ?_⟩
  · rw [hw.timelines, hlist]
  · rw [hw.cache, h.uncached]

lemma Handed.commit (h : Handed p key graceful floor w) {v : TimelineVersion}
    (hmem : v ∈ w.timelines key) (hrevision : w.timelineRevisionIs key v.revision = true)
    (hgraceful : next.lastGracefulIssued = v.record.lastGracefulIssued)
    (hfloor : next.recoveryFloorTso = v.record.recoveryFloorTso) :
    Handed p key graceful floor
      (w.apply p (.commitTimeline key ⟨w.revision + 1, next, write⟩)) := by
  obtain ⟨v0, old, hlist, hg, hf, holder, hle⟩ := h.newest
  have hsame : v = v0 := by
    have hrev : v0.revision = v.revision := by
      simpa [World.timelineRevisionIs, hlist] using hrevision
    rw [hlist] at hmem
    rcases List.mem_cons.mp hmem with heq | hold
    · exact heq
    · exact absurd hrev (holder v hold).ne'
  subst hsame
  refine ⟨⟨⟨w.revision + 1, next, write⟩, v :: old, ?_, hgraceful.trans hg,
    hfloor.trans hf, ?_, le_rfl⟩, h.uncached⟩
  · simp [World.apply, hlist]
  intro u hu
  rcases List.mem_cons.mp hu with rfl | hu
  · exact Nat.lt_succ_of_le hle
  · exact ((holder u hu).trans_le hle).trans (Nat.lt_succ_self _)

def Present (key : String) (record : TimelineRecord) (revision : Nat) (w : World) : Prop :=
  ∃ v ∈ w.timelines key, v.record = record ∧ v.revision = revision

lemma soloWp_loadTimelineWithSingleflight {f : Option (TimelineRecord × Nat) → Service α}
    (hok : ∀ found w1, Unmoved p key w w1 →
      (∀ x, found = some x → Present key x.1 x.2 w1) → SoloWp C p (f found) Q w1)
    (herr : ∀ e w1, Unmoved p key w w1 → Q (.error e) w1) :
    SoloWp C p (loadTimelineWithSingleflight key >>= f) Q w := by
  have hload : SoloWp C p (loadTimelineWithSingleflight key) (fun out w1 => Unmoved p key w w1 ∧
      ∀ x, out = .ok (some x) → Present key x.1 x.2 w1) w := by
    refine soloWp_choosing key (choosing_of_leasing uses_checkRequestCancellation)
      (fun _ w1 h1 => ?_)
      fun e w1 h1 => ⟨h1, fun _ hx => by cases hx⟩
    refine soloWp_call fun c found e hact => soloWp_ofExcept ?_
    cases c <;> simp only [act, reduceCtorEq] at hact <;> cases hact
    · exact ⟨h1, fun _ hx => by cases hx⟩
    refine ⟨h1, fun x hx => ?_⟩
    obtain ⟨v, hv, rfl⟩ := map_eq_some_iff.mp (Except.ok.inj hx)
    exact ⟨v, List.mem_of_getElem? hv, rfl, rfl⟩
  refine hload.bind (fun found w1 h1 => ?_) fun e w1 h1 => herr e w1 h1.1
  exact hok found w1 h1.1 fun x hx => h1.2 x (hx ▸ rfl)

lemma soloWp_activateLocalTimelineRecord (leaseFuel fuel : Nat)
    (h : Handed p key graceful floor w) (hpresent : Present key record revision w) :
    SoloWp C p (activateLocalTimelineRecord C p key leaseFuel fuel record revision)
      (fun _ => Handed p key graceful floor) w := by
  induction fuel generalizing w record revision with
  | zero => exact soloWp_fail h
  | succ fuel ih =>
    have hlease : ∀ g, (ensureGeneratorLease C p g leaseFuel).Uses Op.choosing :=
      fun g => choosing_of_leasing uses_ensureGeneratorLease
    refine soloWp_choosing key (choosing_of_leasing uses_checkRequestCancellation)
      (fun _ w1 h1 => ?_)
      fun _ w1 h1 => h.unmoved h1
    split
    · exact soloWp_pure (h.unmoved h1)
    split
    · exact soloWp_pure (h.unmoved h1)
    · exact soloWp_choosing key (hlease _) (fun _ w2 h2 => soloWp_pure (h.unmoved (h1.trans h2)))
        fun _ w2 h2 => h.unmoved (h1.trans h2)
    refine soloWp_choosing_call (.inl rfl) fun now w2 (h2 : Unmoved p key w1 w2) => ?_
    split
    · exact soloWp_pure (h.unmoved (h1.trans h2))
    refine soloWp_choosing key (hlease _) (fun _ w3 h3 => ?_)
      fun _ w3 h3 => h.unmoved ((h1.trans h2).trans h3)
    refine soloWp_choosing_call (.inl rfl) fun now' w4 (h4 : Unmoved p key w3 w4) => ?_
    have hmoved := ((h1.trans h2).trans h3).trans h4
    obtain ⟨v, hv, rfl, rfl⟩ := hpresent
    refine soloWp_call fun c res e hact => ?_
    -- whether or not it has taken effect, the newest version holds the same two floors
    have hafter : Handed p key graceful floor (w4.apply p e) := by
      cases c <;> simp only [act, reduceCtorEq] at hact
      rcases storeWrite_cases (Option.some.inj hact) with ⟨hrev, rfl, -⟩ | ⟨rfl, -⟩
      · exact (h.unmoved hmoved).commit (by rwa [hmoved.timelines]) hrev rfl rfl
      · exact h.unmoved hmoved
    split
    · exact soloWp_pure hafter
    · refine soloWp_choosing key (choosing_of_leasing
        (uses_backoffAfterMetadataContention (by rfl) (show Prog.Uses _ (pure ()) from trivial)))
        (fun _ w5 h5 => ?_) fun _ w5 h5 => hafter.unmoved h5
      refine soloWp_loadTimelineWithSingleflight (fun found w6 h6 hfound => ?_)
        fun _ w6 h6 => hafter.unmoved (h5.trans h6)
      split
      · exact soloWp_fail (hafter.unmoved (h5.trans h6))
      · exact ih (hafter.unmoved (h5.trans h6)) (hfound _ rfl)
    · exact soloWp_fail hafter

def CachedWith (p : Nat) (key : String) (n : Nat) (graceful floor : Option Nat) (w : World) :
    Prop :=
  ∀ h, w.cache p key = some h → n ≤ h → ∃ hd v, (w.handles p key)[h]? = some hd ∧
    (w.timelines key).head? = some v ∧ hd.state.lastIssuedTso = floor ∧
    recoveredTimelineFloorTso v.record = Floor.mergeMax graceful floor

variable {n : Nat}

lemma Handed.cachedWith (h : Handed p key graceful floor w) :
    CachedWith p key n graceful floor w := by
  intro i hi
  cases h.uncached.symm.trans hi

def IfOk (J : World → Prop) (out : Except TsoError α) (w : World) : Prop :=
  ∀ x, out = .ok x → J w

lemma ifOk_error {e : TsoError} : IfOk J (.error e : Except TsoError α) w := nofun

section

variable {selection : TransferTargetSelection}

lemma soloWp_cacheTransferredTimeline (h : Handed p key graceful floor w) :
    SoloWp C p (cacheTransferredTimeline C p key plan selection record revision floor)
      (IfOk (CachedWith p key n graceful floor)) w := by
  unfold cacheTransferredTimeline
  split
  · refine soloWp_call fun c r e hact => soloWp_pure fun _ _ => ?_
    cases c <;> simp only [act, reduceCtorEq] at hact
    cases hact
    split_ifs
    · -- there was room for the new handle
      obtain ⟨v, old, hlist, hgraceful, hfloor, -, -⟩ := h.newest
      intro i hi _
      have hlast : i = (w.handles p key).length := by
        simpa [World.apply, World.setCache, World.setHandles] using hi.symm
      refine ⟨{ state := buildTimelineState record revision floor }, v, ?_, ?_, rfl, ?_⟩
      · simp [World.apply, World.setCache, World.setHandles, hlast]
      · simp [World.apply, World.setCache, World.setHandles, hlist]
      · rw [recoveredTimelineFloorTso, hgraceful, hfloor]
    · exact h.cachedWith
  · have hcleared : ∀ w1, w1.cache p key = none → CachedWith p key n graceful floor w1 := by
      intro w1 hnone i hi
      cases hnone.symm.trans hi
    refine soloWp_call fun c r e hact => ?_
    cases c <;> simp only [act, reduceCtorEq] at hact
    cases hact
    have hnone : (w.apply p (.uncache key)).cache p key = none := by
      simp [World.apply, World.setCache]
    split
    · refine soloWp_choosing_call (.inr rfl) fun _ w1 (h1 : Unmoved p key _ w1) => ?_
      exact soloWp_pure fun _ _ => hcleared w1 (h1.cache.trans hnone)
    · exact soloWp_pure fun _ _ => hcleared _ hnone

lemma soloWp_synchronizeTransferCompletion {route : TimelineRoute}
    (h : Handed p key graceful floor w) (hpresent : Present key record revision w) :
    SoloWp C p (synchronizeTransferCompletion C p key route plan selection record revision floor
      fuel) (IfOk (CachedWith p key n graceful floor)) w := by
  refine soloWp_choosing key uses_releasePreviousDedicated (fun _ w1 h1 => ?_)
    fun _ _ _ => ifOk_error
  split
  · refine soloWp_choosing key (choosing_of_leasing uses_ensureGeneratorLease) (fun _ w2 h2 => ?_)
      fun _ _ _ => ifOk_error
    have hmoved := h1.trans h2
    have hpresent2 : Present key record revision w2 := by
      rw [Present, hmoved.timelines]
      exact hpresent
    refine (soloWp_activateLocalTimelineRecord fuel fuel (h.unmoved hmoved) hpresent2).bind
      (fun activated w3 h3 => ?_) fun _ _ _ => ifOk_error
    exact soloWp_cacheTransferredTimeline h3
  · exact soloWp_cacheTransferredTimeline (h.unmoved h1)

end

lemma World.lt_length_of_unlockedState {h : Nat} {state : TimelineState}
    (hs : w.unlockedState p key h = some state) : h < (w.handles p key).length := by
  unfold World.unlockedState at hs
  split at hs
  · next hd hh => exact (List.getElem?_eq_some_iff.mp hh).1
  · cases hs

section

variable {prep : TransferPreparation}

def CachedByTransfer (p : Nat) (key : String) (n : Nat) (reason : TransferReason)
    (record : TimelineRecord) (cachedLast previousFloor : Option Nat) (w : World) : Prop :=
  CachedWith p key n (preparedGraceful reason record cachedLast)
    (transferFloor reason record cachedLast previousFloor) w

variable {selection : TransferTargetSelection}

lemma soloWp_rejectTransfer {route : TimelineRoute} {err : TsoError} :
    SoloWp C p (rejectTransfer key route selection err : Service α) (IfOk J) w :=
  soloWp_choosing key uses_releaseClaimedDedicatedIfNeeded (fun _ _ _ => soloWp_fail ifOk_error)
    fun _ _ _ => ifOk_error

lemma handed_of_commit (next : TimelineRecord) (write : TimelineWrite)
    (hrevs : ∀ v ∈ w.timelines key, v.revision ≤ w.revision) :
    Handed p key next.lastGracefulIssued next.recoveryFloorTso
      ((w.apply p (.commitTimeline key ⟨w.revision + 1, next, write⟩)).apply p (.uncache key)) := by
  refine ⟨⟨⟨w.revision + 1, next, write⟩, w.timelines key, ?_, rfl, rfl, ?_, le_rfl⟩, ?_⟩
  · simp [World.apply, World.setCache]
  · exact fun v hv => Nat.lt_succ_of_le (hrevs v hv)
  · simp [World.apply, World.setCache]

lemma present_of_commit : Present key next (w.revision + 1)
      ((w.apply p (.commitTimeline key ⟨w.revision + 1, next, write⟩)).apply p (.uncache key)) := by
  refine ⟨⟨w.revision + 1, next, write⟩, ?_, rfl, rfl⟩
  simp [World.apply, World.setCache]

lemma soloWp_commitTransfer {state : TimelineLifecycleState}
    (hrevs : ∀ v ∈ w.timelines key, v.revision ≤ w.revision) :
    SoloWp C p (commitTransfer C p key record revision plan prep selection state fuel)
      (IfOk (CachedByTransfer p key n plan.reason record prep.cachedLast
        prep.previousGeneratorFloor)) w := by
  refine soloWp_call fun c res e hact => ?_
  split
  · exact soloWp_rejectTransfer
  · next newRev =>
    cases c <;> simp only [act, reduceCtorEq] at hact
    rcases storeWrite_cases (some.inj hact) with ⟨-, rfl, hanswer⟩ | ⟨-, hno⟩
    · obtain rfl := hanswer newRev rfl
      refine soloWp_call fun c' r' e' hclear => ?_
      cases c' <;> simp only [act, reduceCtorEq] at hclear
      cases hclear
      have hhanded := handed_of_commit (p := p) (transferredRecord record plan.reason
        prep.cachedLast prep.previousGeneratorFloor (selection.target plan) state
        prep.now) (.transfer plan.reason prep.cachedLast prep.previousGeneratorFloor)
        hrevs
      have hsync : SoloWp C p (synchronizeTransferCompletion C p key record.route plan selection
          (transferredRecord record plan.reason prep.cachedLast
            prep.previousGeneratorFloor (selection.target plan) state prep.now)
          (w.revision + 1) (transferFloor plan.reason record prep.cachedLast
            prep.previousGeneratorFloor) fuel) (IfOk (CachedByTransfer p key n plan.reason
              record prep.cachedLast prep.previousGeneratorFloor)) _ :=
        soloWp_synchronizeTransferCompletion hhanded present_of_commit
      exact hsync.bind (fun x w1 h1 => soloWp_pure fun _ _ => h1 x rfl) fun _ _ _ => ifOk_error
    · exact absurd rfl (hno newRev)

lemma soloWp_applyUnfencedTransferPlan (hrevs : ∀ v ∈ w.timelines key, v.revision ≤ w.revision) :
    SoloWp C p (applyUnfencedTransferPlan C p key record revision plan prep fuel)
      (IfOk (CachedByTransfer p key n plan.reason record prep.cachedLast
        prep.previousGeneratorFloor)) w := by
  have hlater : ∀ w1, Unmoved p key w w1 → ∀ v ∈ w1.timelines key, v.revision ≤ w1.revision := by
    intro w1 h1 v hv
    rw [h1.timelines] at hv
    exact (hrevs v hv).trans h1.revision_le
  refine soloWp_choosing key uses_selectTransferTarget (fun selection w1 h1 => ?_) fun _ _ _ =>
    ifOk_error
  split
  · refine soloWp_choosing key (choosing_of_leasing uses_ensureGeneratorLease).attempt
      (fun leased w2 h2 => ?_) fun _ _ _ => ifOk_error
    split
    · exact soloWp_rejectTransfer
    · exact soloWp_commitTransfer (hlater w2 (h1.trans h2))
  · exact soloWp_commitTransfer (hlater w1 h1)

lemma soloWp_applyFencedLocalTransferPlan {handle i : Nat} {timeline : TimelineState}
    (hcached : w.cache p key = some i) :
    SoloWp C p (applyFencedLocalTransferPlan C p key record plan prep handle timeline fuel)
      (fun _ w1 => w1.cache p key = some i) w := by
  have hkeep : ∀ w1 w2, w1.cache p key = some i → Unmoved p key w1 w2 →
      w2.cache p key = some i := fun w1 w2 h1 h2 => h2.cache.trans h1
  have hreject : ∀ (selection : TransferTargetSelection) err w1, w1.cache p key = some i →
      SoloWp C p (rejectTransfer key record.route selection err :
        Service (TimelineRoute × Nat × TimelineLifecycleState))
        (fun _ w2 => w2.cache p key = some i) w1 := by
    intro selection err w1 h1
    exact soloWp_choosing key uses_releaseClaimedDedicatedIfNeeded
      (fun _ w2 h2 => soloWp_fail (hkeep w1 w2 h1 h2)) fun _ w2 h2 => hkeep w1 w2 h1 h2
  refine soloWp_choosing key uses_selectTransferTarget (fun selection w1 h1 => ?_)
    fun _ w1 h1 => hkeep w w1 hcached h1
  refine soloWp_choosing key (choosing_of_leasing uses_ensureGeneratorLease).attempt
    (fun leased w2 h2 => ?_) fun _ w2 h2 => hkeep w w2 hcached (h1.trans h2)
  have hcached2 := hkeep w w2 hcached (h1.trans h2)
  split
  · exact hreject selection _ w2 hcached2
  refine soloWp_call fun c res e hact => ?_
  have hcached3 : (w2.apply p e).cache p key = some i := by
    rw [World.cache_apply (part_ne_of_act hact (show Part.records ≠ .cache by decide) (by decide))]
    exact hcached2
  split
  · exact hreject selection _ _ hcached3
  refine soloWp_choosing key uses_releasePreviousDedicated (fun _ w4 h4 => ?_)
    fun _ w4 h4 => hkeep _ w4 hcached3 h4
  refine soloWp_call fun c' r' e' hstore => soloWp_pure ?_
  cases c' <;> simp only [act, reduceCtorEq] at hstore
  cases hstore
  exact hkeep _ w4 hcached3 h4

lemma soloWp_prepareTransferApplication {reason : TransferReason} :
    SoloWp C p (prepareTransferApplication C p key record reason)
      (fun out w1 => Unmoved p key w w1 ∧
        ∀ x, out = .ok x → x.previousGeneratorFloor = w.routedFloor record) w := by
  have hfail : ∀ e w1, Unmoved p key w w1 → Unmoved p key w w1 ∧
      ∀ x, (Except.error e : Except TsoError TransferPreparation) = .ok x →
        x.previousGeneratorFloor = w.routedFloor record :=
    fun e w1 h1 => ⟨h1, fun _ hx => by cases hx⟩
  refine soloWp_call fun c now e hnow => ?_
  cases c <;> simp only [act, reduceCtorEq] at hnow
  cases hnow
  have hread : Unmoved p key w (w.apply p (.readClock (w.clock p))) :=
    unmoved_of_act (o := .nowMs) (c := .go) (C := C) (.inl rfl) rfl
  refine soloWp_call fun c res e hload => ?_
  cases c <;> simp only [act, reduceCtorEq] at hload
  rename_i outcome
  cases hload
  cases outcome with
  | lost e => exact soloWp_fail (hfail e _ hread)
  | down e => exact soloWp_fail (hfail e _ hread)
  | done =>
    -- the store has answered with the record of the timeline's generator
    have hdone : ∀ last now w1, Unmoved p key w w1 → SoloWp C p
        (pure ⟨last, w.routedFloor record, now⟩ : Service TransferPreparation)
        (fun out w1 => Unmoved p key w w1 ∧
          ∀ x, out = .ok x → x.previousGeneratorFloor = w.routedFloor record) w1 :=
      fun last now w1 h1 => soloWp_pure ⟨h1, fun x hx => by rw [← Except.ok.inj hx]⟩
    show SoloWp C p (if reason = .failover then _ else
      if C.isLocalEndpoint p record.route.ownerWorkerEndpoint then _ else _) _ _
    split
    · split
      · exact soloWp_fail (hfail _ _ hread)
      · exact hdone none _ _ hread
    split
    · exact soloWp_choosing key (choosing_of_leasing uses_cachedLastIssuedTso)
        (fun last w1 h1 => hdone last _ w1 (hread.trans h1))
        fun e w1 h1 => hfail e w1 (hread.trans h1)
    · exact hdone none _ _ hread

lemma soloWp_applyTransferPlan (hrevs : ∀ v ∈ w.timelines key, v.revision ≤ w.revision) :
    SoloWp C p (applyTransferPlan C p key record revision plan fuel)
      (IfOk fun w1 => ∃ cachedLast, CachedByTransfer p key (w.handles p key).length plan.reason
        record cachedLast (w.routedFloor record) w1) w := by
  have hlater : ∀ w1, Unmoved p key w w1 → ∀ v ∈ w1.timelines key, v.revision ≤ w1.revision := by
    intro w1 h1 v hv
    rw [h1.timelines] at hv
    exact (hrevs v hv).trans h1.revision_le
  refine soloWp_prepareTransferApplication.bind (fun prep w1 h1 => ?_) fun _ _ _ => ifOk_error
  have hunfenced : ∀ w2, Unmoved p key w w2 → SoloWp C p
      (applyUnfencedTransferPlan C p key record revision plan prep fuel)
      (IfOk fun w1 => ∃ cachedLast, CachedByTransfer p key (w.handles p key).length plan.reason
        record cachedLast (w.routedFloor record) w1) w2 := by
    intro w2 h2
    refine (soloWp_applyUnfencedTransferPlan (n := (w.handles p key).length) (hlater w2 h2)).imp
      fun out w3 h3 x hx => ?_
    rw [← h1.2 prep rfl]
    exact ⟨prep.cachedLast, h3 x hx⟩
  split
  · refine soloWp_call fun c cached e hcached => ?_
    cases c <;> simp only [act, reduceCtorEq] at hcached
    cases hcached
    split
    · exact hunfenced _ h1.1
    · next handle hhandle =>
      refine soloWp_call fun c timeline e hlock => ?_
      cases c <;> simp only [act, Option.map_eq_some_iff, reduceCtorEq] at hlock
      obtain ⟨state, hst, heq⟩ := hlock
      obtain ⟨rfl, rfl⟩ := Prod.mk.inj heq
      split
      · -- the handle that stays cached was there before the transfer
        have hold : handle < (w.handles p key).length := by
          rw [← h1.1.handles]
          exact World.lt_length_of_unlockedState hst
        refine Setting.Wp.attempt_bind (soloWp_applyFencedLocalTransferPlan hhandle)
          fun res w3 h3 => ?_
        refine soloWp_call fun c' r' e' hunlock => soloWp_ofExcept fun x _ => ⟨none, ?_⟩
        cases c' <;> simp only [act, reduceCtorEq] at hunlock
        cases hunlock
        intro i hi hle
        cases h3.symm.trans hi
        exact absurd hle (Nat.not_le.mpr hold)
      · refine soloWp_call fun c' r' e' hunlock => hunfenced _ (h1.1.trans ?_)
        cases c' <;> simp only [act, reduceCtorEq] at hunlock
        cases hunlock
        exact ⟨rfl, rfl, by simp [World.apply, World.setHandles], le_rfl⟩
  · exact hunfenced w1 h1.1

end

/-- A transfer that runs by itself and puts a state of the timeline into the cache. The cached
floor covers the persisted one exactly when the transfer is no failover or the timeline has issued
nothing in good order beyond the floor of its previous generator. -/
theorem transferred_floor_covers_persisted_iff {h : Nat}
    {out : TimelineRoute × Nat × TimelineLifecycleState}
    (hrevisions : ∀ v ∈ w.timelines key, v.revision ≤ w.revision)
    (hrun : Alone (machine C) p (applyTransferPlan C p key record revision plan fuel) w
      (.ok out) w')
    (hcached : w'.cache p key = some h) (hinserted : (w.handles p key).length ≤ h) :
    ∃ hd v, (w'.handles p key)[h]? = some hd ∧ (w'.timelines key).head? = some v ∧
      (Floor.Le (recoveredTimelineFloorTso v.record) hd.state.lastIssuedTso ↔
        plan.reason ≠ .failover ∨ Floor.Le record.lastGracefulIssued (w.routedFloor record)) := by
  obtain ⟨cachedLast, hspec⟩ := Setting.Wp.of_alone (soloWp_applyTransferPlan hrevisions)
    hrun out rfl
  obtain ⟨hd, v, hhandle, hhead, hlast, hrecovered⟩ := hspec h hcached hinserted
  refine ⟨hd, v, hhandle, hhead, ?_⟩
  rw [hlast, hrecovered, Floor.mergeMax_le_iff]
  by_cases hreason : plan.reason = .failover
  · rw [hreason]
    simp [preparedGraceful, transferFloor, safeFloorForTransferReason, Floor.Le.refl]
  have hcovered : Floor.Le (preparedGraceful plan.reason record cachedLast)
      (transferFloor plan.reason record cachedLast (w.routedFloor record)) := by
    cases hr : plan.reason with
    | failover => exact absurd hr hreason
    | _ => exact Floor.le_mergeMax_left
  simp [hreason, hcovered, Floor.Le.refl]

def abandonedWorld (issued : Nat) : World :=
  { World.initial (fun _ => 200) with
    revision := 2
    generators := fun g => if g = 1 then
      [⟨1, sampleCluster.createdGeneratorRecord 1 1 10, 1, .create⟩] else []
    timelines := fun key => if key = "k" then
      [⟨2, { createdTimelineRecord "k" "b:1" 1 .shared 10 with
        lastGracefulIssued := some issued }, .create⟩] else [] }

def failoverRun (issued : Nat) : Option (Except TsoError (TimelineRoute × Nat ×
    TimelineLifecycleState) × World) :=
  (applyTransferPlan sampleCluster 0 "k" { createdTimelineRecord "k" "b:1" 1 .shared 10 with
    lastGracefulIssued := some issued } 2 ⟨.shared, "a:1", none, .failover⟩ 3).runAlone
      (machine sampleCluster) 0 Op.usual (abandonedWorld issued)

theorem transferred_floor_covers_persisted_sample :
    ∃ out w', failoverRun 900 = some (out, w') ∧ ∃ hd v, (w'.handles 0 "k")[0]? = some hd ∧
      (w'.timelines "k").head? = some v ∧
      Floor.Le (recoveredTimelineFloorTso v.record) hd.state.lastIssuedTso := by
  have hrun : (failoverRun 900).any (fun x => x.1.isOk && x.2.cache 0 "k" = some 0) = true := by
    decide +kernel
  obtain ⟨⟨out, w'⟩, hsome, hP⟩ := (Option.any_eq_true ..).mp hrun
  obtain ⟨hok, hcache⟩ := Bool.and_eq_true_iff.mp hP
  cases out with
  | error e => cases hok
  | ok x =>
    obtain ⟨hd, v, hhandle, hhead, hiff⟩ := transferred_floor_covers_persisted_iff
      (by decide +kernel) (.of_runAlone hsome)
      (of_decide_eq_true hcache) (by decide)
    exact ⟨_, w', hsome, hd, v, hhandle, hhead, hiff.mpr (.inr (by decide +kernel))⟩

/-- The failover is done and the worker serves the timeline from the floor 963, although the record
says that 2000 has been issued. -/
theorem transferred_floor_below_persisted :
    ∃ out w' hd v, Alone (machine sampleCluster) 0 (applyTransferPlan sampleCluster 0 "k"
        { createdTimelineRecord "k" "b:1" 1 .shared 10 with lastGracefulIssued := some 2000 } 2
        ⟨.shared, "a:1", none, .failover⟩ 3) (abandonedWorld 2000) (.ok out) w' ∧
      w'.cache 0 "k" = some 0 ∧ (w'.handles 0 "k")[0]? = some hd ∧
      (w'.timelines "k").head? = some v ∧ v.record.state = .active ∧
      hd.state.lastIssuedTso = some 963 ∧ recoveredTimelineFloorTso v.record = some 2000 := by
  have hrun : (failoverRun 2000).any (fun x => x.1.isOk && decide (x.2.cache 0 "k" = some 0 ∧
      (x.2.handles 0 "k")[0]?.map (fun hd => hd.state.lastIssuedTso) = some (some 963) ∧
      (x.2.timelines "k").head?.map (fun v => (v.record.state,
        recoveredTimelineFloorTso v.record)) = some (.active, some 2000))) = true := by
    decide +kernel
  obtain ⟨⟨out, w'⟩, hsome, hP⟩ := (any_eq_true ..).mp hrun
  obtain ⟨hok, hrest⟩ := Bool.and_eq_true_iff.mp hP
  obtain ⟨hcache, hhandle, hhead⟩ := of_decide_eq_true hrest
  obtain ⟨hd, hhd, hlast⟩ := map_eq_some_iff.mp hhandle
  obtain ⟨v, hv, hfields⟩ := map_eq_some_iff.mp hhead
  obtain ⟨hactive, hrecovered⟩ := Prod.mk.inj hfields
  cases out with
  | error e => cases hok
  | ok x => exact ⟨x, w', hd, v, .of_runAlone hsome, hcache, hhd, hv, hactive, hlast, hrecovered⟩

end Chronos
