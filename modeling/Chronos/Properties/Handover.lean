import Chronos.Properties.RouteAgreement
import Chronos.Properties.Uniqueness
import Chronos.Reservation.Succession

/-! How one owner of a timeline hands over to the next. The versions of a timeline record are the
tenures of a succession: a new owner starts above the recovery floor it is given, and that floor
has to cover whatever the earlier owners issue, before the transfer and after it. -/

namespace Chronos

open Interleaving Reservation List Option

variable {C : Cluster} {p g : Nat} {key : String} {w : World} {e : Effect}

def HandsOver (C : Cluster) (w : World) (key : String) (v : TimelineVersion) : Prop :=
  ∀ v₀ ∈ (w.timelines key).head?,
    match v.write with
    | .transfer reason cachedLast floor =>
      -- the old generator's record has not moved since it was read
      Floor.Le (w.generatorFloor v₀.record.route.generatorId) floor ∧
        (Floor.Le v₀.record.recoveryFloorTso floor ∨ reason ≠ .failover ∧
          Floor.Le v₀.record.recoveryFloorTso (cachedLast.or v₀.record.lastGracefulIssued))
    | .fencedTransfer _ _ state =>
      -- the cached state remembers what was issued on the route
      ∀ a ∈ w.issued, ∀ s ∈ a.serving, s.request.timelineKey = key →
        s.state.route = v₀.record.route →
        Floor.Le (some (C.layout.tsoAt a.generatorId (a.newIndex - 1))) state.lastIssuedTso
    | .create | .activate | .floorFlush _ => True

/-- Transfers know what they hand over, a cached state is installed with the floor of its record,
the route is still the checked one when it is locked to allocate, and allocations carry a bound,
which after a transfer stays below the floor that was handed on. -/
def handedOver (C : Cluster) : Condition where
  effect _ w e :=
    match e with
    | .issue a => a.args.issuedUpperBound ≠ none ∧
        ∀ s ∈ a.serving, ∀ v ∈ w.timelines s.request.timelineKey,
          s.state.route.epoch < v.record.route.epoch →
            Floor.Le a.args.issuedUpperBound v.record.recoveryFloorTso
    | .lock _ _ (some checked) state => state.route = checked
    | .newHandle key state _ => ∀ v ∈ w.timelines key, v.revision = state.revision →
        Floor.Le v.record.recoveryFloorTso state.lastIssuedTso
    | .commitTimeline key v => HandsOver C w key v
    | _ => True

instance (v : TimelineVersion) : Decidable (HandsOver C w key v) := by
  unfold HandsOver
  cases v.write <;> infer_instance

instance : (handedOver C).Checked where
  effect p w e := by
    have hlock : ∀ key i checked state,
        Decidable ((handedOver C).effect p w (.lock key i checked state)) := by
      intro key i checked state
      apply Option.casesOn (motive := fun checked =>
        Decidable ((handedOver C).effect p w (.lock key i checked state))) checked <;>
        intros <;> dsimp only [handedOver] <;> infer_instance
    apply Effect.casesOn (motive := fun e => Decidable ((handedOver C).effect p w e)) e <;>
      intros <;> first | exact hlock _ _ _ _ | (dsimp only [handedOver]; infer_instance)

def succession (C : Cluster) (key : String) (w : World) : Succession where
  tenures := {t | ∃ v ∈ w.timelines key, t = (v.record.route.epoch, v.record.recoveryFloorTso)}
  issued := {x | ∃ a ∈ w.issued, ∃ s, a.serving = some s ∧ s.request.timelineKey = key ∧
    x.1 = s.state.route.epoch ∧
    ∃ i, a.startIndex ≤ i ∧ i < a.newIndex ∧ x.2 = C.layout.tsoAt a.generatorId i}

/-- Cached states cover the recovery floors of their records, routes were still the checked ones
under the lock, generator records cover what was issued, and successions are sound. -/
structure HandedOver (C : Cluster) (w : World) : Prop where
  floors : GeneratorFloors w
  handles : ∀ p key, ∀ hd ∈ w.handles p key, Floored key hd.state w
  locks : ∀ lock ∈ w.locks, Floored lock.key lock.state w
  checked : LocksChecked w
  covered : ∀ a ∈ w.issued, ∀ i < a.newIndex,
    Floor.Le (some (C.layout.tsoAt a.generatorId i)) (w.generatorFloor a.generatorId)
  sound : ∀ key, (succession C key w).Sound

lemma HandedOver.initial (clock : Nat → Nat) : HandedOver C (World.initial clock) := by
  refine ⟨fun _ => .nil, ?_, ?_, ?_, ?_, fun key => ?_⟩
  · simp [World.initial]
  · simp [World.initial]
  · simp [LocksChecked, World.initial]
  · simp [World.initial]
  · constructor <;> simp [succession, World.initial]

namespace HandedOver

variable (h : HandedOver C w) (hbase : Base C w) (hpermit : Permit C p w e)
  (hcond : e.isLoss = true ∨ (handedOver C).effect p w e)

include h hpermit hcond

lemma handles_apply {q : Nat} {hd : TimelineHandle} (hhd : hd ∈ (w.apply p e).handles q key) :
    Floored key hd.state (w.apply p e) := by
  have hgrows := hpermit.grows
  rcases World.handle_apply hhd with ⟨hd0, hhd0, hst⟩ | ⟨cached, rfl⟩ | ⟨i, rfl⟩
  · exact hst ▸ (h.handles q key hd0 hhd0).mono hgrows
  · obtain ⟨v, hv, hroute, hrev⟩ : HandleFact key hd.state w := hpermit
    have hfloor := (hcond.resolve_left nofun) v hv hrev
    exact Floored.mono ⟨v, hv, hroute, hrev, hfloor⟩ hgrows
  rcases hpermit.2 with hfloored | ⟨lock, hlock, -, rfl, hroute, hrev, hle⟩
  · exact hfloored.mono hgrows
  -- the stored state goes on from one that was floored under the lock
  obtain ⟨v, hv, hroute', hrev', hfloor⟩ := h.locks lock hlock
  exact Floored.mono ⟨v, hv, hroute'.trans hroute, hrev'.trans hrev, hfloor.trans hle⟩ hgrows

lemma locks_apply {lock : HandleLock} (hlock : lock ∈ (w.apply p e).locks) :
    Floored lock.key lock.state (w.apply p e) := by
  have hgrows := hpermit.grows
  rcases World.locks_apply (w := w) (p := p) (e := e) with heq | ⟨key, i, checked, state, rfl, heq⟩
  · exact (h.locks lock (heq ▸ hlock)).mono hgrows
  rw [heq] at hlock
  rcases mem_cons.mp hlock with rfl | hlock
  · obtain ⟨hd, hhd, rfl⟩ := hpermit
    exact (h.handles p key hd hhd).mono hgrows
  · exact (h.locks lock hlock).mono hgrows

lemma covered_apply {a : Allocation} (ha : a ∈ (w.apply p e).issued) {i : Nat}
    (hi : i < a.newIndex) :
    Floor.Le (some (C.layout.tsoAt a.generatorId i))
      ((w.apply p e).generatorFloor a.generatorId) := by
  have hgrown : Floor.Le (w.generatorFloor a.generatorId)
      ((w.apply p e).generatorFloor a.generatorId) :=
    hpermit.grows.generatorFloor (h.floors.apply hpermit)
  rcases hpermit.issued with heq | ⟨b, rfl, heq, hissue⟩
  · exact (h.covered a (heq ▸ ha) i hi).trans hgrown
  rw [heq] at ha
  rcases mem_append.mp ha with ha | ha
  · exact (h.covered a ha i hi).trans hgrown
  obtain rfl := mem_singleton.mp ha
  obtain ⟨u, hu⟩ := ne_none_iff_exists'.mp (hcond.resolve_left nofun).1
  exact (hissue.le_generatorFloor h.floors hu hi).trans hgrown

omit hpermit hcond in
lemma served_generator {a : Allocation} {s : Serving} (hbase : Base C w) (ha : a ∈ w.issued)
    (hs : a.serving = some s) : s.state.route.generatorId = a.generatorId := by
  have hserved := hbase.issued a ha s hs
  have hroute := h.checked _ hserved.locked _ rfl
  rw [hroute, hserved.generator]

end HandedOver

section

variable {v v₀ : TimelineVersion}

lemma succession_issued_commit :
    (succession C key (w.apply p (.commitTimeline key v))).issued = (succession C key w).issued :=
  rfl

lemma succession_tenures_commit : (succession C key (w.apply p (.commitTimeline key v))).tenures =
      insert (v.record.route.epoch, v.record.recoveryFloorTso) (succession C key w).tenures := by
  ext t
  simp [succession, World.apply]

lemma exists_version_of_issued (hbase : Base C w) {x : Nat × Nat}
    (hx : x ∈ (succession C key w).issued) :
    ∃ v ∈ w.timelines key, v.record.route.epoch = x.1 := by
  obtain ⟨a, ha, s, hs, rfl, hepoch, -⟩ := hx
  obtain ⟨v, hv, hroute, -⟩ := (hbase.issued a ha s hs).handle
  exact ⟨v, hv, by rw [hroute, hepoch]⟩

lemma mem_tenures (hhead : (w.timelines key).head? = some v₀) :
    (v₀.record.route.epoch, v₀.record.recoveryFloorTso) ∈ (succession C key w).tenures :=
  ⟨v₀, mem_of_mem_head? hhead, rfl⟩

lemma succession_hand (hbase : Base C w) (hhead : (w.timelines key).head? = some v₀)
    (hle : Floor.Le v₀.record.recoveryFloorTso v.record.recoveryFloorTso)
    (hcovers : ∀ a ∈ w.issued, ∀ s, a.serving = some s → s.request.timelineKey = key →
      s.state.route = v₀.record.route → ∀ i < a.newIndex,
        Floor.Le (some (C.layout.tsoAt a.generatorId i)) v.record.recoveryFloorTso) :
    (succession C key w).Step (succession C key (w.apply p (.commitTimeline key v))) := by
  refine .hand _ _ _ (mem_tenures hhead) (fun x hx => ?_) hle (fun x hx hepoch => ?_)
    succession_tenures_commit succession_issued_commit
  · obtain ⟨v', hv', hepoch⟩ := exists_version_of_issued hbase hx
    have hle := hbase.epoch_le hv'
    rw [World.committedEpoch, hhead] at hle
    exact hepoch ▸ hle
  · obtain ⟨a, ha, s, hs, hkey, hepoch', i, -, hi, hval⟩ := hx
    obtain ⟨v', hv', hroute, -⟩ := (hbase.issued a ha s hs).handle
    have hroute0 : s.state.route = v₀.record.route := by
      rw [← hroute]
      refine hbase.route_eq (hkey ▸ hv') (mem_of_mem_head? hhead) ?_
      rw [hroute, ← hepoch', hepoch]
    rw [hval]
    exact hcovers a ha s hs hkey hroute0 i hi

lemma HandedOver.commit_step (h : HandedOver C w) (hbase : Base C w)
    (hcommit : TimelineCommit C p key w v) (hhands : HandsOver C w key v) :
    (succession C key w).Step (succession C key (w.apply p (.commitTimeline key v))) := by
  cases hw : v.write with
  | create =>
    rw [TimelineCommit, hw] at hcommit
    refine .begin (Set.eq_empty_of_forall_notMem fun x hx => ?_) succession_issued_commit
    obtain ⟨v', hv', -⟩ := exists_version_of_issued hbase hx
    simp [hcommit.1] at hv'
  | activate =>
    rw [TimelineCommit, hw] at hcommit
    obtain ⟨v₀, hhead, now, hrecord⟩ := hcommit
    refine .keep _ v.record.recoveryFloorTso (mem_tenures hhead) ?_ ?_ succession_issued_commit
    · rw [hrecord]
      exact Floor.Le.refl
    · rw [succession_tenures_commit, hrecord]
      rfl
  | floorFlush localLast =>
    rw [TimelineCommit, hw] at hcommit
    obtain ⟨v₀, hhead, now, hrecord⟩ := hcommit
    refine .keep _ v.record.recoveryFloorTso (mem_tenures hhead) ?_ ?_ succession_issued_commit
    · rw [hrecord]
      exact Floor.le_mergeMax_left
    · rw [succession_tenures_commit, hrecord]
      rfl
  | transfer reason cachedLast floor =>
    rw [TimelineCommit, hw] at hcommit
    obtain ⟨v₀, hhead, target, state, now, hrecord⟩ := hcommit
    have hfloor : v.record.recoveryFloorTso =
        transferFloor reason v₀.record cachedLast floor := by rw [hrecord]; rfl
    have hknown := hhands v₀ hhead
    rw [hw] at hknown
    refine succession_hand hbase hhead ?_ fun a ha s hs _ hroute i hi => ?_
    · rw [hfloor]
      rcases hknown.2 with hle | ⟨hgraceful, hle⟩
      · exact hle.trans le_transferFloor
      · exact hle.trans (graceful_le_transferFloor hgraceful)
    · have hcovered := h.covered a ha i hi
      rw [← h.served_generator hbase ha hs, hroute] at hcovered ⊢
      rw [hfloor]
      exact hcovered.trans (hknown.1.trans le_transferFloor)
  | fencedTransfer reason cachedLast state =>
    rw [TimelineCommit, hw] at hcommit
    obtain ⟨v₀, hhead, hroute0, hrevision, hlocked, target, now, hrecord⟩ := hcommit
    have hlast : Floor.Le state.lastIssuedTso v.record.recoveryFloorTso := by
      have hfloor : v.record.recoveryFloorTso =
          fencedFloor (preparedGraceful reason v₀.record cachedLast) state := by rw [hrecord]; rfl
      rw [hfloor, fencedFloor_eq]
      exact Floor.le_mergeMax_left.trans Floor.le_mergeMax_left
    have hknown := hhands v₀ hhead
    rw [hw] at hknown
    refine succession_hand hbase hhead ?_ fun a ha s hs hkey hroute i hi => ?_
    · -- the fenced state was floored when its lock was taken
      obtain ⟨v', hv', -, hrevision', hfloor⟩ := h.locks _ hlocked
      have heq : v' = v₀ := KeyValue.eq_of_pairwise_lt ((hbase.timelineOrder key).imp And.left) hv'
        (List.mem_of_mem_head? hhead) (hrevision'.trans hrevision)
      exact (heq ▸ hfloor).trans hlast
    · have hmax : Floor.Le (some (C.layout.tsoAt a.generatorId i))
          (some (C.layout.tsoAt a.generatorId (a.newIndex - 1))) :=
        Floor.some_le_some.mpr (TimestampLayout.tsoAt_le_tsoAt.mpr (by omega))
      exact hmax.trans ((hknown a ha s hs hkey hroute).trans hlast)

lemma IssueFact.above {a : Allocation} {s : Serving} (hissue : IssueFact C p a w)
    (hs : a.serving = some s) {floor i : Nat} (hfloor : s.state.lastIssuedTso = some floor)
    (hi : a.startIndex ≤ i) : floor < C.layout.tsoAt a.generatorId i := by
  have hserving := hissue.serving s hs
  obtain ⟨floorIdx, last, hfloorIdx, hreserved⟩ := hissue.reserved
  have hstart := hreserved.floor_lt hfloorIdx hserving.range hserving.positive
    (hserving.floor.trans hfloor)
  exact hstart.trans_le (TimestampLayout.tsoAt_le_tsoAt.mpr hi)

lemma HandedOver.issue_step {a : Allocation} (h : HandedOver C w) (hissue : IssueFact C p a w)
    (hcond : (handedOver C).effect p w (.issue a)) :
    (succession C key w).Step (succession C key (w.apply p (.issue a))) := by
  by_cases hserved : ∃ s, a.serving = some s ∧ s.request.timelineKey = key
  · obtain ⟨s, hs, rfl⟩ := hserved
    obtain ⟨v, hv, hroute, -, hfloor⟩ := h.locks _ (hissue.serving s hs).locked
    refine .issue (v.record.route.epoch, v.record.recoveryFloorTso)
      {t | ∃ i, a.startIndex ≤ i ∧ i < a.newIndex ∧ t = C.layout.tsoAt a.generatorId i}
      ⟨v, hv, rfl⟩ ?_ ?_ rfl ?_
    · rintro t ⟨i, hlow, -, rfl⟩ floor hfloor'
      obtain ⟨last, hlast, hle⟩ := hfloor floor hfloor'
      exact hle.trans_lt (hissue.above hs hlast hlow)
    · rintro t ⟨i, -, hi, rfl⟩ t' ⟨v', hv', rfl⟩ hlt
      obtain ⟨u, hu⟩ := ne_none_iff_exists'.mp hcond.1
      have hbound := hcond.2 s hs v' hv' (hroute ▸ hlt)
      have hle : Floor.Le (some (C.layout.tsoAt a.generatorId i)) a.args.issuedUpperBound := by
        rw [hu]
        exact Floor.some_le_some.mpr (hissue.le_bound hu hi)
      exact hle.trans hbound
    · ext ⟨epoch, t⟩
      simp only [succession, World.apply, mem_append, mem_singleton, Set.mem_union,
        Set.mem_ofPred_eq, Set.mem_image, Prod.mk.injEq]
      constructor
      · rintro ⟨b, hb | rfl, s', hs', hkey, hepoch, i, hrange⟩
        · exact .inl ⟨b, hb, s', hs', hkey, hepoch, i, hrange⟩
        · cases hs.symm.trans hs'
          exact .inr ⟨t, ⟨i, hrange⟩, by rw [hroute, hepoch], rfl⟩
      · rintro (⟨b, hb, hrest⟩ | ⟨t', ⟨i, hrange⟩, hepoch, rfl⟩)
        · exact ⟨b, .inl hb, hrest⟩
        · exact ⟨a, .inr rfl, s, hs, rfl, by rw [← hepoch, hroute], i, hrange⟩
  · refine .idle rfl (Set.ext fun x => ?_)
    simp only [succession, World.apply, mem_append, mem_singleton, Set.mem_ofPred_eq]
    constructor
    · rintro ⟨b, hb | rfl, s, hs, hkey, hrest⟩
      · exact ⟨b, hb, s, hs, hkey, hrest⟩
      · exact absurd ⟨s, hs, hkey⟩ hserved
    · rintro ⟨b, hb, hrest⟩
      exact ⟨b, .inl hb, hrest⟩

end

lemma HandedOver.apply (h : HandedOver C w) (hbase : Base C w) (hpermit : Permit C p w e)
    (hcond : e.isLoss = true ∨ (handedOver C).effect p w e) : HandedOver C (w.apply p e) where
  floors := h.floors.apply hpermit
  handles _ _ _ hhd := h.handles_apply hpermit hcond hhd
  locks _ hlock := h.locks_apply hpermit hcond hlock
  checked := by
    refine h.checked.apply fun key i checked state he => ?_
    subst he
    exact hcond.resolve_left nofun
  covered _ ha _ hi := h.covered_apply hpermit hcond ha hi
  sound key := by
    refine Succession.Step.sound ?_ (h.sound key)
    rcases hpermit.timelines key with htimelines | ⟨v, rfl, -, -, hcommit⟩
    · rcases hpermit.issued with hissued | ⟨a, rfl, -, hissue⟩
      · exact .idle (by simp [succession, htimelines]) (by simp [succession, hissued])
      · exact h.issue_step hissue (hcond.resolve_left nofun)
    · exact h.commit_step hbase hcommit (hcond.resolve_left nofun)

lemma Run.handover {clock : Nat → Nat} {s : State} (h : Run C (handedOver C) clock s) :
    HandedOver C s.world :=
  h.invariant (HandedOver.initial clock)
    (fun _ _ _ hbase hI hpermit hcond => hI.apply hbase hpermit hcond)
    fun _ _ _ _ hI _ _ => { hI with }

end Chronos
