import Chronos.Properties.GeneratorHistory
import Chronos.Reservation.Ledger

/-! No timestamp is handed out twice. Each generator is a ledger: a process may issue, from its
cursor on, what a record it wrote itself allows, and the recovery floor covers all of it. -/

namespace Chronos

open Interleaving Reservation

variable {C : Cluster} {p g i : Nat} {w : World} {e : Effect}

def ledger (C : Cluster) (g : Nat) (w : World) : Ledger Nat where
  cursor p := (w.runtime p g).nextIndex
  granted p i := ∃ v ∈ w.generators g, v.writer = p ∧ v.write.grants = true ∧
    Floor.Le (some (C.layout.tsoAt g i)) v.record.issuedUpperBound
  covered i := ∃ v ∈ w.generators g,
    Floor.Le (some (C.layout.tsoAt g i)) (generatorRecoveryFloorTso v.record)
  leader := (w.generators g).head?.bind fun v => if v.write.grants then some v.writer else none
  issued := (w.issued.filter (·.generatorId = g)).map fun a => (a.startIndex, a.newIndex)

variable {v : GeneratorVersion} {a : Allocation} {u : Nat}

lemma ledger_leader (hhead : (w.generators g).head? = some v)
    (hgrants : v.write.grants = true) : (ledger C g w).leader = some v.writer := by
  simp [ledger, hhead, hgrants]

lemma PastFloor.covered_lt (hfloors : GeneratorFloors w)
    (hhead : (w.generators g).head? = some v) (hpast : PastFloor C p g v.record w)
    (hi : (ledger C g w).covered i) : i < (ledger C g w).cursor p := by
  obtain ⟨v', hv', hle⟩ := hi
  have htop := hle.trans (hfloors.le_generatorFloor hv')
  rw [World.generatorFloor, Floor.latest_of_head hhead] at htop
  obtain ⟨floor, hfloor, hfloorle⟩ := htop _ rfl
  exact TimestampLayout.tsoAt_lt_tsoAt.mp (hfloorle.trans_lt (hpast floor hfloor))

lemma ledger_advance {w' : World} (hle : w ≤ w') (hgens : w'.generators g = w.generators g)
    (hissued : w'.issued = w.issued) : (ledger C g w).Step (ledger C g w') := by
  refine .advance (fun p => hle.nextIndex p g) ?_ ?_ ?_ ?_ <;> simp [ledger, hgens, hissued]

lemma GeneratorCommit.may_grant (hfloors : GeneratorFloors w)
    (h : GeneratorCommit C p g w v) (hgrants : v.write.grants = true) :
    (ledger C g w).leader = some p ∨
      ∀ i, (ledger C g w).covered i → i < (ledger C g w).cursor p := by
  cases hw : v.write with
  | create =>
    rw [GeneratorCommit, hw] at h
    refine .inr fun i hcovered => ?_
    obtain ⟨v', hv', -⟩ := hcovered
    simp [h.1] at hv'
  | refresh reason =>
    rw [GeneratorCommit, hw] at h
    obtain ⟨v0, hhead, lease, hmirrors, -⟩ := h
    rcases hmirrors.usable with ⟨hwriter, hgrants0⟩ | hpast
    · exact .inl (hwriter ▸ ledger_leader hhead hgrants0)
    · exact .inr fun i hi => hpast.covered_lt hfloors hhead hi
  | takeover | floorFlush => simp [hw, GeneratorWrite.grants] at hgrants

lemma ledger_commit {vs : List (Nat × GeneratorVersion)} (hfloors : GeneratorFloors w)
    (hpermit : Permit C p w (.commitGenerators vs)) :
    (ledger C g w).Step (ledger C g (w.apply p (.commitGenerators vs))) := by
  rcases hpermit.generators g with heq | ⟨v, heq, -, -, hwriter, hcommit⟩
  · exact ledger_advance hpermit.grows heq rfl
  have hcovered : ∀ i, (ledger C g w).covered i →
      (ledger C g (w.apply p (.commitGenerators vs))).covered i := fun i ⟨v', hv', hle⟩ =>
    ⟨v', heq ▸ List.mem_cons_of_mem v hv', hle⟩
  by_cases hgrants : v.write.grants = true
  · refine .grant p (hcommit.may_grant hfloors hgrants) rfl (fun i ⟨v', hv', _, _, hle⟩ => ?_)
      (fun q hq i ⟨v', hv', hw, hgr, hle⟩ => ?_) hcovered ?_ rfl
    · exact ⟨v', hv', hle.trans Floor.le_mergeMax_right⟩
    · rw [heq] at hv'
      rcases List.mem_cons.mp hv' with rfl | hv'
      · exact absurd (hw.symm.trans hwriter) hq
      · exact ⟨v', hv', hw, hgr, hle⟩
    · exact (ledger_leader (by rw [heq, List.head?_cons]) hgrants).trans (congrArg some hwriter)
  · refine .raise rfl (fun q i ⟨v', hv', hw, hgr, hle⟩ => ?_) hcovered ?_ rfl
    · rw [heq] at hv'
      rcases List.mem_cons.mp hv' with rfl | hv'
      · exact absurd hgr hgrants
      · exact ⟨v', hv', hw, hgr, hle⟩
    · simp [ledger, heq, hgrants]

lemma IssueFact.le_bound (h : IssueFact C p a w)
    (hu : a.args.issuedUpperBound = some u) (hi : i < a.newIndex) :
    C.layout.tsoAt a.generatorId i ≤ u := by
  obtain ⟨floorIdx, last, -, hreserved⟩ := h.reserved
  have hlast : i ≤ last := by
    have := hreserved.last_eq
    simp only at *
    omega
  exact (TimestampLayout.tsoAt_le_tsoAt.mpr hlast).trans (hreserved.bounded u hu).2.2

lemma IssueFact.le_generatorFloor (h : IssueFact C p a w)
    (hfloors : GeneratorFloors w) (hu : a.args.issuedUpperBound = some u) (hi : i < a.newIndex) :
    Floor.Le (some (C.layout.tsoAt a.generatorId i)) (w.generatorFloor a.generatorId) := by
  obtain ⟨lease, ⟨v, hv⟩, hlease⟩ := h.bound u hu
  have hbound : Floor.Le (some u) (generatorRecoveryFloorTso v.record) := by
    rw [← hlease, ← hv.bound]
    exact Floor.le_mergeMax_right
  have hle := Floor.some_le_some.mpr (h.le_bound hu hi)
  exact hle.trans (hbound.trans (hfloors.le_generatorFloor hv.mem))

lemma IssueFact.granted (h : IssueFact C p a w)
    (hbound : a.args.issuedUpperBound ≠ none) (hi : Ledger.Within i (a.startIndex, a.newIndex)) :
    (ledger C a.generatorId w).granted p i := by
  obtain ⟨floorIdx, last, -, hreserved⟩ := h.reserved
  obtain ⟨u, hu⟩ := Option.ne_none_iff_exists'.mp hbound
  obtain ⟨lease, ⟨v, hv⟩, hlease⟩ := h.bound u hu
  have hle := h.le_bound hu hi.2
  rcases hv.usable with ⟨hwriter, hgrants⟩ | hpast
  · refine ⟨v, hv.mem, hwriter, hgrants, ?_⟩
    rw [hv.bound, hlease]
    exact Floor.some_le_some.mpr hle
  -- a cursor past the floor leaves nothing below the bound of the same record
  have hfloor : Floor.Le (some u) (generatorRecoveryFloorTso v.record) := by
    rw [← hlease, ← hv.bound]
    exact Floor.le_mergeMax_right
  obtain ⟨floor, hfloor, hule⟩ := hfloor u rfl
  have hlt := (hpast floor hfloor).trans_le
    (TimestampLayout.tsoAt_le_tsoAt.mpr (hreserved.old_le.trans hi.1))
  omega

lemma ledger_issue (h : IssueFact C p a w) (hbound : a.args.issuedUpperBound ≠ none) :
    (ledger C g w).Step (ledger C g (w.apply p (.issue a))) := by
  obtain ⟨floorIdx, last, -, hreserved⟩ := h.reserved
  by_cases hg : a.generatorId = g
  · subst hg
    refine .issue p a.startIndex a.newIndex hreserved.old_le ?_ (fun i hi => h.granted hbound hi)
      ?_ (fun q hq => ?_) rfl rfl rfl ?_
    · have := hreserved.new_eq
      simp only at this
      omega
    · simp [ledger, World.apply, World.setRuntime_runtime]
    · simp [ledger, World.apply, World.setRuntime_runtime, hq]
    · simp [ledger, World.apply]
  · refine .advance (fun q => ?_) rfl rfl rfl ?_
    · simp [ledger, World.apply, World.setRuntime_runtime, Ne.symm hg]
    · simp [ledger, World.apply, hg]

def boundedAllocations : Condition where
  effect _ _ e :=
    match e with
    | .issue a => a.args.issuedUpperBound ≠ none
    | _ => True

instance : boundedAllocations.Checked where
  effect p w e := by
    apply Effect.casesOn (motive := fun e => Decidable (boundedAllocations.effect p w e)) e <;>
      intros <;> dsimp only [boundedAllocations] <;> infer_instance

lemma ledger_step (hfloors : GeneratorFloors w) (hpermit : Permit C p w e)
    (hbounded : e.isLoss = true ∨ boundedAllocations.effect p w e) :
    (ledger C g w).Step (ledger C g (w.apply p e)) := by
  cases e with
  | commitGenerators vs => exact ledger_commit hfloors hpermit
  | issue a => exact ledger_issue hpermit (hbounded.resolve_left nofun)
  | newHandle key state cached =>
    refine ledger_advance hpermit.grows ?_ ?_ <;> (simp only [World.apply]; split_ifs <;> rfl)
  | _ => exact ledger_advance hpermit.grows rfl rfl

section

variable {clock : Nat → Nat} {s : State}

lemma Run.ledger_sound (h : Run C boundedAllocations clock s) : (ledger C g s.world).Sound := by
  refine (h.invariant (I := fun w => GeneratorFloors w ∧ (ledger C g w).Sound) ⟨fun _ => .nil, ?_⟩
    (fun p w e _ hI hpermit hbounded =>
      ⟨hI.1.apply hpermit, (ledger_step hI.1 hpermit hbounded).sound hI.2⟩)
    fun _ _ _ _ hI _ _ => hI).2
  constructor <;> simp [ledger, World.initial, Ledger.Taken, Ledger.Open]

def Wellformed (C : Cluster) (a : Allocation) : Prop :=
  a.generatorId < C.layout.maxGenerators ∧ a.newIndex = a.startIndex + a.args.count

lemma Run.wellformed (h : Run C boundedAllocations clock s) :
    ∀ a ∈ s.world.issued, Wellformed C a := by
  refine h.issued fun p w a hissue hbounded => ?_
  obtain ⟨floorIdx, last, -, hreserved⟩ := hissue.reserved
  obtain ⟨u, hu⟩ := Option.ne_none_iff_exists'.mp hbounded
  exact ⟨(hreserved.bounded u hu).2.1, hreserved.new_eq⟩

lemma Run.disjoint (h : Run C boundedAllocations clock s) :
    s.world.issued.Pairwise fun a b => a.generatorId = b.generatorId →
      ∀ i, Ledger.Within i (a.startIndex, a.newIndex) →
        ¬ Ledger.Within i (b.startIndex, b.newIndex) := by
  rw [List.pairwise_iff_forall_sublist]
  intro a b hsub hg
  have hpair := (h.ledger_sound (g := a.generatorId)).disjoint
  simp only [ledger, List.pairwise_map] at hpair
  have hfilter := (hsub.filter (·.generatorId = a.generatorId))
  simp only [List.filter_cons, decide_true, hg, if_true, List.filter_nil] at hfilter
  exact List.pairwise_iff_forall_sublist.mp hpair (hg ▸ hfilter)

lemma Wellformed.decode {ranges : List TimestampRange} {t : Nat} (h : Wellformed C a)
    (hranges : Generator.allocatedRanges C.layout a.generatorId a.args.count a.startIndex =
      .ok ranges)
    (ht : Generator.Covers ranges t) :
    (C.layout.decode t).generatorId = a.generatorId ∧
      ∃ i, Ledger.Within i (a.startIndex, a.newIndex) ∧ t = C.layout.tsoAt a.generatorId i := by
  obtain ⟨i, hlow, hhigh, rfl⟩ := (Generator.allocatedRanges_covers hranges).mp ht
  exact ⟨TimestampLayout.decode_tsoAt_generatorId h.1, i, ⟨hlow, h.2 ▸ hhigh⟩, rfl⟩

/-- In every run in which allocations carry a bound that their process has read off its lease, no
timestamp is returned by two allocations. -/
theorem allocated_timestamps_unique (h : Run C boundedAllocations clock s) {m n : Nat}
    {a b : Allocation} {ranges ranges' : List TimestampRange} {t : Nat} (hmn : m ≠ n)
    (ha : s.world.issued[m]? = some a) (hb : s.world.issued[n]? = some b)
    (hranges : Generator.allocatedRanges C.layout a.generatorId a.args.count a.startIndex =
      .ok ranges)
    (hranges' : Generator.allocatedRanges C.layout b.generatorId b.args.count b.startIndex =
      .ok ranges')
    (ht : Generator.Covers ranges t) : ¬ Generator.Covers ranges' t := by
  intro ht'
  obtain ⟨hga, i, hi, hti⟩ := (h.wellformed a (List.mem_of_getElem? ha)).decode hranges ht
  obtain ⟨hgb, j, hj, htj⟩ := (h.wellformed b (List.mem_of_getElem? hb)).decode hranges' ht'
  have hg := hga.symm.trans hgb
  have hij : i = j := by
    rw [hti, ← hg] at htj
    exact TimestampLayout.tsoAt_injective htj
  subst hij
  obtain ⟨hm, rfl⟩ := List.getElem?_eq_some_iff.mp ha
  obtain ⟨hn, rfl⟩ := List.getElem?_eq_some_iff.mp hb
  have hpair := List.pairwise_iff_getElem.mp h.disjoint
  rcases Nat.lt_or_gt_of_ne hmn with hlt | hlt
  · exact hpair m n hm hn hlt hg i hi hj
  · exact hpair n m hn hm hlt hg.symm i hj hi

end

def sampleArgs (bound : Option Nat) : Generator.AllocateArgs := ⟨1, none, 10, 100, 10, bound⟩

/-- Two allocations of a worker that created its generator's record at time ten. -/
theorem allocated_timestamps_unique_sample :
    ∃ s a b, Run sampleCluster boundedAllocations (fun _ => 10) s ∧
      s.world.issued[0]? = some a ∧ s.world.issued[1]? = some b ∧
      Generator.allocatedRanges sampleCluster.layout a.generatorId a.args.count a.startIndex =
        .ok [⟨160, 160⟩] ∧
      Generator.allocatedRanges sampleCluster.layout b.generatorId b.args.count b.startIndex =
        .ok [⟨161, 161⟩] ∧
      ¬ Generator.Covers [⟨161, 161⟩] 160 := by
  obtain ⟨s, hs, hissued⟩ := Run.of_play (C := sampleCluster) (K := boundedAllocations)
    (fun _ => 10)
    (perform 0 0 (.ensureGeneratorLease 0 1) 20 ++
      perform 1 0 (.allocateWithCapturedBound 0 (sampleArgs none)) 10 ++
      perform 2 0 (.allocateWithCapturedBound 0 (sampleArgs none)) 10)
    (fun s => s.world.issued =
      [⟨0, 0, sampleArgs (some 961), 20, 21, none⟩, ⟨0, 0, sampleArgs (some 961), 21, 22, none⟩])
    (by decide +kernel)
  have hissued := of_decide_eq_true hissued
  have ha : s.world.issued[0]? = some ⟨0, 0, sampleArgs (some 961), 20, 21, none⟩ := by
    rw [hissued]; rfl
  have hb : s.world.issued[1]? = some ⟨0, 0, sampleArgs (some 961), 21, 22, none⟩ := by
    rw [hissued]; rfl
  have hra : Generator.allocatedRanges sampleCluster.layout 0 1 20 = .ok [⟨160, 160⟩] := by decide
  have hrb : Generator.allocatedRanges sampleCluster.layout 0 1 21 = .ok [⟨161, 161⟩] := by decide
  refine ⟨s, _, _, hs, ha, hb, hra, hrb, ?_⟩
  exact allocated_timestamps_unique hs (by decide) ha hb hra hrb ⟨_, List.mem_cons_self, by decide⟩

end Chronos
