import Chronos.Properties.Uniqueness

/-! Persist before issue: what a client is given lies below a bound that the generator record
already holds. -/

namespace Chronos

open Interleaving List Option

variable {C : Cluster} {p g : Nat} {w : World} {e : Effect} {v v₀ : GeneratorVersion}

def World.persistedBound (w : World) (g : Nat) : Option Nat :=
  Floor.latest (fun v => v.record.issuedUpperBound) (w.generators g)

lemma World.persistedBound_le_generatorFloor :
    Floor.Le (w.persistedBound g) (w.generatorFloor g) := by
  cases hhead : (w.generators g).head? with
  | none => simp [World.persistedBound, Floor.latest, hhead]
  | some v =>
    rw [World.persistedBound, World.generatorFloor, Floor.latest_of_head hhead,
      Floor.latest_of_head hhead]
    exact Floor.le_mergeMax_right

def BoundFits (C : Cluster) (p g : Nat) (w : World) (v : GeneratorVersion) : Prop :=
  match v.write with
  | .create => v.record.updatedAtMs + (C.worker p).preBorrowMs ≤ C.layout.maxPhysicalMs
  | .takeover => ∀ v₀ ∈ (w.generators g).head?,
      C.takeoverBaseMs g v.record.updatedAtMs v₀.record + (C.worker p).preBorrowMs ≤
        C.layout.maxPhysicalMs
  | .refresh _ | .floorFlush => True

/-- New tenures write bounds that fit the layout, and the lease is still valid when an allocation
reads its bound for the last time. -/
def persistFirst (C : Cluster) : Condition where
  effect p w e :=
    match e with
    | .commitGenerators vs => ∀ x ∈ vs, BoundFits C p x.1 w x.2
    | .finalRead g now _ => w.leaseValidForOwner C p g now = true
    | _ => True

instance : Decidable (BoundFits C p g w v) :=
  match v with
  | ⟨_, _, _, .create⟩ => inferInstanceAs (Decidable (_ ≤ _))
  | ⟨_, _, _, .takeover⟩ => inferInstanceAs (Decidable (∀ v₀ ∈ (w.generators g).head?, _ ≤ _))
  | ⟨_, _, _, .refresh _⟩ | ⟨_, _, _, .floorFlush⟩ => .isTrue trivial

instance : (persistFirst C).Checked where
  effect p w e := by
    apply Effect.casesOn (motive := fun e => Decidable ((persistFirst C).effect p w e)) e <;>
      intros <;> dsimp only [persistFirst] <;> infer_instance

lemma GeneratorCommit.bound (h : GeneratorCommit C p g w v) (hfits : BoundFits C p g w v)
    (hbounded : ∀ v₀ ∈ w.generators g, v₀.record.issuedUpperBound ≠ none) :
    v.record.issuedUpperBound ≠ none ∧ Floor.Le (w.persistedBound g) v.record.issuedUpperBound := by
  cases hw : v.write with
  | create =>
    rw [GeneratorCommit, hw] at h
    obtain ⟨hnil, hg, now, -, hrecord⟩ := h
    rw [BoundFits, hw, hrecord] at hfits
    replace hfits : now + (C.worker p).preBorrowMs ≤ C.layout.maxPhysicalMs := hfits
    have hbound : v.record.issuedUpperBound ≠ none := by
      rw [hrecord]
      simp [Cluster.createdGeneratorRecord, Cluster.computeGeneratorUpperBound_eq_some hg hfits]
    exact ⟨hbound, by simp [World.persistedBound, Floor.latest, hnil]⟩
  | takeover =>
    rw [GeneratorCommit, hw] at h
    obtain ⟨hg, v₀, hhead, now, -, exp, -, -, htaken⟩ := h
    have hnow : v.record.updatedAtMs = now := Cluster.takeoverRecord_updatedAtMs htaken
    rw [BoundFits, hw, hnow] at hfits
    have hbound := Cluster.takeoverRecord_bound hg htaken (hfits v₀ hhead)
    refine ⟨hbound.1, ?_⟩
    rw [World.persistedBound, Floor.latest_of_head hhead]
    exact Floor.le_mergeMax_right.trans hbound.2
  | refresh reason =>
    rw [GeneratorCommit, hw] at h
    obtain ⟨v₀, hhead, lease, hmirrors, now, -, -, last, -, hrecord⟩ := h
    have hold := hbounded v₀ hmirrors.mem
    have hle : Floor.Le v₀.record.issuedUpperBound v.record.issuedUpperBound := by
      rw [hmirrors.bound, hrecord]
      exact Cluster.refreshRecord_issuedUpperBound_floor
    exact ⟨hle.ne_none hold, by rwa [World.persistedBound, Floor.latest_of_head hhead]⟩
  | floorFlush =>
    rw [GeneratorCommit, hw] at h
    obtain ⟨v₀, hhead, -, last, -, now, hrecord⟩ := h
    have hold := hbounded v₀ (List.mem_of_mem_head? hhead)
    rw [hrecord, World.persistedBound, Floor.latest_of_head hhead]
    exact ⟨hold, Floor.Le.refl⟩

/-- Records always carry a bound, bounds only grow, the last look at a lease finds its bound, and
every allocation ran under a bound that its generator's record has reached. -/
structure PersistedFirst (C : Cluster) (w : World) : Prop where
  bounded : ∀ g, ∀ v ∈ w.generators g, v.record.issuedUpperBound ≠ none
  rising : ∀ g, Floor.Rising (fun v => v.record.issuedUpperBound) (w.generators g)
  reads : ∀ p g, (p, g, none) ∉ w.finalReads
  issued : ∀ a ∈ w.issued, ∃ u, a.args.issuedUpperBound = some u ∧
    Floor.Le (some u) (w.persistedBound a.generatorId) ∧
    ∀ i < a.newIndex, C.layout.tsoAt a.generatorId i ≤ u

lemma PersistedFirst.initial (clock : Nat → Nat) : PersistedFirst C (World.initial clock) := by
  refine ⟨?_, fun _ => .nil, ?_, ?_⟩ <;> simp [World.initial]

namespace PersistedFirst

lemma le_persistedBound (h : PersistedFirst C w) {lease : GeneratorLeaseState}
    (hlease : LeaseFact C p g lease w) :
    Floor.Le lease.issuedUpperBound (w.persistedBound g) := by
  obtain ⟨v, hv⟩ := hlease
  have hle := (h.rising g).le_latest hv.mem
  rwa [hv.bound] at hle

lemma valid_bound (h : PersistedFirst C w) (hbase : Base C w) {now : Nat}
    (hvalid : w.leaseValidForOwner C p g now = true) :
    w.validLeaseUpperBoundForOwner C p g now ≠ none := by
  obtain ⟨lease, hlease⟩ := isSome_iff_exists.mp hvalid
  have hheld := (filter_eq_some_iff.mp hlease).1
  obtain ⟨v, hv⟩ := hbase.leases p g lease hheld
  have hbound := h.bounded g v hv.mem
  rw [hv.bound] at hbound
  rwa [World.validLeaseUpperBoundForOwner, hlease, bind_some]

lemma issue_bounded (h : PersistedFirst C w) {a : Allocation} (hissue : IssueFact C p a w) :
    a.args.issuedUpperBound ≠ none := by
  intro hnone
  cases hs : a.serving with
  | none => exact hissue.direct hs hnone
  | some serving => exact h.reads _ _ ((hissue.serving serving hs).unbounded hnone)

lemma generators (h : PersistedFirst C w) (hpermit : Permit C p w e)
    (hfirst : e.isLoss = true ∨ (persistFirst C).effect p w e) (g : Nat) :
    (w.apply p e).generators g = w.generators g ∨
      ∃ v, (w.apply p e).generators g = v :: w.generators g ∧ v.record.issuedUpperBound ≠ none ∧
        Floor.Le (w.persistedBound g) v.record.issuedUpperBound := by
  rcases hpermit.generators g with heq | ⟨v, heq, -, hmem, -, hcommit⟩
  · exact .inl heq
  obtain ⟨vs, rfl, hv⟩ := hmem
  have hfits := (hfirst.resolve_left nofun) (g, v) hv
  exact .inr ⟨v, heq, hcommit.bound hfits (h.bounded g)⟩

lemma persistedBound_apply (h : PersistedFirst C w) (hpermit : Permit C p w e)
    (hfirst : e.isLoss = true ∨ (persistFirst C).effect p w e) (g : Nat) :
    Floor.Le (w.persistedBound g) ((w.apply p e).persistedBound g) := by
  rcases h.generators hpermit hfirst g with heq | ⟨v, heq, -, hle⟩
  · rw [World.persistedBound, World.persistedBound, heq]
    exact Floor.Le.refl
  have hnew : (w.apply p e).persistedBound g = v.record.issuedUpperBound :=
    Floor.latest_of_head (by rw [heq, head?_cons])
  rwa [hnew]

lemma apply (h : PersistedFirst C w) (hbase : Base C w) (hpermit : Permit C p w e)
    (hfirst : e.isLoss = true ∨ (persistFirst C).effect p w e) :
    PersistedFirst C (w.apply p e) := by
  have hgrown := h.persistedBound_apply hpermit hfirst
  refine ⟨fun g => ?_, fun g => ?_, fun q g hread => ?_, fun a ha => ?_⟩
  · rcases h.generators hpermit hfirst g with heq | ⟨v, heq, hbound, -⟩
    · exact heq ▸ h.bounded g
    · exact heq ▸ forall_mem_cons.mpr ⟨hbound, h.bounded g⟩
  · rcases h.generators hpermit hfirst g with heq | ⟨v, heq, -, hle⟩
    · exact heq ▸ h.rising g
    · exact heq ▸ (h.rising g).cons hle
  · rcases hpermit.finalReads with heq | ⟨g', now, rfl, heq⟩
    · exact h.reads q g (heq ▸ hread)
    rw [heq] at hread
    rcases mem_cons.mp hread with hnew | hold
    · have hbound := h.valid_bound hbase (hfirst.resolve_left nofun)
      exact hbound (Prod.mk.inj (Prod.mk.inj hnew).2).2.symm
    · exact h.reads q g hold
  · rcases hpermit.issued with heq | ⟨b, rfl, heq, hissue⟩
    · obtain ⟨u, hu, hle, hbelow⟩ := h.issued a (heq ▸ ha)
      exact ⟨u, hu, hle.trans (hgrown a.generatorId), hbelow⟩
    rw [heq] at ha
    rcases mem_append.mp ha with ha | ha
    · obtain ⟨u, hu, hle, hbelow⟩ := h.issued a ha
      exact ⟨u, hu, hle.trans (hgrown a.generatorId), hbelow⟩
    obtain rfl := mem_singleton.mp ha
    obtain ⟨u, hu⟩ := ne_none_iff_exists'.mp (h.issue_bounded hissue)
    obtain ⟨lease, hlease, hbound⟩ := hissue.bound u hu
    have hle := h.le_persistedBound hlease
    rw [hbound] at hle
    exact ⟨u, hu, hle.trans (hgrown a.generatorId), fun i hi => hissue.le_bound hu hi⟩

end PersistedFirst

section

variable {clock : Nat → Nat} {s : State}

lemma Run.persistedFirst (h : Run C (persistFirst C) clock s) : PersistedFirst C s.world :=
  h.invariant (PersistedFirst.initial clock)
    (fun _ _ _ hbase hI hpermit hfirst => hI.apply hbase hpermit hfirst)
    fun _ _ _ _ hI _ _ => { hI with }

/-- Every allocation that is served runs under a bound that the generator record already holds, and
its timestamps stay below the floor that a later owner of the generator reads. -/
theorem served_allocation_persisted (h : Run C (persistFirst C) clock s) {a : Allocation}
    {serving : Serving} (ha : a ∈ s.world.issued) (_ : a.serving = some serving) :
    ∃ u bound, a.args.issuedUpperBound = some u ∧
      s.world.persistedBound a.generatorId = some bound ∧ u ≤ bound ∧
      ∀ ranges t, Generator.allocatedRanges C.layout a.generatorId a.args.count a.startIndex =
          .ok ranges → Generator.Covers ranges t →
        t ≤ u ∧ Floor.Le (some t) (s.world.generatorFloor a.generatorId) := by
  obtain ⟨u, hu, hle, hbelow⟩ := h.persistedFirst.issued a ha
  obtain ⟨bound, hbound, hubound⟩ := hle u rfl
  refine ⟨u, bound, hu, hbound, hubound, fun ranges t hranges ht => ?_⟩
  obtain ⟨i, -, hi, rfl⟩ := (Generator.allocatedRanges_covers hranges).mp ht
  have hnew := h.newIndex_eq a ha
  have hiu := hbelow i (by omega)
  have hfloor := hbound ▸ World.persistedBound_le_generatorFloor
  exact ⟨hiu, (Floor.some_le_some.mpr (hiu.trans hubound)).trans hfloor⟩

end

/-- A worker creates the timeline and its generator's record at time ten and serves a request. -/
theorem served_allocation_persisted_sample :
    ∃ s a serving, Run sampleCluster (persistFirst sampleCluster) (fun _ => 10) s ∧
      a ∈ s.world.issued ∧ a.serving = some serving ∧
      ∃ u bound, a.args.issuedUpperBound = some u ∧
        s.world.persistedBound a.generatorId = some bound ∧ u ≤ bound := by
  obtain ⟨s, hs, hissued⟩ := Run.of_play (C := sampleCluster) (K := persistFirst sampleCluster)
    (fun _ => 10)
    (perform 0 0 (.ensureTimeline "k" .shared 5) 40 ++
      perform 1 0 (.allocate (sampleRequest 1 1) false 5) 40)
    (fun s => s.world.issued.any fun a => a.serving.isSome) (by decide +kernel)
  obtain ⟨a, ha, hsome⟩ := List.any_eq_true.mp hissued
  obtain ⟨serving, hserving⟩ := Option.isSome_iff_exists.mp hsome
  obtain ⟨u, bound, hu, hbound, hle, -⟩ := served_allocation_persisted hs ha hserving
  exact ⟨s, a, serving, hs, ha, hserving, u, bound, hu, hbound, hle⟩

/-- A batch refresh has committed but not yet reached the runtime when the old lease runs out, so a
request reads the record again, reuses it, and looks at the lease once more after that has expired
too: it is served without a bound, above everything the record promises. -/
theorem served_allocation_unbounded :
    ∃ s a serving, Run sampleCluster unconditional (fun _ => 10) s ∧
      a ∈ s.world.issued ∧ a.serving = some serving ∧ a.args.issuedUpperBound = none ∧
      Generator.allocatedRanges sampleCluster.layout a.generatorId a.args.count a.startIndex =
        .ok [⟨3296, 3296⟩] ∧
      s.world.generatorFloor a.generatorId = some 2481 := by
  obtain ⟨s, hs, hissued⟩ := Run.of_play (C := sampleCluster) (K := unconditional) (fun _ => 10)
    (perform 0 0 (.ensureTimeline "k" .shared 5) 40 ++ [.label (.env (.tick 0 105))] ++
      -- the batch commits with its fourth operation and stops before it updates the runtime
      perform 1 0 (.refreshGeneratorLeasesBatch [0] 5 5) 4 ++
      [.label (.env (.tick 0 111))] ++
      perform 2 0 (.allocate (sampleRequest 1 1) false 5) 26 ++
      [.label (.env (.tick 0 206)), .drive 2 40])
    (fun s => s.world.issued.any fun a => a.serving.isSome && a.args.issuedUpperBound.isNone &&
      (Generator.allocatedRanges sampleCluster.layout a.generatorId a.args.count a.startIndex ==
        .ok [⟨3296, 3296⟩]) && (s.world.generatorFloor a.generatorId == some 2481))
    (by decide +kernel)
  obtain ⟨a, ha, hfacts⟩ := List.any_eq_true.mp hissued
  simp only [Bool.and_eq_true, beq_iff_eq, Option.isNone_iff_eq_none] at hfacts
  obtain ⟨⟨⟨hsome, hnone⟩, hranges⟩, hfloor⟩ := hfacts
  obtain ⟨serving, hserving⟩ := Option.isSome_iff_exists.mp hsome
  exact ⟨s, a, serving, hs, ha, hserving, hnone, hranges, hfloor⟩

end Chronos
