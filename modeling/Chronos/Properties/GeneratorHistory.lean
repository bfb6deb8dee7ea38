import Chronos.Service.System

/-! The history of a generator record: its recovery floor never goes down, whoever writes it. -/

namespace Chronos

open Interleaving

variable {C : Cluster} {p g : Nat} {w : World} {e : Effect} {v v0 : GeneratorVersion}

def World.generatorFloor (w : World) (g : Nat) : Option Nat :=
  Floor.latest (fun v => generatorRecoveryFloorTso v.record) (w.generators g)

lemma GeneratorCommit.floor (h : GeneratorCommit C p g w v)
    (hhead : (w.generators g).head? = some v0) :
    Floor.Le (generatorRecoveryFloorTso v0.record) (generatorRecoveryFloorTso v.record) := by
  cases hw : v.write with
  | create =>
    rw [GeneratorCommit, hw] at h
    rw [h.1] at hhead
    cases hhead
  | takeover =>
    rw [GeneratorCommit, hw] at h
    obtain ⟨-, v1, hv1, now, -, exp, -, -, htaken⟩ := h
    cases hv1.symm.trans hhead
    exact Cluster.takeoverRecord_floor htaken
  | refresh reason =>
    rw [GeneratorCommit, hw] at h
    obtain ⟨v1, hv1, lease, hmirrors, now, -, -, localLast, -, hrecord⟩ := h
    cases hv1.symm.trans hhead
    rw [hrecord]
    exact Cluster.refreshRecord_floor hmirrors.last hmirrors.bound
  | floorFlush =>
    rw [GeneratorCommit, hw] at h
    obtain ⟨v1, hv1, -, localLast, -, now, hrecord⟩ := h
    cases hv1.symm.trans hhead
    rw [hrecord]
    exact Floor.mergeMax_le (Floor.le_mergeMax_left.trans Floor.le_mergeMax_left)
      Floor.le_mergeMax_right

def GeneratorFloors (w : World) : Prop :=
  ∀ g, Floor.Rising (fun v => generatorRecoveryFloorTso v.record) (w.generators g)

lemma GeneratorFloors.le_generatorFloor (h : GeneratorFloors w) (hv : v ∈ w.generators g) :
    Floor.Le (generatorRecoveryFloorTso v.record) (w.generatorFloor g) :=
  (h g).le_latest hv

lemma GeneratorFloors.apply (h : GeneratorFloors w) (hpermit : Permit C p w e) :
    GeneratorFloors (w.apply p e) := by
  intro g
  rcases hpermit.generators g with heq | ⟨v, heq, -, -, -, hcommit⟩
  · rw [heq]
    exact h g
  rw [heq]
  refine (h g).cons ?_
  cases hhead : (w.generators g).head? with
  | none => simp [Floor.latest, hhead]
  | some v0 =>
    rw [Floor.latest_of_head hhead]
    exact hcommit.floor hhead

lemma World.Grows.generatorFloor {w' : World} (hle : w ≤ w') (h : GeneratorFloors w') :
    Floor.Le (w.generatorFloor g) (w'.generatorFloor g) := by
  cases hhead : (w.generators g).head? with
  | none => simp [World.generatorFloor, Floor.latest, hhead]
  | some v =>
    rw [World.generatorFloor, Floor.latest_of_head hhead]
    exact h.le_generatorFloor ((hle.generators g).mem (List.mem_of_mem_head? hhead))

end Chronos
