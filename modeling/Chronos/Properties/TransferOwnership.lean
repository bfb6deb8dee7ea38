import Chronos.Service.System

/-! Transfers and the ownership of generators. A transfer checks the chosen generator against the
remainders of the worker that runs it, and a remote target beyond that only against active leases.
-/

namespace Chronos

open Interleaving Option

/-- Workers that split the remainders of one modulus among them. An endpoint names one worker, but a
worker may be restarted, so the processes of one worker have one set of remainders. -/
structure Fleet (C : Cluster) (modulo : Nat) : Prop where
  greater : 1 < modulo
  modulo_eq : ∀ p, (C.worker p).generatorOwnershipModulo = modulo
  named : ∀ endpoint p q, C.isLocalEndpoint p endpoint = true →
    C.isLocalEndpoint q endpoint = true →
    (C.worker p).effectiveGeneratorOwnershipRemainders =
      (C.worker q).effectiveGeneratorOwnershipRemainders
  disjoint : ∀ p q, (C.worker p).effectiveGeneratorOwnershipRemainders =
      (C.worker q).effectiveGeneratorOwnershipRemainders ∨
    List.Disjoint (C.worker p).effectiveGeneratorOwnershipRemainders
      (C.worker q).effectiveGeneratorOwnershipRemainders

def World.ofMetadata (revision : Nat) (generators : Nat → Option (GeneratorRecord × Nat))
    (timelines : String → Option (TimelineRecord × Nat)) (clock : Nat → Nat) : World :=
  { World.initial clock with
    revision := revision
    generators := fun g => (generators g).toList.map fun x => ⟨x.2, x.1, 0, .create⟩
    timelines := fun key => (timelines key).toList.map fun x => ⟨x.2, x.1, .create⟩ }

variable {C : Cluster} {modulo p q g revision : Nat}
  {generators : Nat → Option (GeneratorRecord × Nat)}
  {timelines : String → Option (TimelineRecord × Nat)} {clock : Nat → Nat} {s : State}

lemma Base.ofMetadata (hgens : ∀ g x, generators g = some x → x.2 ≤ revision)
    (htimelines : ∀ key x, timelines key = some x → x.2 ≤ revision) :
    Base C (World.ofMetadata revision generators timelines clock) := by
  refine ⟨fun g => ?_, fun g v hv => ?_, fun key => ?_, fun key v hv => ?_, ?_, ?_, ?_⟩
  · cases hg : generators g with
    | none => simp [World.ofMetadata, hg]
    | some x => simp [World.ofMetadata, hg]
  · obtain ⟨x, hx, rfl⟩ := List.mem_map.mp hv
    exact hgens g x (mem_toList.mp hx)
  · cases hkey : timelines key with
    | none => simp [World.ofMetadata, hkey]
    | some x => simp [World.ofMetadata, hkey]
  · obtain ⟨x, hx, rfl⟩ := List.mem_map.mp hv
    exact htimelines key x (mem_toList.mp hx)
  all_goals simp [World.ofMetadata, World.initial]

lemma TsoConfig.ownsGeneratorId_iff {config : TsoConfig} : config.ownsGeneratorId g = true ↔
      g % config.generatorOwnershipModulo ∈ config.effectiveGeneratorOwnershipRemainders := by
  simp [TsoConfig.ownsGeneratorId]

namespace Fleet

variable (h : Fleet C modulo)
include h

lemma owns_iff : (C.worker p).ownsGeneratorId g = true ↔
    g % modulo ∈ (C.worker p).effectiveGeneratorOwnershipRemainders := by
  rw [TsoConfig.ownsGeneratorId_iff, h.modulo_eq]

lemma eq_of_owns (hp : (C.worker p).ownsGeneratorId g = true)
    (hq : (C.worker q).ownsGeneratorId g = true) :
    (C.worker p).effectiveGeneratorOwnershipRemainders =
      (C.worker q).effectiveGeneratorOwnershipRemainders := by
  rcases h.disjoint p q with heq | hdisjoint
  · exact heq
  · exact absurd (h.owns_iff.mp hq) (hdisjoint (h.owns_iff.mp hp))

lemma owns_iff_of_checked {endpoint : String} (hchecked : TargetChecked C p endpoint g)
    (hq : C.isLocalEndpoint q endpoint = true) :
    (C.worker q).ownsGeneratorId g = true ↔ (∃ r, (C.worker r).ownsGeneratorId g = true) ∧
      ∀ r, (C.worker r).ownsGeneratorId g = true →
        (C.worker r).effectiveGeneratorOwnershipRemainders =
            (C.worker p).effectiveGeneratorOwnershipRemainders ∨
          (C.worker r).effectiveGeneratorOwnershipRemainders =
            (C.worker q).effectiveGeneratorOwnershipRemainders := by
  constructor
  · intro howns
    exact ⟨⟨q, howns⟩, fun r hr => .inr (h.eq_of_owns hr howns)⟩
  rintro ⟨⟨r, hr⟩, hthird⟩
  have hmem := h.owns_iff.mp hr
  rcases hthird r hr with heq | heq
  · have hp := h.owns_iff.mpr (heq ▸ hmem)
    by_cases hlocal : C.isLocalEndpoint p endpoint = true
    · have hsame := h.named endpoint p q hlocal hq
      exact h.owns_iff.mpr (hsame ▸ h.owns_iff.mp hp)
    -- a worker does not hand its own generators to another worker
    rw [TargetChecked, if_neg hlocal, h.modulo_eq] at hchecked
    cases (hchecked h.greater).symm.trans hp
  · exact h.owns_iff.mpr (heq ▸ hmem)

end Fleet

abbrev FleetRun (C : Cluster) (revision : Nat)
    (generators : Nat → Option (GeneratorRecord × Nat))
    (timelines : String → Option (TimelineRecord × Nat)) (clock : Nat → Nat) : State → Prop :=
  Reach (machine C) (code C) .free ⟨World.ofMetadata revision generators timelines clock, []⟩

lemma FleetRun.targetChecked (hgens : ∀ g x, generators g = some x → x.2 ≤ revision)
    (htimelines : ∀ key x, timelines key = some x → x.2 ≤ revision)
    (h : FleetRun C revision generators timelines clock s) {i : Nat} {c : Choice}
    {prog : Service Outcome} {s' : State} {key : String} {v : TimelineVersion}
    (hi : s.threads[i]? = some ⟨p, prog⟩)
    (hstep : step (machine C) (code C) s (.call i c) = some s')
    (hcommit : s'.world.timelines key = v :: s.world.timelines key)
    (htransfer : v.write.isTransfer = true) :
    TargetChecked C p v.record.route.ownerWorkerEndpoint v.record.route.generatorId := by
  have hstart : (discipline C).Holds (fun _ => Discipline.OnOk (OutcomeFact C))
      (⟨World.ofMetadata revision generators timelines clock, []⟩ : State) :=
    ⟨Base.ofMetadata hgens htimelines, fun _ ht => absurd ht List.not_mem_nil⟩
  have hholds := hstart.reach (fun _ entry _ hbase _ => safe_code hbase entry) h
  obtain ⟨a, o, k, r, w', hi', hexec, rfl⟩ := step_call hstep
  obtain ⟨rfl, rfl⟩ : p = a ∧ prog = .call o k := by simpa using Option.some.inj (hi.symm.trans hi')
  obtain ⟨⟨r', e⟩, hacted, heq⟩ := Option.map_eq_some_iff.mp hexec
  obtain ⟨rfl, rfl⟩ := Prod.mk.inj heq
  have hpermit : Permit C p s.world e := hholds.allowed hi' c r' e hacted
  rcases hpermit.timelines key with hsame | ⟨v', rfl, hnew, -⟩
  · exact absurd (hsame.symm.trans hcommit) (by simp)
  · obtain ⟨rfl, -⟩ := List.cons.inj (hnew.symm.trans hcommit)
    exact hpermit.2.2 htransfer

def sampleFleetWorker (name endpoint : String) (remainder : Nat) : TsoConfig :=
  { sampleWorker name endpoint [remainder] with generatorOwnershipModulo := 3 }

def sampleFleet : Cluster :=
  { sampleCluster with
    worker := fun p =>
      if p = 0 then sampleFleetWorker "a" "a:1" 0
      else if p = 1 then sampleFleetWorker "b" "b:1" 1
      else sampleFleetWorker "c" "c:1" 2 }

lemma sampleFleet_worker (p : Nat) : sampleFleet.worker p = sampleFleetWorker "a" "a:1" 0 ∨
    sampleFleet.worker p = sampleFleetWorker "b" "b:1" 1 ∨
    sampleFleet.worker p = sampleFleetWorker "c" "c:1" 2 := by
  simp only [sampleFleet]
  split_ifs
  · exact .inl rfl
  · exact .inr (.inl rfl)
  · exact .inr (.inr rfl)

lemma sampleFleet_fleet : Fleet sampleFleet 3 := by
  refine ⟨by decide, fun p => ?_, fun endpoint p q hp hq => ?_, fun p q => ?_⟩
  · rcases sampleFleet_worker p with hp | hp | hp <;> rw [hp] <;> rfl
  · have hlower := (endpointsMatch_lower hp).symm.trans (endpointsMatch_lower hq)
    revert hlower
    rcases sampleFleet_worker p with hp | hp | hp <;>
      rcases sampleFleet_worker q with hq | hq | hq <;> rw [hp, hq] <;> decide
  · rcases sampleFleet_worker p with hp | hp | hp <;>
      rcases sampleFleet_worker q with hq | hq | hq <;>
      simp [hp, hq, sampleFleetWorker, sampleWorker,
        TsoConfig.effectiveGeneratorOwnershipRemainders]

lemma FleetRun.of_script (C : Cluster) (clock : Nat → Nat)
    (commands : List (Command Nat Entry Choice Event)) (i : Nat) (P : State → State → Bool)
    (h : (script (machine C) (code C) .free Op.usual commands (start clock)).any (fun s =>
      (step (machine C) (code C) s (.call i (.store .done))).any (P s)) = true) :
    ∃ s s', FleetRun C 0 (fun _ => none) (fun _ => none) clock s ∧
      step (machine C) (code C) s (.call i (.store .done)) = some s' ∧ P s s' = true := by
  obtain ⟨s, hrun, hs⟩ := Reach.exists_of_script h
  obtain ⟨s', hstep, hP⟩ := (any_eq_true ..).mp hs
  exact ⟨s, s', hrun, hstep, hP⟩

def commitsTransfer (target : String × Nat) (s s' : State) : Bool :=
  (s.threads[1]?.map Thread.actor) = some 0 &&
    (s'.world.timelines "k").tail = s.world.timelines "k" &&
    ((s'.world.timelines "k").head?.map fun v => (v.write.isTransfer,
      v.record.route.ownerWorkerEndpoint, v.record.route.generatorId)) = some (true, target)

lemma commitsTransfer_eq_true {target : String × Nat} {s' : State}
    (h : commitsTransfer target s s' = true) :
    ∃ prog v, s.threads[1]? = some ⟨0, prog⟩ ∧
      s'.world.timelines "k" = v :: s.world.timelines "k" ∧ v.write.isTransfer = true ∧
      v.record.route.ownerWorkerEndpoint = target.1 ∧ v.record.route.generatorId = target.2 := by
  simp only [commitsTransfer, Bool.and_eq_true, decide_eq_true_eq] at h
  obtain ⟨⟨hactor, htail⟩, hhead⟩ := h
  obtain ⟨⟨actor, prog⟩, hi, rfl⟩ := Option.map_eq_some_iff.mp hactor
  obtain ⟨v, hv, hroute⟩ := Option.map_eq_some_iff.mp hhead
  simp only [Prod.ext_iff] at hroute
  obtain ⟨htransfer, hown, hgen⟩ := hroute
  refine ⟨prog, v, hi, ?_, htransfer, hown, hgen⟩
  rw [← htail]
  exact List.eq_cons_of_mem_head? hv

end Chronos
