import Chronos.Ownership.Exclusivity

/-! Duplicate workers. Admission compares workers by worker id and endpoint together, so a plan has
a worker id under two endpoints, or an endpoint under two worker ids, as soon as a worker is
admitted beside a kept member that shares only one of the two with it. -/

namespace Chronos

open Interleaving KeyValue List

variable {w : PlanWorld} {write : PlanWrite} {record : OwnershipPlanRecord}

def OwnershipPlanRecord.Distinct (record : OwnershipPlanRecord) : Prop :=
  ∀ m ∈ record.members, ∀ m' ∈ record.members,
    m.workerId = m'.workerId ↔ m.advertiseEndpoint = m'.advertiseEndpoint

instance : Decidable record.Distinct :=
  inferInstanceAs (Decidable (∀ m ∈ record.members, ∀ m' ∈ record.members, _))

/-- The members that a write keeps share both the worker id and the endpoint with the writing
worker, or neither. -/
def KeepsDistinct (write : PlanWrite) (w : PlanWorld) : Prop :=
  ∀ x ∈ w.plan.get (), ∀ m ∈ x.1.members, m.worker ∈ activeMembers write.records x.1 →
    (m.workerId = write.config.workerId ↔ m.advertiseEndpoint = write.config.advertiseEndpoint)

instance (write : PlanWrite) (w : PlanWorld) : Decidable (KeepsDistinct write w) :=
  inferInstanceAs (Decidable (∀ x ∈ w.plan.get (), ∀ m ∈ x.1.members, _))

def distinctWrites : PlanGuard where
  op _ o _ w :=
    match o with
    | .writePlan write record =>
      w.plan.admits (write.txn record) = true → KeepsDistinct write w
    | _ => True

instance : distinctWrites.Checked where
  op a o c w := by
    apply PlanOp.casesOn (motive := fun o => Decidable (distinctWrites.op a o c w)) o <;>
      intros <;> dsimp only [distinctWrites] <;> infer_instance

lemma OwnershipConfig.eq_of_mem_members {config : OwnershipConfig} {m : OwnershipPlanMember}
    (h : m ∈ config.members) :
    m.workerId = config.workerId ∧ m.advertiseEndpoint = config.advertiseEndpoint := by
  obtain ⟨remainder, -, rfl⟩ := mem_map.mp h
  exact ⟨rfl, rfl⟩

lemma mem_members_of_justified (hsound : w.plan.Sound) (h : Justified write record w)
    (hadmits : w.plan.admits (write.txn record) = true) (m : OwnershipPlanMember) :
    m ∈ record.members ↔ (∃ x ∈ w.plan.get (), m ∈ x.1.members ∧
      m.worker ∈ activeMembers write.records x.1) ∨ m ∈ write.config.members := by
  have hbase : write.base = w.plan.get () := h.base_eq hsound hadmits
  have hplanned := h.1
  unfold plannedRecord at hplanned
  split at hplanned
  · next base revision hsome =>
    obtain ⟨-, -, -, hmembers, -⟩ := updatedPlan_eq_some hplanned
    rw [hmembers, ← hbase, hsome]
    simp
  · next hnone =>
    obtain ⟨created, hcreated, -, -, -, hmembers⟩ := createdPlan_eq_ok hplanned
    cases hcreated
    rw [hmembers, ← hbase, hnone]
    simp

lemma distinct_iff_keepsDistinct (hsound : w.plan.Sound) (h : Justified write record w)
    (hadmits : w.plan.admits (write.txn record) = true)
    (hold : ∀ x ∈ w.plan.get (), x.1.Distinct) : record.Distinct ↔ KeepsDistinct write w := by
  have hmem := mem_members_of_justified hsound h hadmits
  constructor
  · intro hdistinct x hx m hm hactive
    obtain ⟨own, hown⟩ := List.exists_mem_of_ne_nil _ write.config.members_ne_nil
    obtain ⟨hworker, hendpoint⟩ := OwnershipConfig.eq_of_mem_members hown
    rw [← hworker, ← hendpoint]
    exact hdistinct m ((hmem m).mpr (.inl ⟨x, hx, hm, hactive⟩)) own ((hmem own).mpr (.inr hown))
  · intro hkeeps m hm m' hm'
    -- a kept member against the worker's own, in either order
    have hcross : ∀ x ∈ w.plan.get (), ∀ m ∈ x.1.members,
        m.worker ∈ activeMembers write.records x.1 → ∀ own ∈ write.config.members,
        (m.workerId = own.workerId ↔ m.advertiseEndpoint = own.advertiseEndpoint) := by
      intro x hx m hm hactive own hown
      obtain ⟨hworker, hendpoint⟩ := OwnershipConfig.eq_of_mem_members hown
      rw [hworker, hendpoint]
      exact hkeeps x hx m hm hactive
    rcases (hmem m).mp hm with ⟨x, hx, hmx, hactive⟩ | hown
    · rcases (hmem m').mp hm' with ⟨x', hx', hmx', -⟩ | hown'
      · cases hx.symm.trans hx'
        exact hold x hx m hmx m' hmx'
      · exact hcross x hx m hmx hactive m' hown'
    · rcases (hmem m').mp hm' with ⟨x, hx, hmx, hactive⟩ | hown'
      · rw [eq_comm, hcross x hx m' hmx hactive m hown, eq_comm]
      obtain ⟨hworker, hendpoint⟩ := OwnershipConfig.eq_of_mem_members hown
      obtain ⟨hworker', hendpoint'⟩ := OwnershipConfig.eq_of_mem_members hown'
      simp [hworker, hworker', hendpoint, hendpoint']

section

variable {revision : Nat} {plan : Option (OwnershipPlanRecord × Nat)} {s : PlanState}

lemma PlanRun.distinct (hplan : ∀ e, plan = some e → 0 < e.2 ∧ e.2 ≤ revision)
    (hdistinct : ∀ e, plan = some e → e.1.Distinct) (h : PlanRun distinctWrites revision plan s) :
    ∀ x ∈ s.world.plan.get (), x.1.Distinct := by
  refine (planHolds_initial hplan).invariant
    (I := fun w : PlanWorld => ∀ x ∈ w.plan.get (), x.1.Distinct) ?_
    (fun _ _ _ hinv _ => planSafe_startWorker hinv) ?_ ?_ h
  · intro x hx
    exact hdistinct x (Store.get_ofEntries.symm.trans hx)
  · intro a o c w r w' hinv hold hallowed hguard hexec
    rcases planExec_cases (a := a) hexec with rfl | ⟨identity, rfl⟩ | rfl | rfl |
      ⟨write, record, rfl, hadmits, rfl⟩
    · exact hold
    · exact hold
    · exact hold
    · exact hold
    intro x hx
    have hget : (w.commitPlan write record).plan.get () = some (record, w.plan.revision + 1) :=
      Store.get_commit_of_find (t := write.txn record) rfl
    cases hget.symm.trans hx
    exact (distinct_iff_keepsDistinct hinv.sound hallowed hadmits hold).mpr (hguard hadmits)
  · intro e w w' _ hold _ henv
    cases e with
    | expire lease =>
      cases henv
      exact hold

/-- In runs whose writes keep no member that shares only its worker id or only its endpoint with the
writing worker, the plan never has duplicate workers; and a write that a worker is about to make
leaves a plan without duplicates exactly if it meets that condition. -/
theorem ownership_plan_distinct (hplan : ∀ e, plan = some e → 0 < e.2 ∧ e.2 ≤ revision)
    (hdistinct : ∀ e, plan = some e → e.1.Distinct) (h : PlanRun distinctWrites revision plan s) :
    (∀ x ∈ s.world.plan.get (), x.1.Distinct) ∧
    (∀ (i : Nat) a write record k, s.threads[i]? = some ⟨a, .call (.writePlan write record) k⟩ →
      s.world.plan.admits (write.txn record) = true →
      (record.Distinct ↔ KeepsDistinct write s.world)) := by
  have hnow := PlanRun.distinct hplan hdistinct h
  have hholds := PlanRun.holds hplan h
  refine ⟨hnow, fun i a write record k hi hadmits => ?_⟩
  exact distinct_iff_keepsDistinct hholds.inv.sound (hholds.allowed hi) hadmits hnow

/-- Two workers with nothing in common are admitted one after the other. -/
theorem ownership_plan_distinct_sample : ∃ s, PlanRun distinctWrites 0 none s ∧
      ((s.world.plan.get ()).map fun x => x.1.members.map OwnershipPlanMember.worker) =
        some [("a", "a:1"), ("b", "b:1")] ∧
      ∀ x ∈ s.world.plan.get (), x.1.Distinct := by
  obtain ⟨s, hrun, hst⟩ := PlanRun.of_script distinctWrites 0 none
    [.label (.spawn () (samplePlanWorker "1" "a" "a:1" [0])), .drive 0 20,
      .label (.spawn () (samplePlanWorker "2" "b" "b:1" [1])), .drive 1 20]
    (fun s => ((s.world.plan.get ()).map fun x => x.1.members.map OwnershipPlanMember.worker) =
      some [("a", "a:1"), ("b", "b:1")])
    (by decide +kernel)
  exact ⟨s, hrun, of_decide_eq_true hst, (ownership_plan_distinct (by simp) (by simp) hrun).1⟩

/-- One worker id at two endpoints: the second instance is admitted after the first, both are
active, and the plan has both members. -/
theorem ownership_plan_duplicate : ∃ s a a' lease lease', PlanRun .free 0 none s ∧
      ⟨a, .ret (samplePlanWorker "1" "a" "a:1" [0], lease)⟩ ∈ s.threads ∧
      ⟨a', .ret (samplePlanWorker "2" "a" "b:1" [1], lease')⟩ ∈ s.threads ∧
      s.world.identities.map Identity.lease = [lease, lease'] ∧
      ∃ x ∈ s.world.plan.get (), ∃ m ∈ x.1.members, ∃ m' ∈ x.1.members,
        m.workerId = m'.workerId ∧ m.advertiseEndpoint ≠ m'.advertiseEndpoint := by
  let first := samplePlanWorker "1" "a" "a:1" [0]
  let second := samplePlanWorker "2" "a" "b:1" [1]
  obtain ⟨s, hrun, hst⟩ := PlanRun.of_script .free 0 none
    [.label (.spawn () first), .drive 0 20, .label (.spawn () second), .drive 1 20]
    (fun s => s.result 0 = some (first, 1) ∧ s.result 1 = some (second, 2) ∧
      s.world.identities.map Identity.lease = [1, 2] ∧
      ((s.world.plan.get ()).map fun x => x.1.members) = some [⟨0, "a", "a:1"⟩, ⟨1, "a", "b:1"⟩])
    (by decide +kernel)
  obtain ⟨hfirst, hsecond, hactive, hmembers⟩ := of_decide_eq_true hst
  obtain ⟨a, ht⟩ := Sys.mem_threads_of_result hfirst
  obtain ⟨a', ht'⟩ := Sys.mem_threads_of_result hsecond
  obtain ⟨x, hx, hx'⟩ := Option.map_eq_some_iff.mp hmembers
  refine ⟨s, a, a', 1, 2, hrun, ht, ht', hactive, x, hx, ?_⟩
  rw [hx']
  exact ⟨_, mem_cons_self, _, mem_cons_of_mem _ mem_cons_self, rfl, by decide⟩

end

end Chronos
