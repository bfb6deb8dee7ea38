import Chronos.Ownership.Admission

/-! What admitting workers know. Every plan that is written is computed from a plan that was read
and from a listing of identities, and every worker that is admitted has seen itself in the plan. -/

namespace Chronos

open Interleaving KeyValue List

variable {w w' : PlanWorld} {config : OwnershipConfig} {lease : Nat} {α : Type}

structure PlanGrows (w w' : PlanWorld) : Prop where
  nextLease : w.nextLease ≤ w'.nextLease
  plan : ∀ k, w.plan.history k <:+ w'.plan.history k
  listings : w.listings <:+ w'.listings
  seen : w.seen <:+ w'.seen
  identities : ∀ id ∈ w'.identities, id.lease < w.nextLease → id ∈ w.identities

instance : Preorder PlanWorld where
  le := PlanGrows
  le_refl w := ⟨le_rfl, fun _ => List.suffix_rfl, List.suffix_rfl, List.suffix_rfl,
    fun _ h _ => h⟩
  le_trans w₁ w₂ w₃ h h' :=
    ⟨h.nextLease.trans h'.nextLease, fun k => (h.plan k).trans (h'.plan k),
      h.listings.trans h'.listings, h.seen.trans h'.seen, fun id hid hlt =>
        h.identities id (h'.identities id hid (hlt.trans_le h.nextLease)) hlt⟩

structure PlanInv (w : PlanWorld) : Prop where
  sound : w.plan.Sound
  leases : ∀ id ∈ w.identities, id.lease < w.nextLease
  listings : ∀ x ∈ w.listings, x.1 ≤ w.nextLease ∧
    ∀ id ∈ w.identities, id.lease < x.1 → id ∈ x.2

def Justified (write : PlanWrite) (record : OwnershipPlanRecord) (w : PlanWorld) : Prop :=
  plannedRecord write = .ok (some record) ∧
    ∀ base revision, write.base = some (base, revision) → w.plan.Written () base revision

variable {a : Unit} {o : PlanOp} {c : PlanChoice}

lemma planExec_cases {r : o.Reply} (h : planExec a o c w = some (r, w')) :
    w' = w ∨ (∃ record, w' = w.claim record) ∨ w' = w.list ∨ w' = w.readPlan ∨
      ∃ write record, o = .writePlan write record ∧ w.plan.admits (write.txn record) = true ∧
        w' = w.commitPlan write record := by
  cases o with
  | acquireIdentity record =>
    cases c with
    | done | lost =>
      simp only [planExec] at h
      split_ifs at h
      · exact .inl (by cases h; rfl)
      · exact .inr (.inl ⟨record, by cases h; rfl⟩)
    | down message => exact .inl (by cases h; rfl)
    | time | flag => cases h
  | listIdentities =>
    cases c with
    | done => exact .inr (.inr (.inl (by cases h; rfl)))
    | down message => exact .inl (by cases h; rfl)
    | time | flag | lost => cases h
  | getPlan =>
    cases c with
    | done => exact .inr (.inr (.inr (.inl (by cases h; rfl))))
    | down message => exact .inl (by cases h; rfl)
    | time | flag | lost => cases h
  | writePlan write record =>
    cases c with
    | done | lost =>
      simp only [planExec] at h
      split_ifs at h with hadmits
      · exact .inr (.inr (.inr (.inr ⟨write, record, rfl, hadmits, by cases h; rfl⟩)))
      · exact .inl (by cases h; rfl)
    | down message => exact .inl (by cases h; rfl)
    | time | flag => cases h
  | nowMs | retryAllowed =>
    cases c
    all_goals first
      | exact .inl (by cases h; rfl)
      | cases h

section

variable {record : OwnershipPlanRecord} {write : PlanWrite}

lemma PlanGrows.claim (identity : InstanceIdentityLeaseRecord) : w ≤ w.claim identity := by
  refine ⟨Nat.le_succ _, fun _ => suffix_rfl, suffix_rfl, suffix_rfl, ?_⟩
  intro id hid hlt
  rcases mem_append.mp hid with hid | hid
  · exact hid
  · obtain rfl := mem_singleton.mp hid
    exact absurd hlt (lt_irrefl _)

lemma PlanGrows.commitPlan : w ≤ w.commitPlan write record :=
  ⟨le_rfl, fun k => Store.history_suffix_commit (t := write.txn record) k,
    suffix_rfl, suffix_cons _ _, fun _ h _ => h⟩

lemma PlanGrows.list : w ≤ w.list :=
  ⟨le_rfl, fun _ => suffix_rfl, suffix_cons _ _, suffix_rfl, fun _ h _ => h⟩

lemma PlanGrows.readPlan : w ≤ w.readPlan :=
  ⟨le_rfl, fun _ => suffix_rfl, suffix_rfl, suffix_append _ _, fun _ h _ => h⟩

lemma PlanInv.claim (h : PlanInv w) (identity : InstanceIdentityLeaseRecord) :
    PlanInv (w.claim identity) := by
  refine ⟨h.sound, fun id hid => ?_, fun x hx => ⟨?_, fun id hid hlt => ?_⟩⟩
  · rcases List.mem_append.mp hid with hid | hid
    · exact (h.leases id hid).trans (Nat.lt_succ_self _)
    · obtain rfl := List.mem_singleton.mp hid
      exact Nat.lt_succ_self _
  · exact (h.listings x hx).1.trans (Nat.le_succ _)
  · rcases List.mem_append.mp hid with hid | hid
    · exact (h.listings x hx).2 id hid hlt
    -- a fresh lease is later than every listing
    obtain rfl := List.mem_singleton.mp hid
    exact absurd hlt (h.listings x hx).1.not_gt

lemma PlanInv.list (h : PlanInv w) : PlanInv w.list := by
  refine ⟨h.sound, h.leases, fun x hx => ?_⟩
  rcases mem_cons.mp hx with rfl | hx
  · exact ⟨le_rfl, fun _ hid _ => hid⟩
  · exact h.listings x hx

lemma PlanInv.expire (h : PlanInv w) (lease : Nat) :
    PlanInv { w with identities := w.identities.filter fun id => id.lease ≠ lease } := by
  refine ⟨h.sound, fun id hid => h.leases id (mem_of_mem_filter hid), fun x hx => ?_⟩
  exact ⟨(h.listings x hx).1,
    fun id hid hlt => (h.listings x hx).2 id (mem_of_mem_filter hid) hlt⟩

lemma PlanInv.exec {r : o.Reply} (h : PlanInv w)
    (hexec : planExec a o c w = some (r, w')) : PlanInv w' := by
  rcases planExec_cases hexec with rfl | ⟨identity, rfl⟩ | rfl | rfl | ⟨write, record, -, -, rfl⟩
  · exact h
  · exact h.claim identity
  · exact h.list
  · exact ⟨h.sound, h.leases, h.listings⟩
  · exact ⟨h.sound.commit (t := write.txn record), h.leases, h.listings⟩

lemma PlanGrows.exec {r : o.Reply} (hexec : planExec a o c w = some (r, w')) : w ≤ w' := by
  rcases planExec_cases hexec with rfl | ⟨identity, rfl⟩ | rfl | rfl | ⟨write, record, -, -, rfl⟩
  · exact le_rfl
  · exact PlanGrows.claim identity
  · exact PlanGrows.list
  · exact PlanGrows.readPlan
  · exact PlanGrows.commitPlan

end

def planDiscipline : Discipline planMachine where
  Inv := PlanInv
  Allowed _ o w :=
    match o with
    | .writePlan write record => Justified write record w
    | _ => True
  exec_inv {a _ _ _ _ _} hinv _ hexec := hinv.exec (a := a) hexec
  exec_le {a _ _ _ _ _} _ _ hexec := PlanGrows.exec (a := a) hexec
  env_inv {e w w'} hinv henv := by
    cases e with
    | expire lease =>
      cases henv
      exact hinv.expire lease
  env_le {e w w'} _ henv := by
    cases e with
    | expire lease =>
      cases henv
      exact ⟨le_rfl, fun _ => List.suffix_rfl, List.suffix_rfl, List.suffix_rfl,
        fun id hid _ => List.mem_of_mem_filter hid⟩

abbrev PlanSafe (prog : PlanProg α) (R : α → PlanWorld → Prop) (w : PlanWorld) : Prop :=
  planDiscipline.Safe () prog (Discipline.OnOk R) w

end Chronos
