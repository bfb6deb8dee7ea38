import Chronos.Ownership.Discipline
import Chronos.Service.System

/-! Exclusive remainders. The identities and the plan are read apart, so a plan may be computed from
a listing that is older than the plan it replaces. -/

namespace Chronos

open Interleaving KeyValue Discipline List

variable {w w' : PlanWorld} {config : OwnershipConfig} {lease : Nat} {write : PlanWrite}
  {record : OwnershipPlanRecord}

structure Acquired (config : OwnershipConfig) (lease : Nat) (w : PlanWorld) : Prop where
  granted : lease < w.nextLease
  identity : ∀ id ∈ w.identities, id.lease = lease → id.record = config.identity

def Listed (config : OwnershipConfig) (lease : Nat) (w : PlanWorld) : Prop :=
  ∃ x ∈ w.listings, lease < x.1 ∧ checkActiveIdentities config x.2 = .ok ()

def InPlan (config : OwnershipConfig) (lease : Nat) (w : PlanWorld) : Prop :=
  ∃ x ∈ w.seen, lease < x.1 ∧ x.2.Unique ∧ x.2.planId = config.expectedPlanId ∧
    x.2.modulo = config.generatorOwnershipModulo ∧ ∀ m ∈ config.members, m ∈ x.2.members

structure Admitted (config : OwnershipConfig) (lease : Nat) (w : PlanWorld) : Prop where
  acquired : Acquired config lease w
  planned : 1 < config.generatorOwnershipModulo → Listed config lease w ∧ InPlan config lease w

lemma Acquired.mono (h : Acquired config lease w) (hle : w ≤ w') : Acquired config lease w' := by
  refine ⟨h.granted.trans_le hle.nextLease, fun id hid hlease => ?_⟩
  have hold : id ∈ w.identities := hle.identities id hid (hlease ▸ h.granted)
  exact h.identity id hold hlease

lemma Listed.mono (h : Listed config lease w) (hle : w ≤ w') : Listed config lease w' := by
  obtain ⟨x, hx, hrest⟩ := h
  exact ⟨x, hle.listings.subset hx, hrest⟩

lemma InPlan.mono (h : InPlan config lease w) (hle : w ≤ w') : InPlan config lease w' := by
  obtain ⟨x, hx, hrest⟩ := h
  exact ⟨x, hle.seen.subset hx, hrest⟩

lemma plannedRecord_eq_some (h : plannedRecord write = .ok (some record)) :
    record.Unique ∧ record.planId = write.config.expectedPlanId ∧
      record.modulo = write.config.generatorOwnershipModulo ∧
      ∀ m ∈ write.config.members, m ∈ record.members := by
  unfold plannedRecord at h
  split at h
  · obtain ⟨hunique, hplan, hmodulo, hmembers, -⟩ := updatedPlan_eq_some h
    exact ⟨hunique, hplan, hmodulo, fun m hm => (hmembers m).mpr (.inr hm)⟩
  obtain ⟨created, hcreated, hunique, hplan, hmodulo, hmembers⟩ := createdPlan_eq_ok h
  cases hcreated
  exact ⟨hunique, hplan, hmodulo, fun m hm => (hmembers m).mpr hm⟩

lemma plannedRecord_eq_none (h : plannedRecord write = .ok none) :
    ∃ record revision, write.base = some (record, revision) ∧ record.Unique ∧
      record.planId = write.config.expectedPlanId ∧
      record.modulo = write.config.generatorOwnershipModulo ∧
      ∀ m ∈ write.config.members, m ∈ record.members := by
  unfold plannedRecord at h
  split at h
  · next record revision hbase => exact ⟨record, revision, hbase, updatedPlan_eq_none h⟩
  · obtain ⟨created, hcreated, -⟩ := createdPlan_eq_ok h
    cases hcreated

lemma planSafe_activeIdentityRecords (hinv : PlanInv w) : PlanSafe activeIdentityRecords
      (fun identities w1 => ∃ n, w.nextLease ≤ n ∧ (n, identities) ∈ w1.listings) w := by
  have hlisted : PlanSafe (planCall .listIdentities) (fun r w1 => ∀ identities,
      r = .ok identities → ∃ n, w.nextLease ≤ n ∧ (n, identities) ∈ w1.listings) w := by
    refine safe_op fun w1 hle _ => ⟨trivial, fun c r w2 hexec w3 hle3 => ?_⟩
    intro identities hr
    subst hr
    cases c with
    | done =>
      cases hexec
      exact ⟨w1.nextLease, hle.nextLease, hle3.listings.subset mem_cons_self⟩
    | _ => cases hexec
  refine Safe.bind hlisted hinv fun r w1 _ _ hr => ?_
  cases r with
  | error message => exact safe_fail
  | ok identities =>
    refine safe_pure fun w2 hle2 => ?_
    obtain ⟨n, hn, hmem⟩ := hr identities rfl
    exact ⟨n, hn, hle2.listings.subset hmem⟩

lemma planSafe_getOwnershipPlan (hinv : PlanInv w) :
    PlanSafe getOwnershipPlan (fun found w1 => ∀ record revision,
      found = some (record, revision) → w1.plan.Written () record revision ∧
        ∃ n, w.nextLease ≤ n ∧ (n, record) ∈ w1.seen) w := by
  have hread : PlanSafe (planCall .getPlan) (fun r w1 => ∀ record revision,
      r = .ok (some (record, revision)) → w1.plan.Written () record revision ∧
        ∃ n, w.nextLease ≤ n ∧ (n, record) ∈ w1.seen) w := by
    refine safe_op fun w1 hle _ => ⟨trivial, fun c r w2 hexec w3 hle3 => ?_⟩
    intro record revision hr
    subst hr
    cases c with
    | done =>
      obtain ⟨hget, rfl⟩ := Prod.mk.inj (Option.some.inj hexec)
      have hget := Except.ok.inj hget
      have hseen : (w1.nextLease, record) ∈ w1.readPlan.seen := by simp [PlanWorld.readPlan, hget]
      exact ⟨(hle3.plan ()).subset (Store.written_of_get hget), w1.nextLease, hle.nextLease,
        hle3.seen.subset hseen⟩
    | down message => cases hexec
    | _ => cases hexec
  refine Safe.bind hread hinv fun r w1 _ _ hr => ?_
  cases r with
  | error message => exact safe_fail
  | ok found =>
    refine safe_pure fun w2 hle2 record revision hfound => ?_
    obtain ⟨hwritten, n, hn, hmem⟩ := hr record revision (by rw [hfound])
    exact ⟨(hle2.plan ()).subset hwritten, n, hn, hle2.seen.subset hmem⟩

lemma Justified.mono (h : Justified write record w) (hle : w ≤ w') : Justified write record w' :=
  ⟨h.1, fun base revision hbase => (hle.plan ()).subset (h.2 base revision hbase)⟩

lemma planSafe_writeOwnershipPlan (hinv : PlanInv w) (h : Justified write record w) :
    PlanSafe (writeOwnershipPlan write record)
      (fun _ w1 => ∃ n, w.nextLease ≤ n ∧ (n, record) ∈ w1.seen) w := by
  let Written (done : Bool) (w1 : PlanWorld) : Prop :=
    done = true → ∃ n, w.nextLease ≤ n ∧ (n, record) ∈ w1.seen
  have hmono : ∀ done w1 w2, w1 ≤ w2 → Written done w1 → Written done w2 := by
    intro done w1 w2 hle hwritten hdone
    obtain ⟨n, hn, hmem⟩ := hwritten hdone
    exact ⟨n, hn, hle.seen.subset hmem⟩
  have hreq : ∀ w1, w ≤ w1 → PlanInv w1 → PlanSafe (planCall (.writePlan write record))
        (fun r w2 => ∀ done, r = .ok done → Written done w2) w1 := by
    intro w1 hle1 _
    refine safe_op fun w2 hle2 _ => ⟨h.mono (hle1.trans hle2), ?_⟩
    intro c r w3 hexec w4 hle4 done hr hdone
    subst hr hdone
    cases c with
    | done =>
      simp only [planMachine, planExec] at hexec
      split_ifs at hexec
      · cases hexec
        exact ⟨w2.nextLease, (hle1.trans hle2).nextLease, hle4.seen.subset mem_cons_self⟩
      · cases hexec
    | lost msg =>
      simp only [planMachine, planExec] at hexec
      split_ifs at hexec <;> cases hexec
    | _ => cases hexec
  have hagain : ∀ w1, w ≤ w1 → PlanInv w1 →
      PlanSafe (planCall .retryAllowed) (fun _ _ => True) w1 :=
    fun _ _ _ => safe_op fun _ _ _ => ⟨trivial, fun _ _ _ _ _ _ => trivial⟩
  have hretried : PlanSafe ((planCall (.writePlan write record)).retry (planCall .retryAllowed)
      (planTxnMaxAttempts - 1)) (fun r w2 => ∀ done, r = .ok done → Written done w2) w :=
    Safe.retry (R := Written) hmono hreq hagain hinv _
  refine Safe.bind hretried hinv fun r w1 _ _ hr => ?_
  split
  · exact safe_pure fun w2 hle2 => hmono true w1 w2 hle2 (hr true rfl) rfl
  · exact safe_fail
  · exact safe_fail

lemma planSafe_admitLoop (n : Nat) (hinv : PlanInv w) (h : Acquired config lease w) :
    PlanSafe (admitLoop config n) (fun _ w1 => Listed config lease w1 ∧
      InPlan config lease w1) w := by
  induction n generalizing w with
  | zero => exact safe_fail
  | succ n ih =>
    have hclock : PlanSafe (planCall .nowMs) (fun _ _ => True) w :=
      safe_op fun _ _ _ => ⟨trivial, fun _ _ _ _ _ _ => trivial⟩
    refine Safe.bind hclock hinv fun now w1 h1 hinv1 _ => ?_
    refine Safe.bind (planSafe_activeIdentityRecords hinv1) hinv1
      fun identities w2 h2 hinv2 hlisting => ?_
    have hcheck : PlanSafe (.ofExcept (checkActiveIdentities config identities))
        (fun _ _ => checkActiveIdentities config identities = .ok ()) w2 :=
      safe_ofExcept fun _ hok _ _ => hok
    refine Safe.bind hcheck hinv2 fun _ w3 h3 hinv3 hchecked => ?_
    have hacquired1 := h.mono h1
    have hlisted : Listed config lease w3 := by
      obtain ⟨k, hk, hmem⟩ := hlisting
      exact ⟨_, h3.listings.subset hmem, hacquired1.granted.trans_le hk, hchecked⟩
    have hacquired := (hacquired1.mono h2).mono h3
    refine Safe.bind (planSafe_getOwnershipPlan hinv3) hinv3 fun base w4 h4 hinv4 hbase => ?_
    dsimp only
    split
    · exact safe_fail
    · next hplanned =>
      obtain ⟨record, revision, rfl, hrecord⟩ := plannedRecord_eq_none hplanned
      obtain ⟨-, k, hk, hmem⟩ := hbase record revision rfl
      have hinPlan : InPlan config lease w4 := ⟨_, hmem, hacquired.granted.trans_le hk, hrecord⟩
      exact safe_pure fun w5 h5 => ⟨(hlisted.mono h4).mono h5, hinPlan.mono h5⟩
    · next record hplanned =>
      have hjustified : Justified ⟨config, identities, now, base⟩ record w4 :=
        ⟨hplanned, fun record revision hrecord => (hbase record revision hrecord).1⟩
      refine Safe.bind (planSafe_writeOwnershipPlan hinv4 hjustified).attempt hinv4
        fun outcome w5 h5 hinv5 hwritten => ?_
      have hacquired5 := (hacquired.mono h4).mono h5
      cases outcome with
      | ok _ =>
        obtain ⟨k, hk, hmem⟩ := hwritten
        have hrecord := plannedRecord_eq_some hplanned
        have hinPlan : InPlan config lease w5 :=
          ⟨_, hmem, (hacquired.mono h4).granted.trans_le hk, hrecord⟩
        exact safe_pure fun w6 h6 => ⟨((hlisted.mono h4).mono h5).mono h6, hinPlan.mono h6⟩
      | error e =>
        -- only a conflict starts another round
        cases e with
        | casFailed | metadataAlreadyExists => exact ih hinv5 hacquired5
        | _ => exact safe_fail

lemma planSafe_startWorker (hinv : PlanInv w) :
    PlanSafe (startWorker () config) (fun x w1 => Admitted x.1 x.2 w1) w := by
  have hclaim : PlanSafe (planCall (.acquireIdentity config.identity)) (fun r w1 => ∀ lease,
      r = .ok (some lease) → Acquired config lease w1) w := by
    refine safe_op fun w1 _ hinv1 => ⟨trivial, fun c r w2 hexec w3 hle3 => ?_⟩
    intro lease hr
    subst hr
    cases c with
    | done =>
      simp only [planMachine, planExec] at hexec
      split_ifs at hexec
      · cases hexec
      obtain ⟨hlease, rfl⟩ := Prod.mk.inj (Option.some.inj hexec)
      cases Except.ok.inj hlease
      refine Acquired.mono ⟨Nat.lt_succ_self _, fun id hid hid' => ?_⟩ hle3
      rcases mem_append.mp hid with hold | hnew
      · exact absurd hid' (hinv1.leases id hold).ne
      · rw [mem_singleton.mp hnew]
    | lost message =>
      simp only [planMachine, planExec] at hexec
      split_ifs at hexec <;> cases hexec
    | _ => cases hexec
  refine Safe.bind hclaim hinv fun r w1 _ hinv1 hr => ?_
  split
  · exact safe_fail
  · exact safe_fail
  · next lease =>
    have hacquired : Acquired config lease w1 := hr lease rfl
    have hadmit : PlanSafe (admitOwnershipPlanMember config)
        (fun _ w2 => 1 < config.generatorOwnershipModulo →
          Listed config lease w2 ∧ InPlan config lease w2) w1 := by
      unfold admitOwnershipPlanMember
      split_ifs with hmodulo
      · exact safe_pure fun _ _ hlt => absurd hlt hmodulo.not_gt
      exact (planSafe_admitLoop 8 hinv1 hacquired).imp fun x _ hx => by
        cases x with
        | ok _ => exact fun _ => hx
        | error e => trivial
    refine Safe.bind hadmit hinv1 fun _ w2 h2 _ hplanned => ?_
    refine safe_pure fun w3 h3 => ⟨(hacquired.mono h2).mono h3, fun hmodulo => ?_⟩
    exact ⟨(hplanned hmodulo).1.mono h3, (hplanned hmodulo).2.mono h3⟩

section

def Keeps (id : Identity) (m : OwnershipPlanMember) (record : OwnershipPlanRecord) : Prop :=
  id.record.worker = m.worker ∧
    identityRecordBelongsToOwnershipPlan id.record record.planId record.modulo = true

instance (id : Identity) (m : OwnershipPlanMember) (record : OwnershipPlanRecord) :
    Decidable (Keeps id m record) :=
  inferInstanceAs (Decidable (_ ∧ _))

/-- A plan write that takes effect has listed every identity that keeps a member of the plan it
replaces. -/
def freshListings : PlanGuard where
  op _ o _ w :=
    match o with
    | .writePlan write record => w.plan.admits (write.txn record) = true →
        ∀ x ∈ w.plan.get (), ∀ m ∈ x.1.members, ∀ id ∈ w.identities, Keeps id m x.1 →
          id ∈ write.identities
    | _ => True

instance : freshListings.Checked where
  op _ _ _ _ := by
    unfold freshListings
    dsimp only
    split <;> infer_instance

def HasMember (w : PlanWorld) (m : OwnershipPlanMember) (record : OwnershipPlanRecord) : Prop :=
  ∃ current revision, w.plan.get () = some (current, revision) ∧ m ∈ current.members ∧
    current.planId = record.planId ∧ current.modulo = record.modulo ∧
    (record.Unique → current.Unique)

lemma Justified.base_eq (h : Justified write record w) (hsound : w.plan.Sound)
    (hadmits : w.plan.admits (write.txn record) = true) : write.base = w.plan.get () := by
  have hcompare := Store.admits_iff.mp hadmits _ mem_cons_self
  cases hbase : write.base with
  | none =>
    rw [hbase] at hcompare
    rw [Store.get_eq_none hsound hcompare]
  | some base =>
    rw [hbase] at hcompare
    rw [(h.2 base.1 base.2 hbase).get_eq hsound hcompare]

variable {revision : Nat} {m : OwnershipPlanMember} {id : Identity} {a : Unit} {o : PlanOp}
  {c : PlanChoice}

lemma hasMember_commitPlan {record' : OwnershipPlanRecord} (hsound : w.plan.Sound)
    (hjustified : Justified write record' w) (hadmits : w.plan.admits (write.txn record') = true)
    (hget : w.plan.get () = some (record, revision)) (hm : m ∈ record.members)
    (hkeeps : Keeps id m record) (hlisted : id ∈ write.identities) :
    HasMember (w.commitPlan write record') m record := by
  have hbase := (hjustified.base_eq hsound hadmits).trans hget
  have hupdated : updatedPlan write.config write.records write.nowMs record = .ok
      (some record') := by
    rw [← hjustified.1, plannedRecord, hbase]
  have hactive : m.worker ∈ activeMembers write.records record := by
    refine mem_map.mpr ⟨id.record, mem_filter.mpr ⟨?_, hkeeps.2⟩, hkeeps.1⟩
    exact mem_map_of_mem hlisted
  obtain ⟨hunique, -, -, hmembers, hsame⟩ := updatedPlan_eq_some hupdated
  obtain ⟨hplan, hmodulo⟩ := hsame m hm hactive
  refine ⟨record', w.plan.revision + 1, ?_, (hmembers m).mpr (.inl ⟨hm, hactive⟩), hplan, hmodulo,
    fun _ => hunique⟩
  exact Store.get_commit_of_find (t := write.txn record') rfl

lemma hasMember_exec {r : o.Reply} (hinv : PlanInv w)
    (hallowed : planDiscipline.Allowed a o w) (hguard : freshListings.op a o c w)
    (hexec : planExec a o c w = some (r, w')) (hget : w.plan.get () = some (record, revision))
    (hm : m ∈ record.members) (hid : id ∈ w'.identities) (hkeeps : Keeps id m record) :
    HasMember w' m record := by
  have hsame : HasMember w m record := ⟨record, revision, hget, hm, rfl, rfl, fun h => h⟩
  rcases planExec_cases hexec with rfl | ⟨identity, rfl⟩ | rfl | rfl | ⟨write, record', rfl,
    hadmits, rfl⟩
  · exact hsame
  · exact hsame
  · exact hsame
  · exact hsame
  have hlisted : id ∈ write.identities := hguard hadmits (record, revision) hget m hm id hid hkeeps
  exact hasMember_commitPlan hinv.sound hallowed hadmits hget hm hkeeps hlisted

/-- A member that somebody has seen in a plan is in the current plan as long as an identity that was
active then still keeps it. -/
structure PlanKept (w : PlanWorld) : Prop where
  bounded : ∀ x ∈ w.seen, x.1 ≤ w.nextLease
  kept : ∀ x ∈ w.seen, ∀ m ∈ x.2.members, ∀ id ∈ w.identities, id.lease < x.1 →
    Keeps id m x.2 → HasMember w m x.2

lemma PlanKept.exec {r : o.Reply} (h : PlanKept w)
    (hinv : PlanInv w) (hallowed : planDiscipline.Allowed a o w)
    (hguard : freshListings.op a o c w) (hexec : planExec a o c w = some (r, w')) :
    PlanKept w' := by
  -- members seen before: still in the plan before the step, hence after it
  have hold : ∀ x ∈ w.seen, ∀ m ∈ x.2.members, ∀ id ∈ w'.identities, id.lease < x.1 →
      Keeps id m x.2 → HasMember w' m x.2 := by
    intro x hx m hm id hid hlt hkeeps
    have hle : w ≤ w' := PlanGrows.exec hexec
    have hactive : id ∈ w.identities := hle.identities id hid (hlt.trans_le (h.bounded x hx))
    obtain ⟨current, revision, hget, hmem, hplan, hmodulo, hunique⟩ :=
      h.kept x hx m hm id hactive hlt hkeeps
    have hkeeps' : Keeps id m current := ⟨hkeeps.1, by rw [hplan, hmodulo]; exact hkeeps.2⟩
    obtain ⟨current', rev', hget', hmem', hplan', hmodulo', hunique'⟩ :=
      hasMember_exec hinv hallowed hguard hexec hget hmem hid hkeeps'
    exact ⟨current', rev', hget', hmem', hplan'.trans hplan, hmodulo'.trans hmodulo,
      fun hx => hunique' (hunique hx)⟩
  rcases planExec_cases hexec with rfl | ⟨identity, rfl⟩ | rfl | rfl | ⟨write, record, -, -, rfl⟩
  · exact h
  · exact ⟨fun x hx => (h.bounded x hx).trans (Nat.le_succ _), hold⟩
  · exact ⟨h.bounded, hold⟩
  · refine ⟨fun x hx => ?_, fun x hx => ?_⟩
    · rcases List.mem_append.mp hx with hnew | hx
      · obtain ⟨e, -, rfl⟩ := List.mem_map.mp hnew
        exact le_rfl
      · exact h.bounded x hx
    · rcases List.mem_append.mp hx with hnew | hx
      · obtain ⟨e, he, rfl⟩ := List.mem_map.mp hnew
        intro m hm _ _ _ _
        exact ⟨e.1, e.2, Option.mem_toList.mp he, hm, rfl, rfl, fun h => h⟩
      · exact hold x hx
  · refine ⟨List.forall_mem_cons.mpr ⟨le_rfl, h.bounded⟩, List.forall_mem_cons.mpr ⟨?_, hold⟩⟩
    intro m hm _ _ _ _
    exact ⟨record, w.plan.revision + 1,
      Store.get_commit_of_find (t := write.txn record) rfl, hm, rfl, rfl,
      fun h => h⟩

lemma PlanKept.expire (h : PlanKept w) (lease : Nat) :
    PlanKept { w with identities := w.identities.filter fun id => id.lease ≠ lease } :=
  ⟨h.bounded, fun x hx m hm id hid => h.kept x hx m hm id (mem_of_mem_filter hid)⟩

end

section

variable {G : PlanGuard} {revision : Nat} {plan : Option (OwnershipPlanRecord × Nat)}
  {s : PlanState}

def AdmissionFact (_ : Unit) : Except TsoError (OwnershipConfig × Nat) → PlanWorld → Prop :=
  Discipline.OnOk fun x w => Admitted x.1 x.2 w

lemma planInv_initial (hplan : ∀ e, plan = some e → 0 < e.2 ∧ e.2 ≤ revision) :
    PlanInv (.initial revision plan) :=
  ⟨Store.Sound.ofEntries fun _ => hplan, by simp [PlanWorld.initial], by simp [PlanWorld.initial]⟩

lemma planHolds_initial (hplan : ∀ e, plan = some e → 0 < e.2 ∧ e.2 ≤ revision) :
    planDiscipline.Holds AdmissionFact (⟨.initial revision plan, []⟩ : PlanState) :=
  ⟨planInv_initial hplan, fun _ ht => absurd ht not_mem_nil⟩

lemma PlanRun.holds (hplan : ∀ e, plan = some e → 0 < e.2 ∧ e.2 ≤ revision)
    (h : PlanRun G revision plan s) : planDiscipline.Holds AdmissionFact s :=
  (planHolds_initial hplan).reach (fun _ _ _ hinv _ => planSafe_startWorker hinv) h

lemma PlanRun.kept (hplan : ∀ e, plan = some e → 0 < e.2 ∧ e.2 ≤ revision)
    (h : PlanRun freshListings revision plan s) : PlanKept s.world := by
  refine (planHolds_initial hplan).invariant ⟨?_, ?_⟩
    (fun _ _ _ hinv _ => planSafe_startWorker hinv) ?_ ?_ h
  · simp [PlanWorld.initial]
  · simp [PlanWorld.initial]
  · intro a o c w r w' hinv hkept hallowed hguard hexec
    exact hkept.exec hinv hallowed hguard hexec
  intro e w w' _ hkept _ henv
  cases e with
  | expire lease =>
    cases henv
    exact hkept.expire lease

variable {id : Identity}

lemma checkActiveIdentities_eq_ok {identities : List Identity}
    (h : checkActiveIdentities config identities = .ok ())
    (hid : id ∈ identities) (hworker : id.record.worker = config.worker) :
    (id.record.ownershipPlanId = config.expectedPlanId ∧
      id.record.ownershipModulo = config.generatorOwnershipModulo) ∧
    ∀ id' ∈ identities, id'.record.worker = config.worker → id' = id := by
  unfold checkActiveIdentities at h
  dsimp only at h
  split_ifs at h with hmany hdeclares
  have hmem : ∀ x ∈ identities, x.record.worker = config.worker →
      x ∈ identities.filter fun id => id.record.worker = config.worker :=
    fun x hx hx' => mem_filter.mpr ⟨hx, decide_eq_true hx'⟩
  have hone : ∀ x ∈ identities, x.record.worker = config.worker →
      identities.filter (fun id => id.record.worker = config.worker) = [x] := by
    intro x hx hx'
    have hpos := length_pos_of_mem (hmem x hx hx')
    obtain ⟨y, hy⟩ := length_eq_one_iff.mp (by omega :
      (identities.filter fun id => id.record.worker = config.worker).length = 1)
    have hxy := hmem x hx hx'
    rw [hy, mem_singleton] at hxy
    rw [hy, hxy]
  rw [hone id hid hworker] at hdeclares
  refine ⟨by simpa using hdeclares, fun id' hid' hworker' => ?_⟩
  have hboth := (hone id' hid' hworker').symm.trans (hone id hid hworker)
  simpa using hboth

lemma hasMember_of_admitted {remainder : Nat} (hinv : PlanInv w)
    (hkept : PlanKept w) (h : Admitted config id.lease w)
    (hmodulo : 1 < config.generatorOwnershipModulo) (hid : id ∈ w.identities)
    (hremainder : remainder ∈ config.effectiveGeneratorOwnershipRemainders) :
    ∃ current revision, w.plan.get () = some (current, revision) ∧ current.Unique ∧
      ⟨remainder, config.workerId, config.advertiseEndpoint⟩ ∈ current.members := by
  obtain ⟨⟨listing, hlisting, hbefore, hcheck⟩, seen, hseen, hlt, hunique, hplan, hmoduloEq,
    hall⟩ :=
    h.planned hmodulo
  have hrecord : id.record = config.identity := h.acquired.identity id hid rfl
  have hworker : id.record.worker = config.worker := by rw [hrecord]; rfl
  have hinListing : id ∈ listing.2 := (hinv.listings listing hlisting).2 id hid hbefore
  obtain ⟨⟨hdeclared, hdeclared'⟩, -⟩ := checkActiveIdentities_eq_ok hcheck hinListing hworker
  have hmember : ⟨remainder, config.workerId, config.advertiseEndpoint⟩ ∈ config.members :=
    mem_map.mpr ⟨remainder, hremainder, rfl⟩
  have hkeeps : Keeps id ⟨remainder, config.workerId, config.advertiseEndpoint⟩ seen.2 := by
    refine ⟨hworker, ?_⟩
    simp [identityRecordBelongsToOwnershipPlan, hdeclared, hdeclared', hplan, hmoduloEq]
  obtain ⟨current, revision, hget, hmem, -, -, hcurrent⟩ :=
    hkept.kept seen hseen _ (hall _ hmember) id hid hlt hkeeps
  exact ⟨current, revision, hget, hcurrent hunique, hmem⟩

lemma worker_ne_of_lease_lt {config' : OwnershipConfig} {id' : Identity} (hinv : PlanInv w)
    (h : Admitted config id.lease w) (h' : Admitted config' id'.lease w)
    (hmodulo' : 1 < config'.generatorOwnershipModulo) (hid : id ∈ w.identities)
    (hid' : id' ∈ w.identities) (hlt : id.lease < id'.lease) : config.worker ≠ config'.worker := by
  intro hsame
  obtain ⟨⟨listing, hlisting, hbefore, hcheck⟩, -⟩ := h'.planned hmodulo'
  have hlisted := (hinv.listings listing hlisting).2
  have hworker : id.record.worker = config'.worker := by
    rw [h.acquired.identity id hid rfl, ← hsame]
    rfl
  have hworker' : id'.record.worker = config'.worker := by
    rw [h'.acquired.identity id' hid' rfl]
    rfl
  obtain ⟨-, halone⟩ := checkActiveIdentities_eq_ok hcheck (hlisted id' hid' hbefore) hworker'
  have heq : id = id' := halone id (hlisted id hid (hlt.trans hbefore)) hworker
  exact absurd (congrArg Identity.lease heq) hlt.ne

/-- In runs whose plan writes have listed whoever keeps a member of the plan they replace, workers
that were admitted and are active hold no common remainder, and no step takes a member out of the
plan while its identity is active. -/
theorem ownership_exclusive (hplan : ∀ e, plan = some e → 0 < e.2 ∧ e.2 ≤ revision)
    (h : PlanRun freshListings revision plan s) :
    (∀ a a' config config' lease lease', ⟨a, .ret (config, lease)⟩ ∈ s.threads →
      ⟨a', .ret (config', lease')⟩ ∈ s.threads → lease ≠ lease' →
      1 < config.generatorOwnershipModulo → 1 < config'.generatorOwnershipModulo →
      lease ∈ s.world.identities.map Identity.lease →
      lease' ∈ s.world.identities.map Identity.lease →
      List.Disjoint config.effectiveGeneratorOwnershipRemainders
        config'.effectiveGeneratorOwnershipRemainders) ∧
    (∀ l s', freshListings.Admits s l → step planMachine startWorker s l = some s' →
      ∀ record r, s.world.plan.get () = some (record, r) → ∀ m ∈ record.members,
      ∀ id ∈ s'.world.identities, Keeps id m record →
      ∃ record' r', s'.world.plan.get () = some (record', r') ∧ m ∈ record'.members) := by
  have hholds := PlanRun.holds hplan h
  have hkept := PlanRun.kept hplan h
  constructor
  · intro a a' config config' lease lease' ht ht' hne hmodulo hmodulo' hactive hactive'
      remainder hremainder hremainder'
    obtain ⟨id, hid, rfl⟩ := List.mem_map.mp hactive
    obtain ⟨id', hid', rfl⟩ := List.mem_map.mp hactive'
    have hadmitted := hholds.post ht
    have hadmitted' := hholds.post ht'
    obtain ⟨current, n, hget, hunique, hmember⟩ :=
      hasMember_of_admitted hholds.inv hkept hadmitted hmodulo hid hremainder
    obtain ⟨current', n', hget', -, hmember'⟩ :=
      hasMember_of_admitted hholds.inv hkept hadmitted' hmodulo' hid' hremainder'
    obtain ⟨rfl, -⟩ := Prod.mk.inj (Option.some.inj (hget.symm.trans hget'))
    -- one plan assigns the remainder to one worker, and one worker has one identity
    have hsame := congrArg OwnershipPlanMember.worker (hunique.eq_of_remainder hmember hmember' rfl)
    rcases Nat.lt_or_gt_of_ne hne with hlt | hlt
    · exact worker_ne_of_lease_lt hholds.inv hadmitted hadmitted' hmodulo' hid hid' hlt hsame
    · exact worker_ne_of_lease_lt hholds.inv hadmitted' hadmitted hmodulo hid' hid hlt hsame.symm
  · intro l s' hadmits hstep record r hget m hm id hid hkeeps
    obtain ⟨a, e, rfl, rfl⟩ | ⟨i, c, a, o, k, reply, w', rfl, hi, hexec, rfl⟩ | ⟨i, rfl, rfl⟩ |
      ⟨e, w', rfl, henv, rfl⟩ := step_cases hstep
    · exact ⟨record, r, hget, hm⟩
    · obtain ⟨current, r', hget', hmem, -⟩ := hasMember_exec hholds.inv
        (hholds.allowed hi) (hadmits a o k hi) hexec hget hm hid hkeeps
      exact ⟨current, r', hget', hmem⟩
    · exact ⟨record, r, hget, hm⟩
    cases e with
    | expire lease =>
      cases henv
      exact ⟨record, r, hget, hm⟩

def samplePlanWorker (instanceId workerId endpoint : String) (remainders : List Nat) :
    OwnershipConfig :=
  { sampleWorker instanceId endpoint remainders with
    workerId := workerId
    ownershipPlanId := "plan" }

/-- Two workers are admitted one after the other. -/
theorem ownership_exclusive_sample : ∃ s a a' lease lease', PlanRun freshListings 0 none s ∧
      ⟨a, .ret (samplePlanWorker "1" "a" "a:1" [0], lease)⟩ ∈ s.threads ∧
      ⟨a', .ret (samplePlanWorker "2" "b" "b:1" [1], lease')⟩ ∈ s.threads ∧
      List.Disjoint (samplePlanWorker "1" "a" "a:1" [0]).effectiveGeneratorOwnershipRemainders
        (samplePlanWorker "2" "b" "b:1" [1]).effectiveGeneratorOwnershipRemainders := by
  obtain ⟨s, hrun, hst⟩ := PlanRun.of_script freshListings 0 none
    [.label (.spawn () (samplePlanWorker "1" "a" "a:1" [0])), .drive 0 20,
      .label (.spawn () (samplePlanWorker "2" "b" "b:1" [1])), .drive 1 20]
    (fun s => s.result 0 = some (samplePlanWorker "1" "a" "a:1" [0], 1) ∧
      s.result 1 = some (samplePlanWorker "2" "b" "b:1" [1], 2) ∧
      s.world.identities.map Identity.lease = [1, 2])
    (by decide +kernel)
  obtain ⟨hfirst, hsecond, hactive⟩ := of_decide_eq_true hst
  obtain ⟨a, ht⟩ := Sys.mem_threads_of_result hfirst
  obtain ⟨a', ht'⟩ := Sys.mem_threads_of_result hsecond
  have hdisjoint := (ownership_exclusive (by simp) hrun).1 a a' _ _ 1 2 ht ht' (by decide)
    (by decide)
    (by decide) (by rw [hactive]; decide) (by rw [hactive]; decide)
  exact ⟨s, a, a', 1, 2, hrun, ht, ht', hdisjoint⟩

/-- The first worker lists the identities before the second one starts, and then prunes the second
one from the plan: both are admitted and active, both hold the remainder 0, and the plan has lost
the member of the second one. -/
theorem ownership_not_exclusive : ∃ s a a' config config' lease lease', PlanRun .free 0 none s ∧
      ⟨a, .ret (config, lease)⟩ ∈ s.threads ∧ ⟨a', .ret (config', lease')⟩ ∈ s.threads ∧
      lease ≠ lease' ∧ config.expectedPlanId = config'.expectedPlanId ∧
      config.generatorOwnershipModulo = 2 ∧ config'.generatorOwnershipModulo = 2 ∧
      lease ∈ s.world.identities.map Identity.lease ∧
      lease' ∈ s.world.identities.map Identity.lease ∧
      0 ∈ config.effectiveGeneratorOwnershipRemainders ∧
      0 ∈ config'.effectiveGeneratorOwnershipRemainders ∧
      ∀ e ∈ s.world.plan.get (), ∀ m ∈ e.1.members, m.worker ≠ config'.worker := by
  let first := samplePlanWorker "1" "a" "a:1" [0]
  let second := samplePlanWorker "2" "b" "b:1" [0]
  obtain ⟨s, hrun, hst⟩ := PlanRun.of_script .free 0 none
    [.label (.spawn () first), .drive 0 3, .label (.spawn () second), .drive 1 20, .drive 0 20]
    (fun s => s.result 0 = some (first, 1) ∧ s.result 1 = some (second, 2) ∧
      s.world.identities.map Identity.lease = [1, 2] ∧
      ∀ e ∈ s.world.plan.get (), ∀ m ∈ e.1.members, m.worker ≠ second.worker)
    (by decide +kernel)
  obtain ⟨hfirst, hsecond, hactive, hlost⟩ := of_decide_eq_true hst
  obtain ⟨a, ht⟩ := Sys.mem_threads_of_result hfirst
  obtain ⟨a', ht'⟩ := Sys.mem_threads_of_result hsecond
  exact ⟨s, a, a', first, second, 1, 2, hrun, ht, ht', by decide, by decide, by decide, by decide,
    by rw [hactive]; decide, by rw [hactive]; decide, by decide, by decide, hlost⟩

end

end Chronos
