import Chronos.Service.Config
import Mathlib.Data.List.Sort

/-! The ownership plan: which worker holds which remainders of the generator ids, and the rules by
which members are admitted, pruned and the plan is replaced. -/

namespace Chronos

open List

structure OwnershipPlanMember where
  remainder : Nat
  workerId : String
  advertiseEndpoint : String
  deriving DecidableEq

structure OwnershipPlanRecord where
  schemaVersion : Nat
  planId : String
  modulo : Nat
  members : List OwnershipPlanMember
  updatedAtMs : Nat
  deriving DecidableEq

def currentPlanSchemaVersion : Nat := 1

def OwnershipPlanMember.worker (member : OwnershipPlanMember) : String × String :=
  (member.workerId, member.advertiseEndpoint)

namespace OwnershipPlanRecord

variable (record : OwnershipPlanRecord)

def new (planId : String) (modulo : Nat) (member : OwnershipPlanMember) (updatedAtMs : Nat) :
    OwnershipPlanRecord :=
  ⟨currentPlanSchemaVersion, planId, modulo, [member], updatedAtMs⟩

def validateSchemaVersion : Except TsoError Unit :=
  if record.schemaVersion = currentPlanSchemaVersion then .ok ()
  else .error (.internal
    ("unsupported ownership plan metadata schema_version " ++ toString record.schemaVersion))

def remainderOutsideModulo (remainder modulo : Nat) : TsoError :=
  .internal ("ownership plan member remainder " ++ toString remainder ++ " is outside modulo " ++
    toString modulo)

def validateMembers (modulo : Nat) : List Nat → List OwnershipPlanMember → Except TsoError Unit
  | _, [] => .ok ()
  | remainders, member :: rest =>
    if member.remainder ≥ modulo then .error (remainderOutsideModulo member.remainder modulo)
    else if member.remainder ∈ remainders then
      .error (.internal
        ("ownership plan contains duplicate remainder " ++ toString member.remainder))
    else validateMembers modulo (member.remainder :: remainders) rest

def validateIntegrity : Except TsoError Unit :=
  if (trim record.planId).isEmpty then
    .error (.internal "ownership plan metadata plan_id must not be blank")
  else if record.modulo = 0 then
    .error (.internal "ownership plan metadata modulo must be greater than 0")
  else validateMembers record.modulo [] record.members

def validate : Except TsoError Unit := do
  record.validateSchemaVersion
  record.validateIntegrity

def admitMember (expectedPlanId : String) (expectedModulo : Nat) (member : OwnershipPlanMember)
    (updatedAtMs : Nat) : Except TsoError (OwnershipPlanRecord × Bool) := do
  record.validate
  if record.planId ≠ expectedPlanId then
    .error (.internal ("ownership plan mismatch: metadata plan_id=" ++ record.planId ++
      " local plan_id=" ++ expectedPlanId))
  else if record.modulo ≠ expectedModulo then
    .error (.internal ("ownership plan modulo mismatch: metadata modulo=" ++
      toString record.modulo ++ " local modulo=" ++ toString expectedModulo))
  else if member.remainder ≥ record.modulo then
    .error (remainderOutsideModulo member.remainder record.modulo)
  else
    match record.members.find? fun existing => existing.remainder = member.remainder with
    | some existing =>
      if existing.worker = member.worker then .ok (record, false)
      else
        .error (.internal ("ownership plan remainder " ++ toString existing.remainder ++
          " is already assigned to worker_id=" ++ existing.workerId ++ " advertise_endpoint=" ++
          existing.advertiseEndpoint))
    | none =>
      .ok ({ record with
        members := (record.members ++ [member]).insertionSort fun a b => a.remainder ≤ b.remainder
        updatedAtMs := updatedAtMs }, true)

def replaceIfEmpty (expectedPlanId : String) (expectedModulo updatedAtMs : Nat) :
    Except TsoError (OwnershipPlanRecord × Bool) := do
  record.validate
  if !record.members.isEmpty ||
      (record.planId = expectedPlanId && record.modulo = expectedModulo) then .ok (record, false)
  else
    .ok ({ record with
      planId := expectedPlanId
      modulo := expectedModulo
      updatedAtMs := updatedAtMs }, true)

def pruneInactiveMembers (activeMembers : List (String × String)) (updatedAtMs : Nat) :
    Except TsoError (OwnershipPlanRecord × Nat) := do
  record.validate
  let members := record.members.filter fun member => member.worker ∈ activeMembers
  let pruned := record.members.length - members.length
  .ok ({ record with
    members := members
    updatedAtMs := if pruned > 0 then updatedAtMs else record.updatedAtMs }, pruned)

def admitMembers (expectedPlanId : String) (expectedModulo updatedAtMs : Nat) :
    List OwnershipPlanMember → OwnershipPlanRecord → Except TsoError (OwnershipPlanRecord × Bool)
  | [], record => .ok (record, false)
  | member :: rest, record => do
    let (record, admitted) ← record.admitMember expectedPlanId expectedModulo member updatedAtMs
    let (record, more) ← admitMembers expectedPlanId expectedModulo updatedAtMs rest record
    .ok (record, admitted || more)

end OwnershipPlanRecord

structure InstanceIdentityLeaseRecord where
  instanceId : String
  workerId : String
  advertiseEndpoint : String
  ownershipPlanId : String
  ownershipModulo : Nat
  deriving DecidableEq

def InstanceIdentityLeaseRecord.worker (identity : InstanceIdentityLeaseRecord) : String × String :=
  (identity.workerId, identity.advertiseEndpoint)

/-- An identity that declares no plan counts for every plan. -/
def identityRecordBelongsToOwnershipPlan (identity : InstanceIdentityLeaseRecord)
    (planId : String) (modulo : Nat) : Bool :=
  identity.ownershipPlanId = "" ||
    (identity.ownershipPlanId = planId && identity.ownershipModulo = modulo)

structure OwnershipConfig extends TsoConfig where
  workerId : String
  ownershipPlanId : String
  deriving DecidableEq

namespace OwnershipConfig

variable (config : OwnershipConfig)

def worker : String × String := (config.workerId, config.advertiseEndpoint)

def expectedPlanId : String := String.ofList (trim config.ownershipPlanId)

def members : List OwnershipPlanMember :=
  config.effectiveGeneratorOwnershipRemainders.map fun remainder =>
    ⟨remainder, config.workerId, config.advertiseEndpoint⟩

def identity : InstanceIdentityLeaseRecord :=
  ⟨config.instanceId, config.workerId, config.advertiseEndpoint, config.ownershipPlanId,
    config.generatorOwnershipModulo⟩

end OwnershipConfig

def activeMembers (identities : List InstanceIdentityLeaseRecord) (record : OwnershipPlanRecord) :
    List (String × String) :=
  (identities.filter fun identity =>
    identityRecordBelongsToOwnershipPlan identity record.planId record.modulo).map
      InstanceIdentityLeaseRecord.worker

/-- What admission makes of the plan it has read, or `none` if the plan already has the worker and
nothing is to be pruned. -/
def updatedPlan (config : OwnershipConfig) (identities : List InstanceIdentityLeaseRecord)
    (nowMs : Nat) (record : OwnershipPlanRecord) : Except TsoError
      (Option OwnershipPlanRecord) := do
  let (record, pruned) ← record.pruneInactiveMembers (activeMembers identities record) nowMs
  let (record, replaced) ← record.replaceIfEmpty config.expectedPlanId
    config.generatorOwnershipModulo nowMs
  let (record, admitted) ← OwnershipPlanRecord.admitMembers config.expectedPlanId
    config.generatorOwnershipModulo nowMs config.members record
  .ok (if pruned = 0 && !replaced && !admitted then none else some record)

def createdPlan (config : OwnershipConfig) (nowMs : Nat) :
    Except TsoError (Option OwnershipPlanRecord) :=
  match config.members with
  | [] => .ok none
  | first :: remaining => do
    let (record, _) ← OwnershipPlanRecord.admitMembers config.expectedPlanId
      config.generatorOwnershipModulo nowMs remaining
      (.new config.expectedPlanId config.generatorOwnershipModulo first nowMs)
    .ok (some record)

section

namespace OwnershipPlanRecord

variable {record record' : OwnershipPlanRecord} {planId : String} {modulo now : Nat}
  {member : OwnershipPlanMember} {admitted : Bool}

def Unique (record : OwnershipPlanRecord) : Prop :=
  (record.members.map OwnershipPlanMember.remainder).Nodup

lemma Unique.eq_of_remainder {m m' : OwnershipPlanMember} (h : record.Unique)
    (hm : m ∈ record.members) (hm' : m' ∈ record.members) (heq : m.remainder = m'.remainder) :
    m = m' :=
  inj_on_of_nodup_map h hm hm' heq

variable {members : List OwnershipPlanMember}

lemma validateMembers_eq_ok {remainders : List Nat}
    (h : validateMembers modulo remainders members = .ok ()) :
    (members.map OwnershipPlanMember.remainder).Nodup ∧
      ∀ m ∈ members, m.remainder ∉ remainders := by
  induction members generalizing remainders with
  | nil => simp
  | cons m rest ih =>
    unfold validateMembers at h
    split_ifs at h with hrange hseen
    obtain ⟨hnodup, hfresh⟩ := ih h
    have hnew : ∀ x ∈ rest, x.remainder ≠ m.remainder ∧ x.remainder ∉ remainders := by
      intro x hx
      exact ⟨fun heq => hfresh x hx (heq ▸ mem_cons_self), fun hmem =>
        hfresh x hx (mem_cons_of_mem _ hmem)⟩
    constructor
    · rw [map_cons, nodup_cons]
      refine ⟨fun hmem => ?_, hnodup⟩
      obtain ⟨x, hx, heq⟩ := mem_map.mp hmem
      exact (hnew x hx).1 heq
    · exact forall_mem_cons.mpr ⟨hseen, fun x hx => (hnew x hx).2⟩

lemma unique_of_validate (h : record.validate = .ok ()) : record.Unique := by
  obtain ⟨⟨⟩, -, hintegrity⟩ := except_bind_eq_ok h
  unfold validateIntegrity at hintegrity
  split_ifs at hintegrity
  exact (validateMembers_eq_ok hintegrity).1

lemma admitMember_eq_ok (h : record.admitMember planId modulo member now = .ok
    (record', admitted)) :
    record.planId = planId ∧ record.modulo = modulo ∧ record'.planId = planId ∧
      record'.modulo = modulo ∧ record'.Unique ∧
      (∀ m, m ∈ record'.members ↔ m ∈ record.members ∨ m = member) ∧
      (admitted = false → record' = record) := by
  obtain ⟨⟨⟩, hvalid, h⟩ := except_bind_eq_ok h
  have hunique := unique_of_validate hvalid
  split_ifs at h with hplan hmodulo hrange
  rw [not_not] at hplan hmodulo
  split at h
  · next existing hfind =>
    split_ifs at h with hsame
    cases h
    have hexisting : existing ∈ record.members := List.mem_of_find?_eq_some hfind
    have hremainder : existing.remainder = member.remainder := by simpa using List.find?_some hfind
    have heq : existing = member := by
      obtain ⟨hworker, hendpoint⟩ := Prod.mk.inj hsame
      cases existing
      cases member
      simp_all
    refine ⟨hplan, hmodulo, hplan, hmodulo, hunique, fun m => ?_, fun _ => rfl⟩
    exact ⟨.inl, fun hm => hm.elim id fun hm => hm ▸ heq ▸ hexisting⟩
  · next hfind =>
    cases h
    have hperm := List.perm_insertionSort (fun a b : OwnershipPlanMember =>
      a.remainder ≤ b.remainder) (record.members ++ [member])
    refine ⟨hplan, hmodulo, hplan, hmodulo, ?_, fun m => ?_, nofun⟩
    · -- sorting keeps the remainders, and the new one was not there
      refine (hperm.map _).nodup_iff.mpr ?_
      have hfresh : ∀ m ∈ record.members, m.remainder ≠ member.remainder := by simpa using hfind
      rw [List.map_append, List.nodup_append]
      refine ⟨hunique, List.nodup_singleton _, fun r hr r' hr' => ?_⟩
      obtain ⟨m, hm, rfl⟩ := List.mem_map.mp hr
      obtain rfl := List.mem_singleton.mp hr'
      exact hfresh m hm
    · simp only [hperm.mem_iff, List.mem_append, List.mem_singleton]

lemma admitMembers_eq_ok (h : admitMembers planId modulo now members record = .ok
    (record', admitted)) :
    (record.Unique → record'.Unique) ∧ (members ≠ [] → record'.planId = planId ∧
      record'.modulo = modulo ∧
        record.planId = planId ∧ record.modulo = modulo ∧ record'.Unique) ∧
      (∀ m, m ∈ record'.members ↔ m ∈ record.members ∨ m ∈ members) ∧
      (admitted = false → record' = record) := by
  induction members generalizing record admitted with
  | nil =>
    cases h
    simp
  | cons member rest ih =>
    obtain ⟨⟨middle, first⟩, hadmit, h⟩ := except_bind_eq_ok h
    obtain ⟨⟨last, more⟩, hrest, h⟩ := except_bind_eq_ok h
    cases h
    obtain ⟨hplan, hmodulo, hplan', hmodulo', hunique, hmembers, hkept⟩ := admitMember_eq_ok hadmit
    obtain ⟨hrestUnique, hrestPlan, hrestMembers, hrestKept⟩ := ih hrest
    have hplans : record'.planId = planId ∧ record'.modulo = modulo := by
      by_cases hempty : rest = []
      · subst hempty
        cases hrest
        exact ⟨hplan', hmodulo'⟩
      · exact ⟨(hrestPlan hempty).1, (hrestPlan hempty).2.1⟩
    refine ⟨fun _ => hrestUnique hunique,
      fun _ => ⟨hplans.1, hplans.2, hplan, hmodulo, hrestUnique hunique⟩, fun m => ?_,
      fun hnone => ?_⟩
    · rw [hrestMembers, hmembers, mem_cons, or_assoc]
    · obtain ⟨hfirst, hmore⟩ := Bool.or_eq_false_iff.mp hnone
      rw [hrestKept hmore, hkept hfirst]

lemma pruneInactiveMembers_eq_ok {active : List (String × String)} {pruned : Nat}
    (h : record.pruneInactiveMembers active now = .ok (record', pruned)) :
    record.Unique ∧ record'.planId = record.planId ∧ record'.modulo = record.modulo ∧
      record'.members = record.members.filter (fun m => m.worker ∈ active) ∧
      (pruned = 0 → record' = record) := by
  obtain ⟨⟨⟩, hvalid, h⟩ := except_bind_eq_ok h
  cases h
  refine ⟨unique_of_validate hvalid, rfl, rfl, rfl, fun hnone => ?_⟩
  have hlen := length_filter_le (fun m : OwnershipPlanMember => decide (m.worker ∈ active))
    record.members
  have hall : record.members.filter (fun m => m.worker ∈ active) = record.members := by
    rw [filter_eq_self, ← length_filter_eq_length_iff]
    omega
  simp [hall]

lemma replaceIfEmpty_eq_ok {replaced : Bool}
    (h : record.replaceIfEmpty planId modulo now = .ok (record', replaced)) :
    record'.members = record.members ∧ (record.members ≠ [] → record' = record) ∧
      (replaced = false → record' = record) := by
  obtain ⟨⟨⟩, -, h⟩ := except_bind_eq_ok h
  split_ifs at h with hkept
  · cases h
    exact ⟨rfl, fun _ => rfl, fun _ => rfl⟩
  cases h
  refine ⟨rfl, fun hmembers => absurd hkept ?_, nofun⟩
  simp [hmembers]

end OwnershipPlanRecord

variable {config : OwnershipConfig} {identities : List InstanceIdentityLeaseRecord}
  {record record' : OwnershipPlanRecord} {now : Nat}

lemma OwnershipConfig.members_ne_nil : config.members ≠ [] := by
  unfold members TsoConfig.effectiveGeneratorOwnershipRemainders
  split
  · simp
  · next hne => simpa using hne

lemma updatedPlan_eq_some (h : updatedPlan config identities now record = .ok (some record')) :
    record'.Unique ∧ record'.planId = config.expectedPlanId ∧
      record'.modulo = config.generatorOwnershipModulo ∧
      (∀ m, m ∈ record'.members ↔
        (m ∈ record.members ∧ m.worker ∈ activeMembers identities record) ∨ m ∈ config.members) ∧
      ∀ m ∈ record.members, m.worker ∈ activeMembers identities record →
        record'.planId = record.planId ∧ record'.modulo = record.modulo := by
  obtain ⟨⟨kept, pruned⟩, hprune, h⟩ := except_bind_eq_ok h
  obtain ⟨⟨replaced, _⟩, hreplace, h⟩ := except_bind_eq_ok h
  obtain ⟨⟨last, _⟩, hadmit, h⟩ := except_bind_eq_ok h
  have hlast : last = record' := by
    have h := Except.ok.inj h
    split_ifs at h
    exact Option.some.inj h
  subst hlast
  obtain ⟨-, hplan, hmodulo, hkept, -⟩ := OwnershipPlanRecord.pruneInactiveMembers_eq_ok hprune
  obtain ⟨hsame, hnonempty, -⟩ := OwnershipPlanRecord.replaceIfEmpty_eq_ok hreplace
  obtain ⟨-, hexpected, hmembers, -⟩ := OwnershipPlanRecord.admitMembers_eq_ok hadmit
  obtain ⟨hplan', hmodulo', hold, hold', hunique⟩ := hexpected OwnershipConfig.members_ne_nil
  refine ⟨hunique, hplan', hmodulo', fun m => ?_, fun m hm hactive => ?_⟩
  · rw [hmembers, hsame, hkept, mem_filter, decide_eq_true_eq]
  have hstays : m ∈ kept.members := by
    rw [hkept, mem_filter]
    exact ⟨hm, decide_eq_true hactive⟩
  rw [hnonempty (ne_nil_of_mem hstays)] at hold hold'
  exact ⟨hplan'.trans (hold.symm.trans hplan), hmodulo'.trans (hold'.symm.trans hmodulo)⟩

lemma updatedPlan_eq_none (h : updatedPlan config identities now record = .ok none) :
    record.Unique ∧ record.planId = config.expectedPlanId ∧
      record.modulo = config.generatorOwnershipModulo ∧
      ∀ m ∈ config.members, m ∈ record.members := by
  obtain ⟨⟨kept, pruned⟩, hprune, h⟩ := except_bind_eq_ok h
  obtain ⟨⟨replaced, changed⟩, hreplace, h⟩ := except_bind_eq_ok h
  obtain ⟨⟨last, admitted⟩, hadmit, h⟩ := except_bind_eq_ok h
  have hidle : pruned = 0 ∧ changed = false ∧ admitted = false := by
    have h := Except.ok.inj h
    split_ifs at h with hidle
    simpa [and_assoc] using hidle
  obtain ⟨hunique, -, -, -, hkept⟩ := OwnershipPlanRecord.pruneInactiveMembers_eq_ok hprune
  obtain ⟨-, -, hsame⟩ := OwnershipPlanRecord.replaceIfEmpty_eq_ok hreplace
  obtain ⟨-, hexpected, hmembers, hlast⟩ := OwnershipPlanRecord.admitMembers_eq_ok hadmit
  obtain rfl := hkept hidle.1
  obtain rfl := hsame hidle.2.1
  obtain rfl := hlast hidle.2.2
  obtain ⟨hplan, hmodulo, -⟩ := hexpected OwnershipConfig.members_ne_nil
  exact ⟨hunique, hplan, hmodulo, fun m hm => (hmembers m).mpr (.inr hm)⟩

lemma createdPlan_eq_ok {found : Option OwnershipPlanRecord}
    (h : createdPlan config now = .ok found) :
    ∃ record, found = some record ∧ record.Unique ∧ record.planId = config.expectedPlanId ∧
      record.modulo = config.generatorOwnershipModulo ∧
      ∀ m, m ∈ record.members ↔ m ∈ config.members := by
  unfold createdPlan at h
  split at h
  · next hnil => exact absurd hnil OwnershipConfig.members_ne_nil
  · next first remaining hmembers =>
    obtain ⟨⟨last, admitted⟩, hadmit, h⟩ := except_bind_eq_ok h
    cases h
    obtain ⟨hunique, hexpected, hall, -⟩ := OwnershipPlanRecord.admitMembers_eq_ok hadmit
    have hplan : last.planId = config.expectedPlanId ∧
        last.modulo = config.generatorOwnershipModulo := by
      by_cases hempty : remaining = []
      · subst hempty
        cases hadmit
        exact ⟨rfl, rfl⟩
      · exact ⟨(hexpected hempty).1, (hexpected hempty).2.1⟩
    refine ⟨last, rfl, hunique (by simp [OwnershipPlanRecord.Unique, OwnershipPlanRecord.new]),
      hplan.1, hplan.2, fun m => ?_⟩
    rw [hall, hmembers, mem_cons]
    simp [OwnershipPlanRecord.new]

end

end Chronos
