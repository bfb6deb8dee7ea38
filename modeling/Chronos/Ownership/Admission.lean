import Chronos.Interleaving.Discipline
import Chronos.KeyValue.Store
import Chronos.Ownership.Plan

/-! Workers that claim an identity and are then admitted to the ownership plan. -/

namespace Chronos

open Interleaving KeyValue

structure Identity where
  record : InstanceIdentityLeaseRecord
  lease : Nat
  deriving DecidableEq

structure PlanWorld where
  nextLease : Nat
  identities : List Identity
  plan : Store Unit OwnershipPlanRecord
  listings : List (Nat × List Identity)
  seen : List (Nat × OwnershipPlanRecord)

def PlanWorld.initial (revision : Nat) (plan : Option (OwnershipPlanRecord × Nat)) : PlanWorld where
  nextLease := 1
  identities := []
  plan := .ofEntries revision fun _ => plan
  listings := []
  seen := []

structure PlanWrite where
  config : OwnershipConfig
  identities : List Identity
  nowMs : Nat
  base : Option (OwnershipPlanRecord × Nat)

def PlanWrite.records (write : PlanWrite) : List InstanceIdentityLeaseRecord :=
  write.identities.map Identity.record

def PlanWrite.txn (write : PlanWrite) (record : OwnershipPlanRecord) :
    Txn Unit OwnershipPlanRecord where
  compares := [((), (write.base.map Prod.snd).getD 0)]
  writes := [⟨(), some record⟩]

inductive PlanOp where
  | acquireIdentity (record : InstanceIdentityLeaseRecord)
  | nowMs
  | listIdentities
  | getPlan
  | writePlan (write : PlanWrite) (record : OwnershipPlanRecord)
  | retryAllowed

@[reducible] def PlanOp.Reply : PlanOp → Type
  | .acquireIdentity _ => Except String (Option Nat)
  | .nowMs => Nat
  | .listIdentities => Except String (List Identity)
  | .getPlan => Except String (Option (OwnershipPlanRecord × Nat))
  | .writePlan .. => Except String Bool
  | .retryAllowed => Bool

abbrev planSig : Signature := ⟨PlanOp, PlanOp.Reply⟩

inductive PlanChoice where
  | time (nowMs : Nat)
  | done
  | lost (message : String)
  | down (message : String)
  | flag (value : Bool)
  deriving DecidableEq

inductive PlanEvent where
  | expire (lease : Nat)
  deriving DecidableEq

namespace PlanWorld

def claim (w : PlanWorld) (record : InstanceIdentityLeaseRecord) : PlanWorld :=
  { w with
    nextLease := w.nextLease + 1
    identities := w.identities ++ [⟨record, w.nextLease⟩] }

def commitPlan (w : PlanWorld) (write : PlanWrite) (record : OwnershipPlanRecord) : PlanWorld :=
  { w with
    plan := w.plan.commit (write.txn record)
    seen := (w.nextLease, record) :: w.seen }

def list (w : PlanWorld) : PlanWorld :=
  { w with listings := (w.nextLease, w.identities) :: w.listings }

def readPlan (w : PlanWorld) : PlanWorld :=
  { w with seen := (w.plan.get ()).toList.map (fun e => (w.nextLease, e.1)) ++ w.seen }

end PlanWorld

def planExec (_ : Unit) : (o : PlanOp) → PlanChoice → PlanWorld → Option (o.Reply × PlanWorld)
  | .acquireIdentity record, .done, w =>
    if w.identities.any fun id => id.record.instanceId = record.instanceId then some (.ok none, w)
    else some (.ok (some w.nextLease), w.claim record)
  | .acquireIdentity record, .lost message, w =>
    if w.identities.any fun id => id.record.instanceId = record.instanceId then
      some (.error message, w)
    else some (.error message, w.claim record)
  | .nowMs, .time now, w => some (now, w)
  | .listIdentities, .done, w => some (.ok w.identities, w.list)
  | .getPlan, .done, w => some (.ok (w.plan.get ()), w.readPlan)
  | .writePlan write record, .done, w =>
    if w.plan.admits (write.txn record) then some (.ok true, w.commitPlan write record)
    else some (.ok false, w)
  | .writePlan write record, .lost message, w =>
    if w.plan.admits (write.txn record) then some (.error message, w.commitPlan write record)
    else some (.error message, w)
  | .acquireIdentity _, .down message, w => some (.error message, w)
  | .listIdentities, .down message, w => some (.error message, w)
  | .getPlan, .down message, w => some (.error message, w)
  | .writePlan .., .down message, w => some (.error message, w)
  | .retryAllowed, .flag value, w => some (value, w)
  | _, _, _ => none

def planMachine : Machine planSig Unit PlanChoice PlanEvent PlanWorld where
  exec := planExec
  env
    | .expire lease, w =>
      some { w with identities := w.identities.filter fun id => id.lease ≠ lease }

abbrev PlanProg := Prog planSig TsoError

abbrev planCall (o : PlanOp) : PlanProg o.Reply := @Prog.op planSig TsoError o

def planTxnMaxAttempts : Nat := 4

section

variable (config : OwnershipConfig)

def activeIdentityRecords : PlanProg (List Identity) := do
  match ← planCall .listIdentities with
  | .ok identities => return identities
  | .error message => .fail (.internal ("Etcd list_identity_leases failed: " ++ message))

def getOwnershipPlan : PlanProg (Option (OwnershipPlanRecord × Nat)) := do
  match ← planCall .getPlan with
  | .ok found => return found
  | .error message => .fail (.internal ("Etcd get_ownership_plan failed: " ++ message))

def writeOwnershipPlan (write : PlanWrite) (record : OwnershipPlanRecord) : PlanProg Unit := do
  let (txnContext, conflict) := match write.base with
    | none => ("Etcd ownership plan create txn failed", TsoError.metadataAlreadyExists)
    | some _ => ("Etcd ownership plan CAS txn failed", TsoError.casFailed)
  match ← (planCall (.writePlan write record)).retry (planCall .retryAllowed)
    (planTxnMaxAttempts - 1) with
  | .ok true => return ()
  | .ok false => .fail conflict
  | .error message => .fail (.internal (txnContext ++ ": " ++ message))

def checkActiveIdentities (identities : List Identity) : Except TsoError Unit :=
  let own := identities.filter fun id => id.record.worker = config.worker
  if own.length > 1 then
    .error (.internal ("ownership plan worker_id=" ++ config.workerId ++ " advertise_endpoint=" ++
      config.advertiseEndpoint ++ " has multiple active identity leases"))
  else if own.any fun id => id.record.ownershipPlanId = config.expectedPlanId &&
      id.record.ownershipModulo = config.generatorOwnershipModulo then .ok ()
  else
    .error (.internal ("active identity for worker_id=" ++ config.workerId ++
      " advertise_endpoint=" ++ config.advertiseEndpoint ++
      " does not declare ownership plan_id=" ++ config.expectedPlanId ++ " modulo=" ++
      toString config.generatorOwnershipModulo))

def plannedRecord (write : PlanWrite) : Except TsoError (Option OwnershipPlanRecord) :=
  match write.base with
  | some (record, _) => updatedPlan write.config write.records write.nowMs record
  | none => createdPlan write.config write.nowMs

def admitLoop : Nat → PlanProg Unit
  | 0 => .fail .casFailed
  | attempts + 1 => do
    let now ← planCall .nowMs
    let identities ← activeIdentityRecords
    .ofExcept (checkActiveIdentities config identities)
    let base ← getOwnershipPlan
    let write : PlanWrite := ⟨config, identities, now, base⟩
    match plannedRecord write with
    | .error e => .fail e
    | .ok none => return ()
    | .ok (some record) => do
      match ← (writeOwnershipPlan write record).attempt with
      | .ok () => return ()
      | .error .casFailed | .error .metadataAlreadyExists => admitLoop attempts
      | .error e => .fail e

def admitOwnershipPlanMember : PlanProg Unit :=
  if config.generatorOwnershipModulo ≤ 1 then return () else admitLoop config 8

/-- A worker's start up to its admission: it claims an identity under a fresh lease, and is admitted
while it holds it. -/
def startWorker (_ : Unit) (config : OwnershipConfig) : PlanProg (OwnershipConfig × Nat) := do
  match ← planCall (.acquireIdentity config.identity) with
  | .error message => .fail (.internal ("Etcd identity lease txn failed: " ++ message))
  | .ok none => .fail (.instanceIdentityInUse config.instanceId)
  | .ok (some lease) => do
    admitOwnershipPlanMember config
    return (config, lease)

end

abbrev PlanState := Sys planSig Unit PlanWorld TsoError (OwnershipConfig × Nat)

abbrev PlanGuard := Guard planSig Unit PlanChoice PlanEvent PlanWorld OwnershipConfig

abbrev PlanRun (G : PlanGuard) (revision : Nat) (plan : Option (OwnershipPlanRecord × Nat)) :
    PlanState → Prop :=
  Reach planMachine startWorker G ⟨.initial revision plan, []⟩

def PlanOp.usual : PlanOp → PlanChoice
  | .nowMs => .time 10
  | .retryAllowed => .flag false
  | _ => .done

lemma PlanRun.of_script (G : PlanGuard) [G.Checked]
    (rev : Nat) (plan : Option (OwnershipPlanRecord × Nat))
    (commands : List (Command Unit OwnershipConfig PlanChoice PlanEvent)) (P : PlanState → Bool)
    (h : (script planMachine startWorker G PlanOp.usual commands
      ⟨.initial rev plan, []⟩).any P = true) :
    ∃ s, PlanRun G rev plan s ∧ P s = true :=
  Reach.exists_of_script h

end Chronos
