import Chronos.Conflicts.Timelines
import Chronos.Service.Ops

/-! What a reported conflict of an exchange of generators says. The exchange reports a conflict as
soon as an attempt fails on its comparison, without a look at what the attempts before it did. -/

namespace Chronos

open Interleaving Option

structure GeneratorStore where
  revision : Nat
  records : Nat → Option (GeneratorRecord × Nat)

namespace GeneratorStore

variable (w : GeneratorStore)

def modRevision (generatorId : Nat) : Nat := ((w.records generatorId).map Prod.snd).getD 0

def admits (operations : List GeneratorBatchOp) : Bool :=
  operations.all fun operation => w.modRevision operation.generatorId = operation.previousRevision

def put (w : GeneratorStore) (operation : GeneratorBatchOp) : GeneratorStore :=
  { w with
    records := Function.update w.records operation.generatorId
      (some (operation.record, w.revision)) }

def commit (operations : List GeneratorBatchOp) : GeneratorStore :=
  operations.foldl put { w with revision := w.revision + 1 }

end GeneratorStore

inductive GeneratorStoreOp where
  | txn (operations : List GeneratorBatchOp)
  | retryAllowed
  deriving DecidableEq

@[reducible] def GeneratorStoreOp.Reply : GeneratorStoreOp → Type
  | .txn _ => Except String (Option Nat)
  | .retryAllowed => Bool

abbrev generatorStoreSig : Signature := ⟨GeneratorStoreOp, GeneratorStoreOp.Reply⟩

/-- Whether an attempt takes effect; etcd takes no transaction that writes a key twice. -/
def GeneratorStoreOp.commits : GeneratorStoreOp → IndexChoice → GeneratorStore → Bool
  | .txn operations, .done, w | .txn operations, .lost _, w =>
    (operations.map GeneratorBatchOp.generatorId).Nodup && w.admits operations
  | _, _, _ => false

def generatorStoreExec (_ : Unit) : (o : GeneratorStoreOp) → IndexChoice → GeneratorStore →
    Option (o.Reply × GeneratorStore)
  | .txn operations, .done, w =>
    if (operations.map GeneratorBatchOp.generatorId).Nodup then
      if w.admits operations then some (.ok (some (w.revision + 1)), w.commit operations)
      else some (.ok none, w)
    else some (.error "duplicate key given in txn request", w)
  | .txn operations, .lost message, w =>
    if (operations.map GeneratorBatchOp.generatorId).Nodup && w.admits operations then
      some (.error message, w.commit operations)
    else some (.error message, w)
  | .txn _, .down message, w => some (.error message, w)
  | .retryAllowed, .flag value, w => some (value, w)
  | _, _, _ => none

def generatorCasMachine :
    Machine generatorStoreSig Unit IndexChoice (List GeneratorBatchOp) (Marked GeneratorStore) :=
  markCommits
    { exec := generatorStoreExec
      env := fun operations w => if w.admits operations then some (w.commit operations) else none }
    GeneratorStoreOp.commits

abbrev GeneratorStoreProg := Prog generatorStoreSig TsoError

def generatorEtcdTxn (operations : List GeneratorBatchOp) :
    GeneratorStoreProg (Except String (Option Nat)) :=
  Prog.retry (@Prog.op generatorStoreSig TsoError (.txn operations))
    (@Prog.op generatorStoreSig TsoError .retryAllowed) 3

def casJsonRecord (txnContext : String) (operation : GeneratorBatchOp) :
    GeneratorStoreProg Nat := do
  match ← orInternal txnContext (generatorEtcdTxn [operation]) with
  | none => .fail .casFailed
  | some revision => return revision

def casJsonRecordsBatch (txnContext : String) (operations : List GeneratorBatchOp) :
    GeneratorStoreProg (List Nat) :=
  if operations.isEmpty then return []
  else do
    match ← orInternal txnContext (generatorEtcdTxn operations) with
    | none => .fail .casFailed
    | some revision => return operations.map fun _ => revision

namespace GeneratorRecord

variable (record : GeneratorRecord)

def validateSchemaVersion : Except TsoError Unit :=
  if record.schemaVersion = currentMetadataSchemaVersion then .ok ()
  else .error (.internal
    ("unsupported generator metadata schema_version " ++ toString record.schemaVersion))

def stampedForPersistence : GeneratorRecord :=
  { record with schemaVersion := currentMetadataSchemaVersion }

end GeneratorRecord

def validateGeneratorOperations : List GeneratorBatchOp → Except TsoError Unit
  | [] => .ok ()
  | operation :: rest =>
    match operation.record.validateSchemaVersion with
    | .error e => .error e
    | .ok () => validateGeneratorOperations rest

inductive GeneratorCas where
  | one (generatorId expectedRevision : Nat) (record : GeneratorRecord)
  | batch (operations : List GeneratorBatchOp)
  deriving DecidableEq

def generatorCasCode : GeneratorCas → GeneratorStoreProg (List Nat)
  | .one generatorId expectedRevision record => do
    Prog.ofExcept record.validateSchemaVersion
    let revision ← casJsonRecord "Etcd generator txn failed"
      ⟨generatorId, expectedRevision, record.stampedForPersistence⟩
    return [revision]
  | .batch operations => do
    Prog.ofExcept (validateGeneratorOperations operations)
    casJsonRecordsBatch "Etcd generator batch txn failed" (operations.map fun operation =>
      { operation with record := operation.record.stampedForPersistence })

abbrev GeneratorCasState :=
  Single generatorStoreSig (Marked GeneratorStore) GeneratorCas TsoError (List Nat)

abbrev GeneratorCasTurn := Turn GeneratorCas IndexChoice (List GeneratorBatchOp)

def GeneratorCasState.unmarked (s : GeneratorCasState) : GeneratorCasTurn → Prop
  | .start _ => s.world.committed = false
  | _ => True

def GeneratorCasState.losesCommit (s : GeneratorCasState) : IndexChoice → Bool
  | .lost message =>
    match s.running with
    | some (_, .call o _) => GeneratorStoreOp.commits o (.lost message) s.world.store
    | _ => false
  | _ => false

def GeneratorCasState.answered (s : GeneratorCasState) : GeneratorCasTurn → Prop
  | .start _ => s.world.committed = false
  | .call c => s.losesCommit c = false
  | _ => True

abbrev GeneratorCasRun (G : GeneratorCasState → GeneratorCasTurn → Prop)
    (w₀ : Marked GeneratorStore) : GeneratorCasState → Prop :=
  Transition.Reach (turn generatorCasMachine () generatorCasCode Marked.fresh) G ⟨w₀, none⟩

def generatorCasSetting :
    Setting generatorStoreSig Unit IndexChoice (List GeneratorBatchOp) (Marked GeneratorStore) where
  machine := generatorCasMachine
  actor := ()
  Allowed o c w := ∀ message, c = .lost message → GeneratorStoreOp.commits o c w.store = false
  Drift w w' := w'.committed = w.committed
  drift_refl _ := rfl
  drift_trans h h' := h'.trans h

namespace GeneratorCas

variable {w : Marked GeneratorStore} {α : Type}

abbrev CasWp (prog : GeneratorStoreProg α) (Q : Except TsoError α → Marked GeneratorStore → Prop)
    (w : Marked GeneratorStore) : Prop :=
  generatorCasSetting.Wp (fun _ => True) prog Q w

variable {operations : List GeneratorBatchOp}

lemma unmarked_of_exec {c : IndexChoice}
    {r : Except String (Option Nat)} {w' : Marked GeneratorStore} (h : w.committed = false)
    (hallowed : generatorCasSetting.Allowed (.txn operations) c w)
    (hexec : generatorCasMachine.exec () (.txn operations) c w = some (r, w'))
    (hr : ∀ rev, r ≠ .ok (some rev)) : w'.committed = false := by
  obtain ⟨⟨r', store⟩, hstore, heq⟩ := map_eq_some_iff.mp hexec
  obtain ⟨rfl, rfl⟩ := Prod.mk.inj heq
  have hcommits : GeneratorStoreOp.commits (.txn operations) c w.store = false := by
    cases c with
    | done =>
      simp only [generatorStoreExec] at hstore
      split_ifs at hstore with hnodup hadmits
      · cases hstore
        exact absurd (Eq.refl _) (hr _)
      · simp [GeneratorStoreOp.commits, hadmits]
      · simp [GeneratorStoreOp.commits, hnodup]
    | lost msg => exact hallowed msg rfl
    | down | flag => rfl
  rw [h, hcommits]
  rfl

lemma wp_generatorEtcdTxn (operations : List GeneratorBatchOp) (h : w.committed = false) :
    CasWp (generatorEtcdTxn operations) (fun out w1 => ∃ r, out = .ok r ∧
      ((∀ rev, r ≠ .ok (some rev)) → w1.committed = false)) w := by
  let Unmarked (w1 : Marked GeneratorStore) : Prop := w1.committed = false
  let Told (r : Except String (Option Nat)) (w1 : Marked GeneratorStore) : Prop :=
    (∀ rev, r ≠ .ok (some rev)) → w1.committed = false
  have hstay : ∀ r w1 w2, Told r w1 → generatorCasSetting.Drift w1 w2 → Told r w2 :=
    fun r w1 w2 hr hdrift hnone => Eq.trans hdrift (hr hnone)
  refine Setting.Wp.retry (R := Told) hstay (fun w1 h1 => ?_)
    (fun e w1 hr => ?_) (fun e w1 hr => hr (by simp)) 3 h
  · refine Setting.wp_op fun w2 hdrift _ c r w3 hallowed hexec => ⟨trivial, fun w4 hdrift4 =>
      ⟨r, rfl, fun hnone => ?_⟩⟩
    exact hdrift4.trans (unmarked_of_exec (hdrift.trans h1) hallowed hexec hnone)
  refine Setting.wp_op fun w2 hdrift _ c r w3 _ hexec => ⟨trivial, fun w4 hdrift4 =>
    ⟨⟨r, rfl⟩, fun _ => ?_⟩⟩
  obtain ⟨⟨r', store⟩, hstore, heq⟩ := map_eq_some_iff.mp hexec
  obtain ⟨rfl, rfl⟩ := Prod.mk.inj heq
  have h2 : w2.committed = false := hdrift.trans (hr (by simp))
  rw [hdrift4, h2]
  cases c <;> rfl

lemma wp_report {ctx : String}
    {rest : Option Nat → GeneratorStoreProg α} (h : w.committed = false)
    (hnone : ∀ w1 : Marked GeneratorStore, w1.committed = false → CasWp (rest none) Truthful w1)
    (hsome : ∀ rev (w1 : Marked GeneratorStore), CasWp (rest (some rev)) Truthful w1) :
    CasWp (orInternal ctx (generatorEtcdTxn operations) >>= rest) Truthful w := by
  refine Setting.Wp.bind (R := fun out w1 => out ≠ .error .casFailed ∧
    (out = .ok none → w1.committed = false)) ?_ (fun answer w1 hanswer => ?_)
    fun e w1 hanswer he => absurd (by rw [Except.error.inj he]) hanswer.1
  · refine Setting.Wp.bind (wp_generatorEtcdTxn operations h) (fun r w1 hr => ?_) fun e w1 hr => ?_
    · obtain ⟨r', heq, hr⟩ := hr
      cases heq
      split
      · next answer =>
        refine fun w2 hdrift => ⟨(by simp), fun hout => ?_⟩
        cases hout
        exact hdrift.trans (hr (by simp))
      · exact fun w2 hdrift => ⟨(by simp), fun hout => by cases hout⟩
    · obtain ⟨r, heq, -⟩ := hr
      cases heq
  · cases answer with
    | none => exact hnone w1 (hanswer.2 rfl)
    | some rev => exact hsome rev w1

lemma wp_return {x : α} : CasWp (pure x : GeneratorStoreProg α) Truthful w := nofun

lemma wp_casFailed (h : w.committed = false) :
    CasWp (.fail .casFailed : GeneratorStoreProg α) Truthful w :=
  fun _ hdrift _ => hdrift.trans h

lemma wp_validated {x : Except TsoError Unit} {rest : GeneratorStoreProg α}
    (hx : x ≠ .error .casFailed) (h : CasWp rest Truthful w) :
    CasWp (Prog.ofExcept x >>= fun _ => rest) Truthful w := by
  cases x with
  | ok u => exact h
  | error e => exact fun _ _ he => absurd (by rw [Except.error.inj he]) hx

lemma validateSchemaVersion_ne_casFailed (record : GeneratorRecord) :
    record.validateSchemaVersion ≠ .error .casFailed := by
  unfold GeneratorRecord.validateSchemaVersion
  split <;> simp

lemma validateGeneratorOperations_ne_casFailed (operations : List GeneratorBatchOp) :
    validateGeneratorOperations operations ≠ .error .casFailed := by
  induction operations with
  | nil => simp [validateGeneratorOperations]
  | cons op rest ih =>
    unfold validateGeneratorOperations
    split
    · next e h => exact h ▸ validateSchemaVersion_ne_casFailed op.record
    · exact ih

lemma wp_generatorCasCode (call : GeneratorCas) (h : w.committed = false) :
    CasWp (generatorCasCode call) Truthful w := by
  cases call with
  | one gid expected record =>
    refine wp_validated (validateSchemaVersion_ne_casFailed record) ?_
    refine Setting.Wp.bind (wp_report h (fun w1 h1 => wp_casFailed h1) fun _ _ => wp_return)
      (fun _ _ _ => wp_return) fun e w1 hout he => hout (by rw [Except.error.inj he])
  | batch operations =>
    refine wp_validated (validateGeneratorOperations_ne_casFailed operations) ?_
    unfold casJsonRecordsBatch
    split
    · exact wp_return
    · exact wp_report h (fun w1 h1 => wp_casFailed h1) fun _ _ => wp_return

end GeneratorCas

lemma keeps_generatorCas :
    Keeps generatorCasMachine () generatorCasCode Marked.fresh GeneratorCasState.answered
      (fun _ => generatorCasSetting) (fun _ => True) (fun _ => True) (fun _ => Truthful) where
  machine _ := rfl
  actor _ := rfl
  start call _ hG _ _ := GeneratorCas.wp_generatorCasCode call hG
  allowed _ _ _ _ _ hG message hlost := by
    subst hlost
    exact hG
  finish _ _ _ _ _ _ := trivial
  drift _ _ _ _ _ _ henv := by
    obtain ⟨store, -, rfl⟩ := map_eq_some_iff.mp henv
    rfl
  env _ _ _ _ _ _ := trivial
  env_rest _ _ _ _ _ _ _ := trivial
  restart _ _ _ := ⟨trivial, trivial⟩

end Chronos
