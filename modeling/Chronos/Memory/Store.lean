import Chronos.Conflicts.Reports
import Chronos.KeyValue.Assoc

/-! The in-memory metadata store: entries with a revision of their own, and the generator records,
which are exchanged one at a time or in a batch. -/

namespace Chronos.Memory

open List

abbrev Entries (K V : Type) := AList fun _ : K => V × Nat

section

variable {K V : Type} [DecidableEq K] (store : Entries K V) (key : K)

def casEntry (previousRevision : Nat) (record : V) (notFoundError : TsoError) :
    Except TsoError (Nat × Entries K V) :=
  match store.lookup key with
  | some (_, currentRevision) =>
    if currentRevision ≠ previousRevision then .error .casFailed
    else .ok (currentRevision + 1, store.insert key (record, currentRevision + 1))
  | none => .error notFoundError

end

abbrev Generators := Entries Nat GeneratorRecord

section

def generatorNotFound (generatorId : Nat) : TsoError :=
  .timelineNotFound ("generator:" ++ toString generatorId)

def compareExchangeGenerator (generators : Generators) (operation : GeneratorBatchOp) :
    Except TsoError (Nat × Generators) :=
  match operation.record.validateSchemaVersion with
  | .error e => .error e
  | .ok () => casEntry generators operation.generatorId operation.previousRevision
      operation.record.stampedForPersistence (generatorNotFound operation.generatorId)

def checkOperations (generators : Generators) :
    List GeneratorBatchOp → List Nat → Except TsoError Unit
  | [], _ => .ok ()
  | operation :: rest, seenGeneratorIds =>
    if operation.generatorId ∈ seenGeneratorIds then .error .casFailed
    else
      match generators.lookup operation.generatorId with
      | none => .error (generatorNotFound operation.generatorId)
      | some (_, revision) =>
        if revision ≠ operation.previousRevision then .error .casFailed
        else checkOperations generators rest (operation.generatorId :: seenGeneratorIds)

def writeOperations :
    List GeneratorBatchOp → Generators → Except TsoError (List Nat) × Generators
  | [], generators => (.ok [], generators)
  | operation :: rest, generators =>
    match generators.lookup operation.generatorId with
    | none => (.error (generatorNotFound operation.generatorId), generators)
    | some (_, currentRevision) =>
      let written := writeOperations rest
        (generators.insert operation.generatorId (operation.record, currentRevision + 1))
      (written.1.map ((currentRevision + 1) :: ·), written.2)

def compareExchangeGenerators (generators : Generators) (operations : List GeneratorBatchOp) :
    Except TsoError (List Nat) × Generators :=
  match checkOperations generators operations [] with
  | .error e => (.error e, generators)
  | .ok () => writeOperations operations generators

def compareExchangeInOrder :
    List GeneratorBatchOp → Generators → Except TsoError (List Nat × Generators)
  | [], generators => .ok ([], generators)
  | operation :: rest, generators =>
    match compareExchangeGenerator generators operation with
    | .error e => .error e
    | .ok (revision, generators) =>
      (compareExchangeInOrder rest generators).map fun x => (revision :: x.1, x.2)

def BatchAgrees (generators : Generators) (operations : List GeneratorBatchOp) : Prop :=
  match compareExchangeInOrder operations generators with
  | .ok (revisions, written) =>
    compareExchangeGenerators generators operations = (.ok revisions, written)
  | .error _ => ∃ e, compareExchangeGenerators generators operations = (.error e, generators)

def Current (generators : Generators) (operation : GeneratorBatchOp) : Prop :=
  ∃ record, generators.lookup operation.generatorId = some (record, operation.previousRevision)

variable {generators : Generators} {operation : GeneratorBatchOp}
  {operations : List GeneratorBatchOp}

lemma map_eq_ok {ε α β : Type} {f : α → β} {x : Except ε α} {b : β} :
    x.map f = .ok b ↔ ∃ a, x = .ok a ∧ f a = b := by
  cases x <;> simp [Except.map]

variable {id : Nat} {entry : GeneratorRecord × Nat} {written : Generators}

lemma Current.insert (hne : operation.generatorId ≠ id) :
    Current (generators.insert id entry) operation ↔ Current generators operation := by
  unfold Current
  rw [AList.lookup_insert_ne hne]

lemma current_insert_iff (hfresh : id ∉ operations.map (·.generatorId)) :
    (∀ o ∈ operations, Current (generators.insert id entry) o) ↔ ∀ o ∈ operations,
      Current generators o := by
  refine forall₂_congr fun o ho => Current.insert fun heq => hfresh ?_
  exact heq ▸ mem_map_of_mem ho

lemma checkOperations_eq_ok {seen : List Nat} (hdistinct : (operations.map (·.generatorId)).Nodup)
    (hseen : ∀ o ∈ operations, o.generatorId ∉ seen) :
    checkOperations generators operations seen = .ok () ↔ ∀ o ∈ operations,
      Current generators o := by
  induction operations generalizing seen with
  | nil => simp [checkOperations]
  | cons operation rest ih =>
    obtain ⟨hfresh, hrest⟩ := nodup_cons.mp hdistinct
    rw [forall_mem_cons] at hseen
    have hnext : ∀ o ∈ rest, o.generatorId ∉ operation.generatorId :: seen := by
      intro o ho
      have hne : o.generatorId ≠ operation.generatorId := fun heq =>
        hfresh (mem_map.mpr ⟨o, ho, heq⟩)
      exact not_mem_cons_of_ne_of_not_mem hne (hseen.2 o ho)
    unfold checkOperations
    rw [if_neg hseen.1, forall_mem_cons, ← ih hrest hnext]
    cases hlook : generators.lookup operation.generatorId with
    | none => simp [Current, hlook]
    | some entry =>
      obtain ⟨record, rev⟩ := entry
      by_cases hrevision : rev = operation.previousRevision <;> simp [Current, hlook, hrevision]

lemma compareExchangeGenerator_eq_ok {rev : Nat} :
    compareExchangeGenerator generators operation = .ok (rev, written) ↔
      operation.record.schemaVersion = currentMetadataSchemaVersion ∧
        Current generators operation ∧ rev = operation.previousRevision + 1 ∧
        written = generators.insert operation.generatorId (operation.record, rev) := by
  unfold compareExchangeGenerator GeneratorRecord.validateSchemaVersion casEntry Current
  by_cases hschema : operation.record.schemaVersion = currentMetadataSchemaVersion
  · have hstamped : operation.record.stampedForPersistence = operation.record := by
      rw [GeneratorRecord.stampedForPersistence, ← hschema]
    rw [if_pos hschema, hstamped]
    cases hlook : generators.lookup operation.generatorId with
    | none => simp
    | some entry =>
      obtain ⟨record, current⟩ := entry
      by_cases hcurrent : current = operation.previousRevision
      · subst hcurrent
        grind
      · simp [hcurrent]
  · simp [hschema]

lemma writeOperations_cons (h : Current generators operation) :
    writeOperations (operation :: operations) generators =
      let written := writeOperations operations (generators.insert operation.generatorId
        (operation.record, operation.previousRevision + 1))
      (written.1.map ((operation.previousRevision + 1) :: ·), written.2) := by
  obtain ⟨record, hlook⟩ := h
  simp only [writeOperations, hlook]

lemma writeOperations_eq_ok (hdistinct : (operations.map (·.generatorId)).Nodup)
    (hcurrent : ∀ o ∈ operations, Current generators o) :
    ∃ revs, (writeOperations operations generators).1 = .ok revs := by
  induction operations generalizing generators with
  | nil => exact ⟨[], rfl⟩
  | cons operation rest ih =>
    obtain ⟨hfresh, hrest⟩ := nodup_cons.mp hdistinct
    rw [forall_mem_cons] at hcurrent
    obtain ⟨revs, hrevs⟩ := ih hrest ((current_insert_iff hfresh).mpr hcurrent.2)
    refine ⟨(operation.previousRevision + 1) :: revs, ?_⟩
    rw [writeOperations_cons hcurrent.1]
    dsimp only
    rw [hrevs]
    rfl

lemma compareExchangeInOrder_eq_ok {operations : List GeneratorBatchOp} {generators : Generators}
    {revisions : List Nat} {written : Generators}
    (hdistinct : (operations.map (·.generatorId)).Nodup) :
    compareExchangeInOrder operations generators = .ok (revisions, written) ↔
      (∀ o ∈ operations, o.record.schemaVersion = currentMetadataSchemaVersion) ∧
        (∀ o ∈ operations, Current generators o) ∧
        writeOperations operations generators = (.ok revisions, written) := by
  induction operations generalizing generators revisions written with
  | nil => simp [compareExchangeInOrder, writeOperations]
  | cons operation rest ih =>
    obtain ⟨hfresh, hrest⟩ := nodup_cons.mp hdistinct
    simp only [forall_mem_cons]
    cases hone : compareExchangeGenerator generators operation with
    | error e =>
      have hnot : ¬ (operation.record.schemaVersion = currentMetadataSchemaVersion ∧
          Current generators operation) := fun h => by
        have hok := compareExchangeGenerator_eq_ok.mpr ⟨h.1, h.2, rfl, rfl⟩
        cases hone.symm.trans hok
      simp only [compareExchangeInOrder, hone, reduceCtorEq, false_iff]
      exact fun h => hnot ⟨h.1.1, h.2.1.1⟩
    | ok first =>
      obtain ⟨hschema, hcurrent, hrevision, hwritten⟩ := compareExchangeGenerator_eq_ok.mp hone
      rw [writeOperations_cons hcurrent, ← hrevision, ← hwritten]
      simp only [compareExchangeInOrder, hone, map_eq_ok, Prod.mk.injEq, Prod.exists, ih hrest]
      rw [hwritten, current_insert_iff hfresh]
      grind

lemma compareExchangeGenerators_eq (hdistinct : (operations.map (·.generatorId)).Nodup) :
    (∀ o ∈ operations, Current generators o) ∧
        compareExchangeGenerators generators operations = writeOperations operations generators ∨
      (∃ o ∈ operations, ¬ Current generators o) ∧
        ∃ e, compareExchangeGenerators generators operations = (.error e, generators) := by
  have hiff : checkOperations generators operations [] = .ok () ↔ ∀ o ∈ operations,
      Current generators o :=
    checkOperations_eq_ok hdistinct fun _ _ => not_mem_nil
  unfold compareExchangeGenerators
  cases hcheck : checkOperations generators operations [] with
  | ok _ => exact .inl ⟨hiff.mp hcheck, rfl⟩
  | error e =>
    rw [hcheck, iff_comm] at hiff
    have hnot := mt hiff.mp (by simp)
    push Not at hnot
    exact .inr ⟨hnot, e, rfl⟩

theorem compareExchangeGenerators_agrees_iff (generators : Generators)
    (operations : List GeneratorBatchOp) (hdistinct : (operations.map (·.generatorId)).Nodup) :
    BatchAgrees generators operations ↔
      (∀ o ∈ operations, o.record.schemaVersion = currentMetadataSchemaVersion) ∨
        ∃ o ∈ operations, ¬ Current generators o := by
  unfold BatchAgrees
  obtain ⟨hcurrent, hbatch⟩ | ⟨hnot, e, hbatch⟩ := compareExchangeGenerators_eq hdistinct
  · obtain ⟨revisions, hrevisions⟩ := writeOperations_eq_ok hdistinct hcurrent
    have hwritten : writeOperations operations generators =
        (.ok revisions, (writeOperations operations generators).2) := Prod.ext hrevisions rfl
    cases hsingle : compareExchangeInOrder operations generators with
    | ok x =>
      obtain ⟨hschema, -, hwrite⟩ := (compareExchangeInOrder_eq_ok hdistinct).mp hsingle
      exact iff_of_true (hbatch.trans hwrite) (.inl hschema)
    | error e =>
      -- The batch is through although some single exchange refuses its record.
      refine iff_of_false ?_ ?_
      · rintro ⟨e, herror⟩
        rw [hbatch, hwritten] at herror
        cases herror
      rintro (hschema | ⟨o, ho, hstale⟩)
      · have hok := (compareExchangeInOrder_eq_ok hdistinct).mpr ⟨hschema, hcurrent, hwritten⟩
        cases hsingle.symm.trans hok
      · exact hstale (hcurrent o ho)
  · refine iff_of_true ?_ (.inr hnot)
    cases hsingle : compareExchangeInOrder operations generators with
    | ok x =>
      obtain ⟨o, ho, hstale⟩ := hnot
      exact absurd (((compareExchangeInOrder_eq_ok hdistinct).mp hsingle).2.1 o ho) hstale
    | error _ => exact ⟨e, hbatch⟩

def sampleGeneratorEntries : Generators :=
  ⟨[⟨0, sampleGenerator "a", 3⟩, ⟨1, sampleGenerator "a", 4⟩], by simp [List.NodupKeys]⟩

theorem compareExchangeGenerators_agrees_iff_sample :
    BatchAgrees sampleGeneratorEntries [⟨0, 3, sampleGenerator "b"⟩, ⟨1, 4, sampleGenerator "b"⟩] ∧
      (compareExchangeGenerators sampleGeneratorEntries
        [⟨0, 3, sampleGenerator "b"⟩, ⟨1, 4, sampleGenerator "b"⟩]).1 = .ok [4, 5] :=
  ⟨(compareExchangeGenerators_agrees_iff _ _ (by decide)).mpr (.inl (by decide)), by decide⟩

/-- The batch stores a record of a schema version that the single exchange refuses. -/
theorem compareExchangeGenerators_foreign_schema : ¬ BatchAgrees sampleGeneratorEntries
      [⟨0, 3, { sampleGenerator "b" with schemaVersion := 2 }⟩] := by
  rintro ⟨e, hfails⟩
  cases (congrArg Prod.fst hfails : Except.ok [4] = Except.error e)

end

end Chronos.Memory
