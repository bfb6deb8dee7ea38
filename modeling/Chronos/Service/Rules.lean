import Chronos.Service.Discipline
import Mathlib.Data.List.Nodup

/-! One rule per operation: what a program knows after it, and what it has to know before it. -/

namespace Chronos

open Interleaving List

abbrev Service := Prog sig TsoError

abbrev call (o : Op) : Service o.Reply := @Prog.op sig TsoError o

/-- Whatever the other threads do, every operation of the program is permitted when it is
performed, and a value it returns meets `R`. -/
abbrev Safe (C : Cluster) (p : Nat) {α : Type} (prog : Service α) (R : α → World → Prop)
    (w : World) : Prop :=
  (discipline C).Safe p prog (Discipline.OnOk R) w

abbrev Kept (C : Cluster) (p : Nat) {α : Type} (prog : Service α) (w : World) : Prop :=
  Safe C p prog (fun _ _ => True) w

variable {C : Cluster} {p g : Nat} {w : World} {α β : Type} {Q : α → World → Prop}

-- every rule below reads `act` at one operation: its equations are generated here, once
attribute [local simp] act

lemma safe_call {o : Op} {k : o.Reply → Service α} {R : o.Reply → World → Prop}
    (hact : ∀ w1 c r e, w ≤ w1 → Base C w1 → act C p w1 o c = some (r, e) →
      Permit C p w1 e ∧ R r (w1.apply p e))
    (hnext : ∀ r w1, w ≤ w1 → Base C w1 → R r w1 → Safe C p (k r) Q w1) :
    Safe C p (call o >>= k) Q w := by
  intro w1 hle hbase
  refine ⟨fun c r e h => (hact w1 c r e hle hbase h).1, fun c r w2 hexec => ?_⟩
  obtain ⟨⟨r', e⟩, h, heq⟩ := Option.map_eq_some_iff.mp hexec
  obtain ⟨rfl, rfl⟩ := Prod.mk.inj heq
  obtain ⟨hpermit, hR⟩ := hact w1 c r' e hle hbase h
  exact hnext r' _ (hle.trans hpermit.grows) (hbase.apply hpermit) hR

def Op.harmless : Op → Bool
  | .createGenerator .. | .compareExchangeGenerator .. | .compareExchangeGenerators _
  | .upsertLease .. | .compareExchangeNextIndex .. | .createTimeline ..
  | .compareExchangeTimeline .. | .timelineHandleOrInsert .. | .insertTimeline ..
  | .syncHandle .. | .storeHandle .. => false
  | _ => true

variable {key : String} {e : Effect} {revision bound now : Nat} {out : StoreOutcome}
  {write : GeneratorWrite} {ops : List GeneratorBatchOp}

lemma World.exists_handle_of_unlockedState {h : Nat} {state : TimelineState}
    (hs : w.unlockedState p key h = some state) : ∃ hd ∈ w.handles p key, hd.state = state := by
  unfold World.unlockedState at hs
  split at hs
  · next hd hh =>
    split_ifs at hs
    exact ⟨hd, mem_of_getElem? hh, Option.some.inj hs⟩
  · cases hs

lemma permit_of_harmless {o : Op} {c : Choice} {r : o.Reply}
    (ho : o.harmless = true) (h : act C p w o c = some (r, e)) :
    Permit C p w e := by
  cases o with
  | createGenerator | compareExchangeGenerator | compareExchangeGenerators | upsertLease
  | compareExchangeNextIndex | createTimeline | compareExchangeTimeline
  | timelineHandleOrInsert | insertTimeline | syncHandle | storeHandle => cases ho
  | lockHandle key h checked =>
    cases c <;> simp only [act, Option.map_eq_some_iff, reduceCtorEq] at h
    obtain ⟨state, hst, heq⟩ := h
    obtain ⟨rfl, rfl⟩ := Prod.mk.inj heq
    exact World.exists_handle_of_unlockedState hst
  | claimDedicated g key =>
    cases c <;> simp only [act, reduceCtorEq] at h
    split at h <;> (obtain ⟨-, rfl⟩ := Prod.mk.inj (Option.some.inj h); trivial)
  | claimedGeneratorForTimeline key | acquireFlight g =>
    cases c <;> simp only [act, reduceCtorEq] at h <;> split_ifs at h <;>
      (obtain ⟨-, rfl⟩ := Prod.mk.inj (Option.some.inj h); trivial)
  | readHandle key h =>
    cases c <;> simp only [act, Option.map_eq_some_iff, reduceCtorEq] at h
    obtain ⟨state, -, heq⟩ := h
    obtain ⟨-, rfl⟩ := Prod.mk.inj heq
    trivial
  | releaseDedicated g key =>
    cases c <;> simp only [act, reduceCtorEq] at h
    cases h
    split_ifs <;> trivial
  | validLeaseUpperBoundForOwner g now final =>
    cases c <;> simp only [act, reduceCtorEq] at h
    cases h
    cases final
    · trivial
    · exact rfl
  | nowMs =>
    cases c <;> simp only [act, reduceCtorEq] at h
    cases h
    exact rfl
  | _ =>
    cases c <;> simp only [act, reduceCtorEq] at h <;>
      (obtain ⟨-, rfl⟩ := Prod.mk.inj (Option.some.inj h); trivial)

lemma safe_harmless {o : Op} (ho : o.harmless = true) {k : o.Reply → Service α}
    (hnext : ∀ r w1, w ≤ w1 → Base C w1 → Safe C p (k r) Q w1) :
    Safe C p (call o >>= k) Q w :=
  safe_call (R := fun _ _ => True) (fun _ _ _ _ _ _ h => ⟨permit_of_harmless ho h, trivial⟩)
    fun r w1 hle hbase _ => hnext r w1 hle hbase

def GeneratorLoaded (g : Nat) (record : GeneratorRecord) (revision : Nat) (w : World) : Prop :=
  ∃ v ∈ w.generators g, v.record = record ∧ v.revision = revision

def TimelineLoaded (key : String) (record : TimelineRecord) (revision : Nat) (w : World) : Prop :=
  ∃ v ∈ w.timelines key, v.record = record ∧ v.revision = revision

def BoundFact (C : Cluster) (p g bound : Nat) (w : World) : Prop :=
  ∃ lease, LeaseFact C p g lease w ∧ lease.issuedUpperBound = some bound

variable {w' : World}

lemma GeneratorLoaded.mono {record : GeneratorRecord}
    (h : GeneratorLoaded g record revision w) (hle : w ≤ w') :
    GeneratorLoaded g record revision w' :=
  h.imp fun _ hv => ⟨(hle.generators g).mem hv.1, hv.2⟩

lemma TimelineLoaded.mono {record : TimelineRecord}
    (h : TimelineLoaded key record revision w) (hle : w ≤ w') :
    TimelineLoaded key record revision w' :=
  h.imp fun _ hv => ⟨(hle.timelines key).mem hv.1, hv.2⟩

lemma BoundFact.mono (h : BoundFact C p g bound w) (hle : w ≤ w') : BoundFact C p g bound w' :=
  h.imp fun _ hl => ⟨hl.1.mono hle, hl.2⟩

lemma mem_readings_mono (h : now ∈ w.readings p) (hle : w ≤ w') :
    now ∈ w'.readings p := (hle.readings p).mem h

lemma TimelineLoaded.handleFact {record : TimelineRecord}
    {floor : Option Nat} (h : TimelineLoaded key record revision w) :
    HandleFact key (buildTimelineState record revision floor) w := by
  obtain ⟨v, hv, rfl, rfl⟩ := h
  exact ⟨v, hv, rfl, rfl⟩

lemma safe_nowMs {k : Nat → Service α}
    (hnext : ∀ now w1, w ≤ w1 → Base C w1 → now ∈ w1.readings p → Safe C p (k now) Q w1) :
    Safe C p (call .nowMs >>= k) Q w := by
  refine safe_call (fun w1 c r e _ hbase h => ?_) hnext
  refine ⟨permit_of_harmless rfl h, ?_⟩
  cases c <;> simp only [act, reduceCtorEq] at h
  cases h
  simp [World.apply]

lemma exists_of_storeRead_head? {V R : Type} {history : List V} {f : V → R} {f' : V → Nat}
    {record : R}
    (h : storeRead (history.head?.map fun v => (f v, f' v)) out = .ok (some (record, revision))) :
    ∃ v ∈ history, f v = record ∧ f' v = revision := by
  cases out with
  | done =>
    obtain ⟨v, hv, heq⟩ := Option.map_eq_some_iff.mp (Except.ok.inj h)
    exact ⟨v, mem_of_mem_head? hv, Prod.mk.inj heq⟩
  | lost | down => cases h

lemma safe_loadGenerator {k : Except TsoError (Option (GeneratorRecord × Nat)) → Service α}
    (hnext : ∀ r w1, w ≤ w1 → Base C w1 → (∀ record revision, r = .ok (some (record, revision)) →
        GeneratorLoaded g record revision w1) → Safe C p (k r) Q w1) :
    Safe C p (call (.loadGenerator g) >>= k) Q w := by
  refine safe_call (R := fun r w1 => ∀ record revision, r = .ok (some (record, revision)) →
    GeneratorLoaded g record revision w1) (fun w1 c r e _ hbase h => ?_) hnext
  refine ⟨permit_of_harmless rfl h, fun record revision hr => ?_⟩
  cases c <;> simp only [act, reduceCtorEq] at h
  next out =>
    cases h
    exact exists_of_storeRead_head? hr

lemma safe_leaseState {k : Option GeneratorLeaseState → Service α}
    (hnext : ∀ r w1, w ≤ w1 → Base C w1 →
      (∀ lease, r = some lease → LeaseFact C p g lease w1) → Safe C p (k r) Q w1) :
    Safe C p (call (.leaseState g) >>= k) Q w := by
  refine safe_call (fun w1 c r e _ hbase h => ?_) hnext
  refine ⟨permit_of_harmless rfl h, fun lease hr => ?_⟩
  cases c <;> simp only [act, reduceCtorEq] at h
  cases h
  exact hbase.leases p g lease hr

lemma BoundFact.of_read (hbase : Base C w)
    (h : w.validLeaseUpperBoundForOwner C p g now = some bound) : BoundFact C p g bound w := by
  obtain ⟨lease, hlease, hbound⟩ := Option.bind_eq_some_iff.mp h
  exact ⟨lease, hbase.leases p g lease (Option.filter_eq_some_iff.mp hlease).1, hbound⟩

lemma safe_upperBound {final : Bool} {k : Option Nat → Service α}
    (hnext : ∀ r w1, w ≤ w1 → Base C w1 → (∀ bound, r = some bound → BoundFact C p g bound w1) →
      (final = true → r = none → (p, g, none) ∈ w1.finalReads) → Safe C p (k r) Q w1) :
    Safe C p (call (.validLeaseUpperBoundForOwner g now final) >>= k) Q w := by
  refine safe_call (R := fun r w1 => (∀ bound, r = some bound → BoundFact C p g bound w1) ∧
    (final = true → r = none → (p, g, none) ∈ w1.finalReads))
    (fun w1 c r e _ hbase h => ?_) fun r w1 hle hbase hR => hnext r w1 hle hbase hR.1 hR.2
  have hpermit := permit_of_harmless rfl h
  refine ⟨hpermit, fun bound hr => ?_, fun hfinal hr => ?_⟩ <;>
    cases c <;> simp only [act, reduceCtorEq] at h <;>
    cases h
  · exact (BoundFact.of_read hbase hr).mono hpermit.grows
  · simp [World.apply, hfinal, hr]

lemma safe_loadNextIndex {k : Nat → Service α}
    (hnext : ∀ n w1, w ≤ w1 → Base C w1 → n ≤ (w1.runtime p g).nextIndex →
      Safe C p (k n) Q w1) : Safe C p (call (.loadNextIndex g) >>= k) Q w := by
  refine safe_call (fun w1 c r e _ _ h => ⟨permit_of_harmless rfl h, ?_⟩) hnext
  cases c <;> simp only [act, reduceCtorEq] at h
  cases h
  exact le_rfl

lemma safe_fetchMaxNextIndex {idx : Nat} {k : Unit → Service α}
    (hnext : ∀ w1, w ≤ w1 → Base C w1 → idx ≤ (w1.runtime p g).nextIndex →
      Safe C p (k ()) Q w1) : Safe C p (call (.fetchMaxNextIndex g idx) >>= k) Q w := by
  refine safe_call (fun w1 c r e _ _ h => ⟨permit_of_harmless rfl h, ?_⟩)
    fun _ w1 hle hbase hR => hnext w1 hle hbase hR
  cases c <;> simp only [act, reduceCtorEq] at h
  cases h
  simp [World.apply, World.setRuntime_runtime]

lemma safe_upsertLease {lease : GeneratorLeaseState} {k : Unit → Service α}
    (hlease : LeaseFact C p g lease w)
    (hnext : ∀ w1, w ≤ w1 → Base C w1 → Safe C p (k ()) Q w1) :
    Safe C p (call (.upsertLease g lease) >>= k) Q w := by
  refine safe_call (R := fun _ _ => True) (fun w1 c r e hle _ h => ⟨?_, trivial⟩)
    fun _ w1 hle hbase _ => hnext w1 hle hbase
  cases c <;> simp only [act, reduceCtorEq] at h
  cases h
  exact hlease.mono hle

lemma storeWrite_cases {holds : Bool} {conflict : TsoError} {answer : β} {effect : Effect}
    {r : Except TsoError β}
    (h : storeWrite holds conflict answer effect out = (r, e)) :
    holds = true ∧ e = effect ∧ (∀ x, r = .ok x → x = answer) ∨ e = .none ∧ ∀ x, r ≠ .ok x := by
  cases out with
  | done =>
    simp only [storeWrite] at h
    split_ifs at h with hholds <;> obtain ⟨rfl, rfl⟩ := Prod.mk.inj h
    · exact .inl ⟨hholds, rfl, fun x hx => (Except.ok.inj hx).symm⟩
    · exact .inr ⟨rfl, nofun⟩
  | lost err =>
    simp only [storeWrite] at h
    split_ifs at h with hholds <;> obtain ⟨rfl, rfl⟩ := Prod.mk.inj h
    · exact .inl ⟨hholds, rfl, nofun⟩
    · exact .inr ⟨rfl, nofun⟩
  | down err =>
    obtain ⟨rfl, rfl⟩ := Prod.mk.inj h
    exact .inr ⟨rfl, nofun⟩

def GeneratorWritten (p g : Nat) (write : GeneratorWrite) (record : GeneratorRecord)
    (revision : Nat) (w : World) : Prop :=
  ∃ v ∈ w.generators g, v.revision = revision ∧ v.record = record ∧ v.writer = p ∧ v.write = write

lemma GeneratorWritten.mono {record : GeneratorRecord}
    (h : GeneratorWritten p g write record revision w) (hle : w ≤ w') :
    GeneratorWritten p g write record revision w' :=
  h.imp fun _ hv => ⟨(hle.generators g).mem hv.1, hv.2⟩

lemma World.generatorRevisionIs_iff : w.generatorRevisionIs g revision = true ↔
      ∃ v, (w.generators g).head? = some v ∧ v.revision = revision := by
  simp [World.generatorRevisionIs, Option.any_eq_true]

lemma generatorWritten_apply {v : GeneratorVersion} {vs : List (Nat × GeneratorVersion)}
    (hfind : vs.find? (fun x => x.1 = g) = some (g, v)) :
    GeneratorWritten v.writer g v.write v.record v.revision (w.apply p (.commitGenerators vs)) :=
  ⟨v, by simp [World.apply, hfind], rfl, rfl, rfl, rfl⟩

lemma safe_createGenerator {record : GeneratorRecord}
    {k : Except TsoError Nat → Service α} (hg : g < C.layout.maxGenerators)
    (hcommit : ∃ now ∈ w.readings p, record = C.createdGeneratorRecord p g now)
    (hnext : ∀ r w1, w ≤ w1 → Base C w1 →
      (∀ rev, r = .ok rev → GeneratorWritten p g .create record rev w1) → Safe C p (k r) Q w1) :
    Safe C p (call (.createGenerator g record) >>= k) Q w := by
  refine safe_call (R := fun r w1 => ∀ rev, r = .ok rev →
    GeneratorWritten p g .create record rev w1) (fun w1 c r e hle _ h => ?_) hnext
  cases c <;> simp only [act, reduceCtorEq] at h
  next out =>
    rcases storeWrite_cases (Option.some.inj h) with ⟨hempty, rfl, hr⟩ | ⟨rfl, hr⟩
    · refine ⟨?_, fun rev hrev => ?_⟩
      on_goal 2 =>
        obtain rfl := hr rev hrev
        exact generatorWritten_apply (v := ⟨w1.revision + 1, record, p, .create⟩) (by simp)
      simp only [Permit, forall_mem_singleton, GeneratorCommit, true_and]
      obtain ⟨now, hnow, hrecord⟩ := hcommit
      exact ⟨isEmpty_iff.mp hempty, hg, now, mem_readings_mono hnow hle, hrecord⟩
    · exact ⟨trivial, fun rev hrev => absurd hrev (hr rev)⟩

lemma safe_compareExchangeGenerator {record : GeneratorRecord} {k : Except TsoError Nat → Service α}
    (hcommit : ∀ w1 v0, w ≤ w1 → Base C w1 → (w1.generators g).head? = some v0 →
      v0.revision = revision → GeneratorCommit C p g w1 ⟨w1.revision + 1, record, p, write⟩)
    (hnext : ∀ r w1, w ≤ w1 → Base C w1 →
      (∀ rev, r = .ok rev → GeneratorWritten p g write record rev w1) → Safe C p (k r) Q w1) :
    Safe C p (call (.compareExchangeGenerator write g revision record) >>= k) Q w := by
  refine safe_call (R := fun r w1 => ∀ rev, r = .ok rev →
    GeneratorWritten p g write record rev w1) (fun w1 c r e hle hbase h => ?_) hnext
  cases c <;> simp only [act, reduceCtorEq] at h
  next out =>
    rcases storeWrite_cases (Option.some.inj h) with ⟨hholds, rfl, hr⟩ | ⟨rfl, hr⟩
    · obtain ⟨v0, hhead, hrev0⟩ := World.generatorRevisionIs_iff.mp hholds
      refine ⟨?_, fun rev hrev => ?_⟩
      on_goal 2 =>
        obtain rfl := hr rev hrev
        exact generatorWritten_apply (v := ⟨w1.revision + 1, record, p, write⟩) (by simp)
      simp only [Permit, forall_mem_singleton, true_and]
      exact hcommit w1 v0 hle hbase hhead hrev0
    · exact ⟨trivial, fun rev hrev => absurd hrev (hr rev)⟩

lemma find_batch {o : GeneratorBatchOp} {f : GeneratorBatchOp → GeneratorVersion}
    (hnodup : (ops.map (·.generatorId)).Nodup) (ho : o ∈ ops) :
    (ops.map fun o => (o.generatorId, f o)).find? (fun x => x.1 = o.generatorId) =
      some (o.generatorId, f o) := by
  rw [find?_map]
  cases hfind : ops.find? ((fun x : Nat × GeneratorVersion => decide (x.1 = o.generatorId)) ∘
      fun o => (o.generatorId, f o)) with
  | none =>
    have := find?_eq_none.mp hfind o ho
    simp at this
  | some o' =>
    have hmem := mem_of_find?_eq_some hfind
    have hid : o'.generatorId = o.generatorId := by simpa using find?_some hfind
    rw [inj_on_of_nodup_map hnodup hmem ho hid]
    rfl

lemma safe_compareExchangeGenerators {k : Except TsoError (List Nat) → Service α}
    (hcommit : ∀ o ∈ ops, ∀ w1 v0, w ≤ w1 → Base C w1 →
      (w1.generators o.generatorId).head? = some v0 → v0.revision = o.previousRevision →
      GeneratorCommit C p o.generatorId w1 ⟨w1.revision + 1, o.record, p, .refresh .maintenance⟩)
    (hnext : ∀ r w1, w ≤ w1 → Base C w1 →
      (∀ revs, r = .ok revs → ∀ x ∈ ops.zip revs, GeneratorWritten p x.1.generatorId
        (.refresh .maintenance) x.1.record x.2 w1) → Safe C p (k r) Q w1) :
    Safe C p (call (.compareExchangeGenerators ops) >>= k) Q w := by
  refine safe_call (R := fun r w1 => ∀ revs, r = .ok revs → ∀ x ∈ ops.zip revs,
    GeneratorWritten p x.1.generatorId (.refresh .maintenance) x.1.record x.2 w1)
    (fun w1 c r e hle hbase h => ?_) hnext
  cases c <;> simp only [act, reduceCtorEq] at h
  next out =>
    rcases storeWrite_cases (Option.some.inj h) with ⟨hholds, rfl, hr⟩ | ⟨rfl, hr⟩
    · obtain ⟨hnodup, hrevs⟩ := decide_eq_true_eq.mp hholds
      refine ⟨?_, fun revs hrev x hx => ?_⟩
      · simp only [Permit, forall_mem_map, true_and]
        intro o ho
        obtain ⟨v0, hhead, hrev0⟩ := World.generatorRevisionIs_iff.mp (hrevs o ho)
        exact hcommit o ho w1 v0 hle hbase hhead hrev0
      · have hx2 : x.2 = w1.revision + 1 := by
          have hmem := (of_mem_zip hx).2
          rw [hr revs hrev] at hmem
          obtain ⟨_, _, hx2⟩ := mem_map.mp hmem
          exact hx2.symm
        rw [hx2]
        exact generatorWritten_apply
          (find_batch hnodup (of_mem_zip hx).1)
    · exact ⟨trivial, fun revs hrev => absurd hrev (hr revs)⟩

end Chronos
