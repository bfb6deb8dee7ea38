import Chronos.Interleaving.Discipline
import Chronos.Pruning.Programs

/-! The discipline of the request records. A completed record and its index entry are written by one
transaction, so they have one revision; a transaction must leave every completed record with its
index entry, and one of a prune may only delete records that the prune is for. -/

namespace Chronos.Pruning

open Interleaving KeyValue Discipline

variable {w w' : RequestTable} {call : RequestStoreCall} {t : RequestTxn}
  {tk rid : String}

def indexEntryOf (timelineKey clientRequestId : String) (record : RequestRecord)
    (revision : Nat) : RequestEntry :=
  ⟨requestCleanupIndexKey record.updatedAtMs timelineKey clientRequestId,
    .index (requestCleanupIndexEntry timelineKey clientRequestId record), revision⟩

structure Completed (timelineKey clientRequestId : String) (record : RequestRecord)
    (e : RequestEntry) : Prop where
  key : e.key = requestKey timelineKey clientRequestId
  value : e.value = .record record
  state : record.state = .completed

def Indexed (w : RequestTable) : Prop :=
  ∀ e ∈ w.entries, ∀ timelineKey clientRequestId record,
    Completed timelineKey clientRequestId record e → record.updatedAtMs < 2 ^ 64 ∧
      indexEntryOf timelineKey clientRequestId record e.modRevision ∈ w.entries

structure CleanupInv (w : RequestTable) : Prop where
  sound : w.Sound
  signed : w.revision < 2 ^ 63
  indexed : Indexed w

/-- A prune may only delete completed records from before its cutoff. -/
def RequestStoreCall.MayDelete : RequestStoreCall → RequestRecord → Prop
  | prune olderThanMs _ _, record =>
    record.state = .completed ∧ record.updatedAtMs < olderThanMs
  | _, _ => True

structure Tidy (call : RequestStoreCall) (t : RequestTxn) (w : RequestTable) : Prop where
  indexed : Indexed (w.commit t)
  deleted : ∀ x ∈ t.writes, x.value = none → ∀ e ∈ w.entries, e.key = x.key →
    ∀ record, e.value = .record record → call.MayDelete record

lemma duplicateKey_eq_false (h : ¬ duplicateKey t = true) : (t.writes.map Write.key).Nodup := by
  simpa [duplicateKey] using h

variable {o : CleanupOp}

lemma cleanupExec_cases (call : RequestStoreCall) {c : CleanupChoice}
    {r : o.Reply} (h : cleanupExec call o c w = some (r, w')) :
    w' = w ∨ ∃ t, o = .txn t ∧ (t.writes.map Write.key).Nodup ∧ w.admits t = true ∧
      w.revision + 1 < 2 ^ 63 ∧ w' = w.commit t := by
  cases o with
  | txn t =>
    cases c with
    | done =>
      simp only [cleanupExec] at h
      split_ifs at h with hdup hadmits hfits
      · exact .inl (by cases h; rfl)
      · exact .inr ⟨t, rfl, duplicateKey_eq_false hdup, hadmits, hfits, by cases h; rfl⟩
      · exact .inl (by cases h; rfl)
    | lost msg =>
      simp only [cleanupExec, Bool.and_eq_true, decide_eq_true_eq, Bool.not_eq_true'] at h
      split_ifs at h with hmade
      · obtain ⟨⟨hdup, hadmits⟩, hfits⟩ := hmade
        exact .inr ⟨t, rfl, duplicateKey_eq_false (by simp [hdup]), hadmits, hfits, by cases h; rfl⟩
      · exact .inl (by cases h; rfl)
    | down msg => exact .inl (by cases h; rfl)
    | flag value => cases h
  | _ =>
    cases c
    all_goals first
      | exact .inl (by cases h; rfl)
      | cases h

def cleanupDiscipline : Discipline cleanupMachine where
  Inv := CleanupInv
  Allowed call o w :=
    match o with
    | .txn t => (t.writes.map Write.key).Nodup → w.admits t = true → Tidy call t w
    | _ => True
  exec_inv {call o c w r w'} hinv hallowed hexec := by
    rcases cleanupExec_cases call hexec with rfl | ⟨t, rfl, hnodup, hadmits, hfits, rfl⟩
    · exact hinv
    · exact ⟨hinv.sound.commit hnodup, hfits, (hallowed hnodup hadmits).indexed⟩
  exec_le {call o c w r w'} hinv _ hexec := by
    rcases cleanupExec_cases call hexec with rfl | ⟨t, rfl, hnodup, -, -, rfl⟩
    · exact le_rfl
    · exact Table.le_commit hinv.sound hnodup
  env_inv {e} := nomatch e
  env_le {e} := nomatch e

abbrev CleanupSafe {α : Type} (call : RequestStoreCall) (prog : CleanupProg α)
    (R : α → RequestTable → Prop) (w : RequestTable) : Prop :=
  cleanupDiscipline.Safe call prog (Discipline.OnOk R) w

section

variable {α β : Type} {R : α → RequestTable → Prop}

lemma safe_bind {prog : CleanupProg β} {f : β → CleanupProg α} {Q : β → RequestTable → Prop}
    (hinv : CleanupInv w) (h : CleanupSafe call prog Q w)
    (hnext : ∀ x w1, w ≤ w1 → CleanupInv w1 → Q x w1 → CleanupSafe call (f x) R w1) :
    CleanupSafe call (prog >>= f) R w :=
  Safe.bind h hinv hnext

lemma safe_ofExcept_bind {x : Except TsoError β} {f : β → CleanupProg α} (hinv : CleanupInv w)
    (hnext : ∀ y w1, w ≤ w1 → CleanupInv w1 → x = .ok y → CleanupSafe call (f y) R w1) :
    CleanupSafe call (Prog.ofExcept x >>= f) R w :=
  safe_bind hinv (safe_ofExcept fun _ hx _ _ => hx) hnext

lemma safe_op {Q : o.Reply → RequestTable → Prop}
    (hallowed : ∀ w1, w ≤ w1 → CleanupInv w1 → cleanupDiscipline.Allowed call o w1)
    (h : ∀ w1 c r w2, w ≤ w1 → CleanupInv w1 → cleanupExec call o c w1 = some (r, w2) →
      ∀ w3, w2 ≤ w3 → Q r w3) : CleanupSafe call (cleanupCall o) Q w :=
  fun w1 hle hinv => ⟨hallowed w1 hle hinv, fun c r w2 hexec => h w1 c r w2 hle hinv hexec⟩

variable {req : CleanupProg (Except String β)} {ctx key stop : String}

lemma safe_retry {Q : β → RequestTable → Prop}
    (hinv : CleanupInv w) (hmono : ∀ x w1 w2, w1 ≤ w2 → Q x w1 → Q x w2)
    (hreq : ∀ w1, w ≤ w1 → CleanupInv w1 →
      CleanupSafe call req (fun r w2 => ∀ x, r = .ok x → Q x w2) w1) :
    CleanupSafe call (retryEtcdRequest req) (fun r w2 => ∀ x, r = .ok x → Q x w2) w := by
  have hagain : ∀ w1, w ≤ w1 → CleanupInv w1 →
      CleanupSafe call (cleanupCall .retryAllowed) (fun _ _ => True) w1 :=
    fun _ _ _ => safe_op (fun _ _ _ => trivial) fun _ _ _ _ _ _ _ _ _ => trivial
  exact Safe.retry hmono hreq hagain hinv 3

lemma safe_orInternal {Q : β → RequestTable → Prop} (hinv : CleanupInv w)
    (hmono : ∀ x w1 w2, w1 ≤ w2 → Q x w1 → Q x w2)
    (h : CleanupSafe call req (fun r w1 => ∀ x, r = .ok x → Q x w1) w) :
    CleanupSafe call (orInternal ctx req) Q w := by
  refine safe_bind hinv h fun r w1 _ _ hr => ?_
  cases r with
  | error message => exact safe_fail
  | ok x => exact safe_pure fun w2 hle => hmono x w1 w2 hle (hr x rfl)

def Found (key : String) (found : Option RequestEntry) (since : Nat) (w : RequestTable) : Prop :=
  ∃ r, since ≤ r ∧ Table.Read key found r w

lemma Found.mono {found : Option RequestEntry} {since : Nat}
    (h : Found key found since w) (hle : w ≤ w') : Found key found since w' := by
  obtain ⟨r, hr, hread⟩ := h
  exact ⟨r, hr, hread.mono hle⟩

lemma safe_etcdGet (hinv : CleanupInv w) : CleanupSafe call (etcdGet key)
      (fun r w1 => ∀ found, r = .ok found → Found key found w.revision w1) w := by
  refine safe_retry hinv (fun _ _ _ hle h => h.mono hle) fun w1 hle1 _ => ?_
  refine safe_op (fun _ _ _ => trivial) fun w2 c r w3 hle2 hinv2 hexec w4 hle4 found hfound => ?_
  subst hfound
  cases c with
  | done =>
    cases hexec
    exact ⟨w2.revision, (hle1.trans hle2).1, (Table.read_get hinv2.sound key).mono hle4⟩
  | _ => cases hexec

def Listed (stop : String) (kv : RequestEntry) (w : RequestTable) : Prop :=
  kv.key < stop ∧ ∃ r, Table.Read kv.key (some kv) r w

lemma Listed.mono {kv : RequestEntry} (h : Listed stop kv w) (hle : w ≤ w') :
    Listed stop kv w' := by
  obtain ⟨hstop, r, hread⟩ := h
  exact ⟨hstop, r, hread.mono hle⟩

lemma safe_etcdRange {start : String} {limit : Nat} (hinv : CleanupInv w) :
    CleanupSafe call (etcdRange start stop limit)
      (fun r w1 => ∀ kvs, r = .ok kvs → ∀ kv ∈ kvs, Listed stop kv w1) w := by
  refine safe_retry hinv (fun _ _ _ hle h kv hkv => (h kv hkv).mono hle) fun w1 _ _ => ?_
  refine safe_op (fun _ _ _ => trivial) fun w2 c r w3 _ hinv2 hexec w4 hle4 kvs hkvs => ?_
  subst hkvs
  intro kv hkv
  cases c with
  | done =>
    cases hexec
    obtain ⟨hmem, hstop⟩ := Table.mem_of_mem_range hkv
    exact ⟨hstop, w2.revision, (Table.read_of_mem hinv2.sound hmem).mono hle4⟩
  | _ => cases hexec

lemma safe_etcdTxn (hinv : CleanupInv w)
    (h : ∀ w1, w ≤ w1 → CleanupInv w1 → (t.writes.map Write.key).Nodup → w1.admits t = true →
      Tidy call t w1) : CleanupSafe call (etcdTxn t) (fun _ _ => True) w := by
  have hretried : CleanupSafe call (etcdTxn t) (fun r _ => ∀ x, r = .ok x → True) w :=
    safe_retry hinv (fun _ _ _ _ _ => trivial) fun w1 hle1 _ =>
      safe_op (fun w2 hle2 => h w2 (hle1.trans hle2)) fun _ _ _ _ _ _ _ _ _ _ _ => trivial
  exact hretried.imp fun
    | .ok _, _, _ => trivial
    | .error _, _, _ => trivial

lemma safe_txn_bind {f : Option Nat → CleanupProg α} (hinv : CleanupInv w)
    (h : ∀ w1, w ≤ w1 → CleanupInv w1 → (t.writes.map Write.key).Nodup → w1.admits t = true →
      Tidy call t w1)
    (hnext : ∀ x w1, w ≤ w1 → CleanupInv w1 → CleanupSafe call (f x) R w1) :
    CleanupSafe call (orInternal ctx (etcdTxn t) >>= f) R w := by
  refine safe_bind hinv (safe_orInternal hinv (fun _ _ _ _ _ => trivial)
    ((safe_etcdTxn hinv h).imp ?_)) fun x w1 hle hinv1 _ => hnext x w1 hle hinv1
  rintro (_ | _) _ h
  exacts [h, fun _ _ => trivial]

end

end Chronos.Pruning
