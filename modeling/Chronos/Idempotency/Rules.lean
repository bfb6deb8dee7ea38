import Chronos.Idempotency.Protocol

/-! The discipline of the idempotency protocol: no attempt touches a completed record. -/

namespace Chronos

open Interleaving KeyValue Discipline

variable {s s' : RequestStore} {p : Nat} {tk rid : String}
  {record : RequestRecord} {rev : Nat} {α : Type} {R : α → RequestStore → Prop}

lemma requestExec_cases {o : RequestOp} {c : RequestChoice} {r : o.Reply}
    (h : requestExec p o c s = some (r, s')) :
    s' = s ∨ ∃ t, o = .txn t ∧ s.admits t = true ∧ s.revision + 1 < 2 ^ 63 ∧ s' = s.commit t := by
  cases o with
  | txn t =>
    cases c with
    | done =>
      simp only [requestExec] at h
      split_ifs at h with hadmits hfits
      · exact .inr ⟨t, rfl, hadmits, hfits, by cases h; rfl⟩
      · exact .inl (by cases h; rfl)
    | lost message =>
      simp only [requestExec, Bool.and_eq_true, decide_eq_true_eq] at h
      split_ifs at h with hadmits
      · exact .inr ⟨t, rfl, hadmits.1, hadmits.2, by cases h; rfl⟩
      · exact .inl (by cases h; rfl)
    | down message => exact .inl (by cases h; rfl)
    | _ => cases h
  | allocate request =>
    cases c with
    | allocated response =>
      simp only [requestExec] at h
      split_ifs at h
      exact .inl (by cases h; rfl)
    | refused error => exact .inl (by cases h; rfl)
    | _ => cases h
  | _ =>
    cases c
    all_goals first
      | exact .inl (by cases h; rfl)
      | cases h

def requestDiscipline : Discipline requestMachine where
  Inv := RequestInv
  Allowed _ o s :=
    match o with
    | .txn t => s.admits t = true → ∃ timelineKey clientRequestId,
        Spares s t timelineKey clientRequestId
    | _ => True
  exec_inv {p o c s r s'} hinv hallowed hexec := by
    rcases requestExec_cases (p := p) hexec with rfl | ⟨t, rfl, hadmits, hfits, rfl⟩
    · exact hinv
    · obtain ⟨timelineKey, clientRequestId, hspares⟩ := hallowed hadmits
      exact hspares.inv hinv hfits
  exec_le {p o c s r s'} _ hallowed hexec := by
    rcases requestExec_cases (p := p) hexec with rfl | ⟨t, rfl, hadmits, -, rfl⟩
    · exact le_rfl
    · obtain ⟨timelineKey, clientRequestId, hspares⟩ := hallowed hadmits
      exact hspares.grows
  env_inv {e} := nomatch e
  env_le {e} := nomatch e

abbrev RequestSafe (p : Nat) (prog : RequestProg α) (R : α → RequestStore → Prop)
    (s : RequestStore) : Prop :=
  requestDiscipline.Safe p prog (Discipline.OnOk R) s

lemma requestSafe_bind {β : Type} {prog : RequestProg β} {f : β → RequestProg α}
    {Q : β → RequestStore → Prop} (hinv : RequestInv s) (h : RequestSafe p prog Q s)
    (hnext : ∀ x s1, s ≤ s1 → RequestInv s1 → Q x s1 → RequestSafe p (f x) R s1) :
    RequestSafe p (prog >>= f) R s :=
  Safe.bind h hinv hnext

lemma requestSafe_op {o : RequestOp} {Q : o.Reply → RequestStore → Prop}
    (hquiet : ∀ t, o ≠ .txn t)
    (h : ∀ s1 c r, s ≤ s1 → RequestInv s1 → requestExec p o c s1 = some (r, s1) →
      ∀ s2, s1 ≤ s2 → Q r s2) : RequestSafe p (requestCall o) Q s := by
  intro s1 hle hinv
  refine ⟨?_, fun c r s2 hexec => ?_⟩
  · cases o with
    | txn t => exact absurd rfl (hquiet t)
    | _ => trivial
  obtain rfl : s2 = s1 := by
    rcases requestExec_cases (p := p) hexec with heq | ⟨t, ht, -⟩
    · exact heq
    · exact absurd ht (hquiet t)
  exact h s2 c r hle hinv hexec

lemma requestSafe_getJsonRecord {opLabel : String} {key : RequestKey}
    {Q : Option (RequestRecord × Nat) → RequestStore → Prop} (hinv : RequestInv s)
    (h : ∀ s1, s ≤ s1 → RequestInv s1 → ∀ s2, s1 ≤ s2 → Q (s1.get key) s2) :
    RequestSafe p (getJsonRecord opLabel key) Q s := by
  have hread : RequestSafe p (requestCall (.get key))
      (fun r s2 => ∀ found, r = .ok found → ∀ s3, s2 ≤ s3 → Q found s3) s := by
    refine requestSafe_op nofun fun s1 c r hle1 hinv1 hexec s2 hle2 found hfound => ?_
    intro s3 hle3
    subst hfound
    cases c with
    | done =>
      simp only [requestExec, Option.some.injEq, Prod.mk.injEq, Except.ok.injEq, and_true] at hexec
      exact hexec ▸ h s1 hle1 hinv1 s3 (hle2.trans hle3)
    | _ => simp [requestExec] at hexec
  refine requestSafe_bind hinv hread fun r s1 _ _ hr => ?_
  cases r with
  | error message => exact safe_fail
  | ok found => exact safe_pure (hr found rfl)

lemma requestSafe_etcdTxn {txnContext : String} {t : Txn RequestKey RequestRecord}
    {Q : Nat → RequestStore → Prop} (hinv : RequestInv s)
    (hmono : ∀ r s1 s2, s1 ≤ s2 → Q r s1 → Q r s2)
    (hspares : ∀ s1, s ≤ s1 → RequestInv s1 → s1.admits t = true → Spares s1 t tk rid)
    (hdone : ∀ s1, RequestInv s1 → s1.revision + 1 < 2 ^ 63 → Q (s1.revision + 1) (s1.commit t)) :
    RequestSafe p (etcdTxn txnContext t) (fun r s1 => ∀ n, r = some n → Q n s1) s := by
  have hrequest : ∀ s1, s ≤ s1 → RequestInv s1 → RequestSafe p (requestCall (.txn t))
      (fun r s2 => ∀ x, r = .ok x → ∀ n, x = some n → Q n s2) s1 := by
    intro s1 hle1 _ s2 hle2 hinv2
    refine ⟨fun hadmits => ⟨_, _, hspares s2 (hle1.trans hle2) hinv2 hadmits⟩,
      fun c r s3 hexec s4 hle4 x hx n hn => ?_⟩
    subst hx hn
    cases c with
    | done =>
      simp only [requestMachine, requestExec] at hexec
      split_ifs at hexec with hadmits hfits
      · cases hexec
        exact hmono _ _ _ hle4 (hdone s2 hinv2 hfits)
      · cases hexec
    | lost message =>
      simp only [requestMachine, requestExec] at hexec
      split_ifs at hexec <;> cases hexec
    | down message => simp [requestMachine, requestExec] at hexec
    | _ => cases hexec
  have hagain : ∀ s1, s ≤ s1 → RequestInv s1 →
      RequestSafe p (requestCall .retryAllowed) (fun _ _ => True) s1 :=
    fun _ _ _ => requestSafe_op nofun fun _ _ _ _ _ _ _ _ => trivial
  have hretried : RequestSafe p
      ((requestCall (.txn t)).retry (requestCall .retryAllowed) (etcdRequestMaxAttempts - 1))
      (fun r s2 => ∀ x, r = .ok x → ∀ n, x = some n → Q n s2) s :=
    Safe.retry
      (fun _ s1 s2 hle hx n hn => hmono n s1 s2 hle (hx n hn)) hrequest hagain hinv _
  refine requestSafe_bind hinv hretried fun r s1 _ _ hr => ?_
  cases r with
  | error message => exact safe_fail
  | ok x => exact safe_pure fun s2 hle n hn => hmono n s1 s2 hle (hr x rfl n hn)

end Chronos
