import Chronos.Idempotency.Records

/-! Which record of a request a reader sees, and what every transaction of the protocol leaves
alone: a completed record that can be seen stays, and it stays what is seen. -/

namespace Chronos

open KeyValue List Option

abbrev RequestStore := Store RequestKey RequestRecord

variable {s s' : RequestStore} {tk rid : String} {record : RequestRecord}
  {rev : Nat} {txn : Txn RequestKey RequestRecord}

/-- The record that a load finds if nothing happens in between its two reads. -/
def visibleRequest (s : RequestStore) (timelineKey clientRequestId : String) :
    Option (RequestRecord × Nat) :=
  (s.get (requestKey timelineKey clientRequestId)).or
    (if legacyRequestKeyIsUnambiguous timelineKey clientRequestId then
      s.get (legacyRequestKey timelineKey clientRequestId)
    else none)

def completedRequest (s : RequestStore) (timelineKey clientRequestId : String) :
    Option RequestRecord :=
  ((visibleRequest s timelineKey clientRequestId).map Prod.fst).filter
    fun record => record.state = .completed

lemma completedRequest_current (h : s.get (requestKey tk rid) = some (record, rev))
    (hst : record.state = .completed) :
    completedRequest s tk rid = some record := by
  simp [completedRequest, visibleRequest, h, hst]

lemma completedRequest_legacy (hcurrent : s.get (requestKey tk rid) = none)
    (hplain : legacyRequestKeyIsUnambiguous tk rid = true)
    (h : s.get (legacyRequestKey tk rid) = some (record, rev))
    (hst : record.state = .completed) :
    completedRequest s tk rid = some record := by
  simp [completedRequest, visibleRequest, hcurrent, hplain, h, hst]

lemma completedRequest_pending (h : s.get (requestKey tk rid) = some (record, rev))
    (hst : record.state = .pending) :
    completedRequest s tk rid = none := by
  simp [completedRequest, visibleRequest, h, hst]

lemma completedRequest_absent (hcurrent : s.get (requestKey tk rid) = none)
    (hlegacy : legacyRequestKeyIsUnambiguous tk rid = true →
      ∀ x, s.get (legacyRequestKey tk rid) = some x → x.1.state = .pending) :
    completedRequest s tk rid = none := by
  unfold completedRequest visibleRequest
  rw [hcurrent, none_or]
  split
  · next hplain =>
    cases hget : s.get (legacyRequestKey tk rid) with
    | none => rfl
    | some x => simp [hlegacy hplain x hget]
  · rfl

lemma completedRequest_cases (h : completedRequest s tk rid = some record) :
    record.state = .completed ∧
      ((∃ rev, s.get (requestKey tk rid) = some (record, rev)) ∨ s.get (requestKey tk rid) = none ∧
          legacyRequestKeyIsUnambiguous tk rid = true ∧
          ∃ rev, s.get (legacyRequestKey tk rid) = some (record, rev)) := by
  obtain ⟨hvisible, hst⟩ := Option.filter_eq_some_iff.mp h
  obtain ⟨⟨seen, rev⟩, hseen, rfl⟩ := Option.map_eq_some_iff.mp hvisible
  refine ⟨of_decide_eq_true hst, ?_⟩
  unfold visibleRequest at hseen
  cases hcurrent : s.get (requestKey tk rid) with
  | some x =>
    rw [hcurrent, Option.some_or] at hseen
    exact .inl ⟨rev, hseen⟩
  | none =>
    rw [hcurrent, Option.none_or] at hseen
    split at hseen
    · next hplain => exact .inr ⟨rfl, hplain, rev, hseen⟩
    · cases hseen

/-- How the store grows: versions are added, completed records stay what a reader sees, and nothing
new appears under a legacy key. -/
structure RequestGrows (s s' : RequestStore) : Prop where
  history : ∀ key, s.history key <:+ s'.history key
  completed : ∀ timelineKey clientRequestId record,
    completedRequest s timelineKey clientRequestId = some record →
      completedRequest s' timelineKey clientRequestId = some record
  legacy : ∀ timelineKey clientRequestId x,
    s'.get (legacyRequestKey timelineKey clientRequestId) = some x →
      s.get (legacyRequestKey timelineKey clientRequestId) = some x

instance : Preorder RequestStore where
  le := RequestGrows
  le_refl s := ⟨fun _ => List.suffix_rfl, fun _ _ _ h => h, fun _ _ _ h => h⟩
  le_trans s₁ s₂ s₃ h h' :=
    ⟨fun key => (h.history key).trans (h'.history key),
      fun t i r hr => h'.completed t i r (h.completed t i r hr),
      fun t i x hx => h.legacy t i x (h'.legacy t i x hx)⟩

variable {key : RequestKey}

lemma written_mono (h : s.Written key record rev) (hle : s ≤ s') : s'.Written key record rev :=
  (hle.history key).mem h

structure RequestInv (s : RequestStore) : Prop where
  sound : s.Sound
  signed : s.revision < 2 ^ 63
  final : ∀ key, ∀ x ∈ s.history key, ∀ record, x.2 = some record → record.state = .completed →
    (s.history key).head? = some x

lemma RequestInv.get_eq (h : RequestInv s)
    (hwritten : s.Written key record rev) (hst : record.state = .completed) :
    s.get key = some (record, rev) :=
  Store.get_eq_some.mpr (h.final key _ hwritten record rfl hst)

lemma RequestInv.revision_lt (h : RequestInv s)
    (hget : s.get key = some (record, rev)) : rev < 2 ^ 63 :=
  (h.sound.bounded key _ (Store.written_of_get hget)).trans_lt h.signed

structure Spares (s : RequestStore) (txn : Txn RequestKey RequestRecord)
    (timelineKey clientRequestId : String) : Prop where
  pair : ∀ x ∈ txn.writes, x.key = requestKey timelineKey clientRequestId ∨
    x.key = legacyRequestKey timelineKey clientRequestId
  current : ∀ x ∈ txn.writes, x.key = requestKey timelineKey clientRequestId →
    completedRequest s timelineKey clientRequestId = none
  legacy : ∀ x ∈ txn.writes, x.key = legacyRequestKey timelineKey clientRequestId →
    x.value = none ∧
      ∀ y, s.get (legacyRequestKey timelineKey clientRequestId) = some y → y.1.state = .pending

namespace Spares

lemma not_completed (h : Spares s txn tk rid)
    {x : Write RequestKey RequestRecord} (hx : x ∈ txn.writes)
    (hget : s.get x.key = some (record, rev)) : record.state ≠ .completed := by
  intro hst
  rcases h.pair x hx with hkey | hkey
  · rw [hkey] at hget
    have hnone := h.current x hx hkey
    cases (completedRequest_current hget hst).symm.trans hnone
  rw [hkey] at hget
  have hpending := (h.legacy x hx hkey).2 _ hget
  cases hpending.symm.trans hst

lemma inv (h : Spares s txn tk rid) (hs : RequestInv s)
    (hfits : s.revision + 1 < 2 ^ 63) : RequestInv (s.commit txn) := by
  refine ⟨hs.sound.commit, hfits, fun key y hy record hval hst => ?_⟩
  rcases Store.history_commit (s := s) key with heq | ⟨x, hx, hkey, heq⟩
  · rw [heq] at hy ⊢
    exact hs.final key y hy record hval hst
  rw [heq] at hy ⊢
  rcases mem_cons.mp hy with rfl | hold
  · rfl
  obtain ⟨rev, value⟩ := y
  obtain rfl : value = some record := hval
  have hget := hs.get_eq hold hst
  exact absurd hst (h.not_completed hx (hkey ▸ hget))

lemma grows (h : Spares s txn tk rid) : s ≤ s.commit txn := by
  have hkept : ∀ key record rev, s.get key = some (record, rev) →
      record.state = .completed → (s.commit txn).history key = s.history key := by
    intro key record rev hget hst
    rcases Store.history_commit (s := s) key with heq | ⟨x, hx, hkey, -⟩
    · exact heq
    · exact absurd hst (h.not_completed hx (hkey ▸ hget))
  refine ⟨fun key => Store.history_suffix_commit key, fun t i record hrecord => ?_,
    fun t i y hy => ?_⟩
  · obtain ⟨hst, ⟨rev, hcurrent⟩ | ⟨hcurrent, hplain, rev, hlegacy⟩⟩ :=
      completedRequest_cases hrecord
    · have hsame := Store.get_of_history_eq (hkept _ _ _ hcurrent hst)
      exact completedRequest_current (hsame.trans hcurrent) hst
    have hsame := Store.get_of_history_eq (hkept _ _ _ hlegacy hst)
    refine completedRequest_legacy ?_ hplain (hsame.trans hlegacy) hst
    -- a write under the current key would have hidden the legacy record
    rcases Store.history_commit (s := s) (requestKey t i) with heq | ⟨x, hx, hkey, -⟩
    · exact (Store.get_of_history_eq heq).trans hcurrent
    rcases h.pair x hx with hpair | hpair
    · obtain ⟨rfl, rfl⟩ : t = tk ∧ i = rid := by simpa [requestKey] using hkey.symm.trans hpair
      have hnone := h.current x hx hkey
      cases hrecord.symm.trans hnone
    · simp [requestKey, legacyRequestKey] at hkey hpair
      simp [hkey] at hpair
  · rcases Store.history_commit (s := s) (legacyRequestKey t i) with heq | ⟨x, hx, hkey, heq⟩
    · rwa [Store.get_of_history_eq heq] at hy
    rcases h.pair x hx with hpair | hpair
    · simp [hkey, requestKey, legacyRequestKey] at hpair
    · have hdeleted := (h.legacy x hx hpair).1
      simp [Store.get, heq, hdeleted] at hy

end Spares

section

lemma createRequestTxn_spares (hs : s.Sound)
    (hadmits : s.admits (createRequestTxn tk rid record) = true) :
    Spares s (createRequestTxn tk rid record) tk rid := by
  have hcompares := Store.admits_iff.mp hadmits
  have hcurrent := Store.get_eq_none hs (hcompares _ mem_cons_self)
  refine ⟨?_, fun x _ _ => completedRequest_absent hcurrent fun hplain y hy => ?_, ?_⟩
  · simp [createRequestTxn]
  · have hlegacy := Store.get_eq_none hs (hcompares
      (legacyRequestKey tk rid, 0) (by simp [createRequestTxn, hplain]))
    cases hlegacy.symm.trans hy
  · simp [createRequestTxn, requestKey, legacyRequestKey]

variable {legacy : Bool} {prev : RequestRecord}

lemma exchangeRequestTxn_spares (hs : s.Sound) (hwritten : s.Written ⟨tk, rid, legacy⟩ prev rev)
    (hst : prev.state = .pending)
    (hadmits : s.admits (exchangeRequestTxn tk rid legacy rev record) = true) :
    Spares s (exchangeRequestTxn tk rid legacy rev record) tk rid := by
  have hcompares := Store.admits_iff.mp hadmits
  have hprev := hwritten.get_eq hs (hcompares _ mem_cons_self)
  cases legacy with
  | false =>
    refine ⟨?_, fun x _ _ => completedRequest_pending hprev hst, ?_⟩
    · simp [exchangeRequestTxn]
    · simp [exchangeRequestTxn, requestKey, legacyRequestKey]
  | true =>
    have hcurrent := Store.get_eq_none hs (hcompares
      (requestKey tk rid, 0) (by simp [exchangeRequestTxn]))
    have hpending : ∀ y, s.get (legacyRequestKey tk rid) = some y → y.1.state = .pending := by
      intro y hy
      cases hprev.symm.trans hy
      exact hst
    refine ⟨?_, fun x _ _ => completedRequest_absent hcurrent fun _ => hpending, ?_⟩
    · simp [exchangeRequestTxn]
    · simpa [exchangeRequestTxn, requestKey, legacyRequestKey] using hpending

lemma deleteRequestTxn_spares (hs : s.Sound) (hwritten : s.Written ⟨tk, rid, legacy⟩ prev rev)
    (hst : prev.state = .pending)
    (hadmits : s.admits (deleteRequestTxn tk rid legacy rev) = true) :
    Spares s (deleteRequestTxn tk rid legacy rev) tk rid := by
  have hcompares := Store.admits_iff.mp hadmits
  have hprev := hwritten.get_eq hs (hcompares _ mem_cons_self)
  cases legacy with
  | false =>
    refine ⟨?_, fun x _ _ => completedRequest_pending hprev hst, ?_⟩
    · simp [deleteRequestTxn, requestKey]
    · simp [deleteRequestTxn, legacyRequestKey]
  | true =>
    refine ⟨?_, ?_, fun x hx hkey => ⟨?_, fun y hy => ?_⟩⟩
    · simp [deleteRequestTxn, legacyRequestKey]
    · simp [deleteRequestTxn, requestKey]
    · obtain rfl := mem_singleton.mp hx
      rfl
    · cases hprev.symm.trans hy
      exact hst

end

end Chronos
