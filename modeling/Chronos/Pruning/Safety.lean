import Chronos.Pruning.Rules

/-! Pruning is safe. Every call on the request records is tidy, so in every interleaving each
completed record has its index entry, and what a prune deletes is what it is for. -/

namespace Chronos.Pruning

open Interleaving KeyValue Discipline List

variable {w : RequestTable} {call : RequestStoreCall} {t : RequestTxn}
  {tk rid : String} {record previous : RequestRecord}

section

lemma indexed_commit (hinv : CleanupInv w) (hnodup : (t.writes.map Write.key).Nodup)
    (hput : ∀ x ∈ t.writes, ∀ tk rid record, x.key = requestKey tk rid →
      x.value = some (.record record) →
        record.state = .completed → record.updatedAtMs < 2 ^ 64 ∧
          ⟨requestCleanupIndexKey record.updatedAtMs tk rid,
            some (.index (requestCleanupIndexEntry tk rid record))⟩ ∈ t.writes)
    (hkeep : ∀ e ∈ w.entries, (∀ x ∈ t.writes, e.key ≠ x.key) →
      ∀ tk rid record, Completed tk rid record e → ∀ x ∈ t.writes,
          requestCleanupIndexKey record.updatedAtMs tk rid ≠ x.key) :
    Indexed (w.commit t) := by
  intro e he tk rid record hcompleted
  rcases (Table.mem_commit hinv.sound hnodup).mp he with ⟨x, hx, hkey, hval, hrev⟩ | ⟨hold, hother⟩
  · obtain ⟨hfits, hidx⟩ := hput x hx tk rid record (hkey ▸ hcompleted.key)
      (hcompleted.value ▸ hval) hcompleted.state
    exact ⟨hfits, (Table.mem_commit hinv.sound hnodup).mpr (.inl ⟨_, hidx, rfl, rfl, hrev⟩)⟩
  · obtain ⟨hfits, hidx⟩ := hinv.indexed e hold tk rid record hcompleted
    exact ⟨hfits, (Table.mem_commit hinv.sound hnodup).mpr (.inr ⟨hidx,
      hkeep e hold hother tk rid record hcompleted⟩)⟩

def Own (timelineKey clientRequestId : String) (t : RequestTxn) : Prop :=
  ∀ x ∈ t.writes, Foreign x.key ∨
    (∃ y ∈ t.writes, y.key = requestKey timelineKey clientRequestId) ∧
      (x.key = requestKey timelineKey clientRequestId ∨
        ∃ ms, x.key = requestCleanupIndexKey ms timelineKey clientRequestId)

lemma Own.keep (h : Own tk rid t) {e : RequestEntry}
    (hother : ∀ x ∈ t.writes, e.key ≠ x.key) {tk' rid' : String}
    (hcompleted : Completed tk' rid' record e) (x : RequestWrite)
    (hx : x ∈ t.writes) :
    requestCleanupIndexKey record.updatedAtMs tk' rid' ≠ x.key := by
  intro heq
  rcases h x hx with hforeign | ⟨⟨y, hy, hrecord⟩, hkey | ⟨ms, hkey⟩⟩
  · exact hforeign.2 _ _ _ heq.symm
  · exact requestKey_ne_indexKey _ _ _ _ _ (hkey.symm.trans heq.symm)
  -- the index entry would be one of this request, whose record is written
  obtain ⟨rfl, rfl⟩ := indexKey_inj (heq.trans hkey)
  exact hother y hy (hcompleted.key.trans hrecord.symm)

lemma mem_indexPutOp (hst : record.state = .completed) :
    ⟨requestCleanupIndexKey record.updatedAtMs tk rid,
      some (.index (requestCleanupIndexEntry tk rid record))⟩ ∈
        (requestCleanupIndexPutOp tk rid record).toList := by
  simp [requestCleanupIndexPutOp, requestRecordIsPrunableCandidate, hst]

variable {x : RequestWrite} {legacy : Bool} {rev : Nat}
  {idxEntry : RequestRecordCleanupIndexEntry} {found : Option (RequestRecord × Nat)}

lemma key_of_mem_indexPutOp (h : x ∈ (requestCleanupIndexPutOp tk rid record).toList) :
    x.key = requestCleanupIndexKey record.updatedAtMs tk rid := by
  unfold requestCleanupIndexPutOp at h
  split_ifs at h
  · rw [← Option.some.inj (Option.mem_toList.mp h)]
  · cases h

lemma value_of_mem_indexPutOp (h : x ∈ (requestCleanupIndexPutOp tk rid record).toList)
    (record' : RequestRecord) : x.value ≠ some (.record record') := by
  unfold requestCleanupIndexPutOp at h
  split_ifs at h
  · rw [← Option.some.inj (Option.mem_toList.mp h)]
    intro hval
    cases hval
  · cases h

lemma of_mem_indexDeleteOp (h : x ∈ (indexDeleteOp tk rid legacy previous).toList) :
    x.value = none ∧ (Foreign x.key ∨ legacy = false ∧
      x.key = requestCleanupIndexKey previous.updatedAtMs tk rid) := by
  cases legacy with
  | true =>
    have hop : indexDeleteOp tk rid true previous = legacyRequestCleanupIndexDeleteOp tk rid
        previous := rfl
    rw [hop, legacyRequestCleanupIndexDeleteOp] at h
    split_ifs at h
    · cases Option.mem_toList.mp h
      exact ⟨rfl, .inl (foreign_legacyIndexKey _ _ _)⟩
    · cases h
  | false =>
    have hop : indexDeleteOp tk rid false previous = requestCleanupIndexDeleteOp tk rid previous :=
      rfl
    rw [hop, requestCleanupIndexDeleteOp] at h
    split_ifs at h
    · cases Option.mem_toList.mp h
      exact ⟨rfl, .inr ⟨rfl, rfl⟩⟩
    · cases h

lemma Own.tidy (hown : Own tk rid t) (hinv : CleanupInv w)
    (hnodup : (t.writes.map Write.key).Nodup) (hcall : ∀ record, call.MayDelete record)
    (hput : ∀ x ∈ t.writes, ∀ record, x.value = some (.record record) → x.key = requestKey tk rid ∧
        (record.state = .completed → record.updatedAtMs < 2 ^ 64 ∧
          ⟨requestCleanupIndexKey record.updatedAtMs tk rid,
            some (.index (requestCleanupIndexEntry tk rid record))⟩ ∈ t.writes)) :
              Tidy call t w := by
  refine ⟨indexed_commit hinv hnodup ?_ ?_, fun _ _ _ _ _ _ record _ => hcall record⟩
  · intro x hx tk' rid' record hkey hval hst
    obtain ⟨hkey', hidx⟩ := hput x hx record hval
    obtain ⟨rfl, rfl⟩ := requestKey_inj (hkey.symm.trans hkey')
    exact hidx hst
  · exact fun e _ hother _ _ _ hcompleted => hown.keep hother hcompleted

lemma tidy_createTxn (hinv : CleanupInv w) (hcall : ∀ record, call.MayDelete record)
    (hfits : record.updatedAtMs < 2 ^ 64)
    (hnodup : ((createTxn tk rid record).writes.map Write.key).Nodup) :
    Tidy call (createTxn tk rid record) w := by
  have hrecord : ⟨requestKey tk rid, some (.record record)⟩ ∈
      (createTxn tk rid record).writes := mem_cons_self
  have hown : Own tk rid (createTxn tk rid record) := by
    intro x hx
    refine .inr ⟨⟨_, hrecord, rfl⟩, ?_⟩
    rcases mem_cons.mp hx with rfl | hx
    · exact .inl rfl
    · exact .inr ⟨_, key_of_mem_indexPutOp hx⟩
  refine hown.tidy hinv hnodup hcall fun x hx record' hval => ?_
  rcases mem_cons.mp hx with rfl | hx
  · cases hval
    exact ⟨rfl, fun hst => ⟨hfits, mem_cons_of_mem _ (mem_indexPutOp hst)⟩⟩
  · exact absurd hval (value_of_mem_indexPutOp hx record')

lemma exchangeTxn_cases (hx : x ∈ (exchangeTxn tk rid legacy rev previous record).writes) :
    x = ⟨requestKey tk rid, some (.record record)⟩ ∨
      (∀ record', x.value ≠ some (.record record')) ∧ (Foreign x.key ∨
        ∃ ms, x.key = requestCleanupIndexKey ms tk rid) := by
  rcases mem_cons.mp hx with rfl | hx
  · exact .inl rfl
  refine .inr ?_
  rcases mem_append.mp hx with hx | hput
  · rcases mem_append.mp hx with hdel | hmoved
    · obtain ⟨hval, hkey⟩ := of_mem_indexDeleteOp hdel
      refine ⟨fun _ hrecord => ?_, hkey.imp_right fun hkey => ⟨_, hkey.2⟩⟩
      cases hval.symm.trans hrecord
    cases legacy with
    | false => cases hmoved
    | true =>
      obtain rfl := mem_singleton.mp hmoved
      exact ⟨fun _ hrecord => (by cases hrecord), .inl (foreign_legacyRequestKey _ _)⟩
  · exact ⟨value_of_mem_indexPutOp hput, .inr ⟨_, key_of_mem_indexPutOp hput⟩⟩

lemma tidy_exchangeTxn (hinv : CleanupInv w)
    (hcall : ∀ record, call.MayDelete record) (hfits : record.updatedAtMs < 2 ^ 64)
    (hnodup : ((exchangeTxn tk rid legacy rev previous record).writes.map Write.key).Nodup) :
    Tidy call (exchangeTxn tk rid legacy rev previous record) w := by
  have hrecord : ⟨requestKey tk rid, some (.record record)⟩ ∈
      (exchangeTxn tk rid legacy rev previous record).writes :=
    mem_cons_self
  have hown : Own tk rid (exchangeTxn tk rid legacy rev previous record) := by
    intro x hx
    rcases exchangeTxn_cases hx with rfl | ⟨-, hforeign | hidx⟩
    · exact .inr ⟨⟨_, hrecord, rfl⟩, .inl rfl⟩
    · exact .inl hforeign
    · exact .inr ⟨⟨_, hrecord, rfl⟩, .inr hidx⟩
  refine hown.tidy hinv hnodup hcall fun x hx record' hval => ?_
  rcases exchangeTxn_cases hx with rfl | ⟨hother, -⟩
  · cases hval
    exact ⟨rfl, fun hst => ⟨hfits, mem_cons_of_mem _
      (mem_append_right _ (mem_indexPutOp hst))⟩⟩
  · exact absurd hval (hother record')

lemma tidy_deleteTxn (hinv : CleanupInv w) (hcall : ∀ record, call.MayDelete record)
    (hnodup : ((deleteTxn tk rid legacy rev previous).writes.map Write.key).Nodup) :
    Tidy call (deleteTxn tk rid legacy rev previous) w := by
  have hdeletes : ∀ x ∈ (deleteTxn tk rid legacy rev previous).writes, x.value = none := by
    intro x hx
    rcases mem_cons.mp hx with rfl | hx
    · rfl
    · exact (of_mem_indexDeleteOp hx).1
  have hown : Own tk rid (deleteTxn tk rid legacy rev previous) := by
    intro x hx
    cases legacy with
    | true =>
      rcases mem_cons.mp hx with rfl | hx
      · exact .inl (foreign_legacyRequestKey _ _)
      · exact .inl ((of_mem_indexDeleteOp hx).2.resolve_right fun h => by cases h.1)
    | false =>
      have hrecord : ∃ y ∈ (deleteTxn tk rid false rev previous).writes,
          y.key = requestKey tk rid :=
        ⟨_, mem_cons_self, rfl⟩
      rcases mem_cons.mp hx with rfl | hx
      · exact .inr ⟨hrecord, .inl rfl⟩
      · exact (of_mem_indexDeleteOp hx).2.imp_right fun hkey => ⟨hrecord, .inr ⟨_, hkey.2⟩⟩
  refine hown.tidy hinv hnodup hcall fun x hx record' hval => ?_
  cases (hdeletes x hx).symm.trans hval

variable {kv e : RequestEntry} {old limit pages r r' : Nat} {stop : String}

lemma kv_of_mem (hinv : CleanupInv w) (hread : Table.Read kv.key (some kv) r w)
    (hrev : w.modRevision kv.key = kv.modRevision) (he : e ∈ w.entries)
    (hkey : e.key = kv.key) : e = kv :=
  hinv.sound.ordered.eq_of_key_eq he (hread.mem hinv.sound hrev) hkey

lemma record_of_indexKey (hinv : CleanupInv w) (hread : Table.Read kv.key (some kv) r w)
    (hval : kv.value = .index idxEntry) (hrev : w.modRevision kv.key = kv.modRevision)
    (he : e ∈ w.entries) (hcompleted : Completed tk rid record e)
    (hkey : requestCleanupIndexKey record.updatedAtMs tk rid = kv.key) :
    idxEntry = requestCleanupIndexEntry tk rid record ∧
      e.modRevision = kv.modRevision ∧ record.updatedAtMs < 2 ^ 64 := by
  obtain ⟨hfits, hidx⟩ := hinv.indexed e he tk rid record hcompleted
  have hsame := kv_of_mem hinv hread hrev hidx hkey
  rw [← hsame] at hval ⊢
  exact ⟨(RequestValue.index.inj hval).symm, rfl, hfits⟩

def currentEntry (timelineKey clientRequestId : String) :
    Option (RequestRecord × Nat) → Option RequestEntry
  | some (record, revision) =>
    if isLegacyRevision revision then none
    else some ⟨requestKey timelineKey clientRequestId, .record record, revision⟩
  | none => none

lemma currentEntry_eq_some (h : currentEntry tk rid found = some e) :
    ∃ record rev, found = some (record, rev) ∧ ¬ isLegacyRevision rev ∧
      e = ⟨requestKey tk rid, .record record, rev⟩ := by
  unfold currentEntry at h
  split at h
  · next record rev =>
    split_ifs at h with hlegacy
    exact ⟨record, rev, rfl, hlegacy, (Option.some.inj h).symm⟩
  · cases h

def Stale (olderThanMs : Nat) (indexEntry : RequestRecordCleanupIndexEntry)
    (found : Option (RequestRecord × Nat)) : Prop :=
  ∀ record revision, found = some (record, revision) → isLegacyRevision revision ∨
    record.updatedAtMs ≠ indexEntry.updatedAtMs ∨ ¬ requestRecordIsPrunable record olderThanMs

lemma tidy_jsonDelete (hinv : CleanupInv w) (hread : Table.Read kv.key (some kv) r w)
    (hidx : w.modRevision kv.key = kv.modRevision → ∀ e ∈ w.entries,
      ∀ tk rid record, Completed tk rid record e →
      requestCleanupIndexKey record.updatedAtMs tk rid ≠ kv.key)
    (hdeleted : ∀ record, kv.value = .record record → call.MayDelete record)
    (hadmits : w.admits (deleteJsonTxn kv.key kv.modRevision) = true) :
    Tidy call (deleteJsonTxn kv.key kv.modRevision) w := by
  have hrev := Table.admits_iff.mp hadmits _ (mem_singleton_self _)
  refine ⟨indexed_commit hinv (nodup_singleton _) ?_ ?_, ?_⟩
  · intro x hx _ _ _ _ hput
    obtain rfl := mem_singleton.mp hx
    cases hput
  · intro e he _ tk rid record hcompleted x hx
    obtain rfl := mem_singleton.mp hx
    exact hidx hrev e he tk rid record hcompleted
  intro x hx _ e he hkey record hrecord
  obtain rfl := mem_singleton.mp hx
  rw [kv_of_mem hinv hread hrev he hkey] at hrecord
  exact hdeleted record hrecord

lemma prunable_iff : requestRecordIsPrunable record old = true ↔
    record.state = .completed ∧ record.updatedAtMs < old := by
  simp [requestRecordIsPrunable, requestRecordIsPrunableCandidate]

lemma tidy_staleDelete (hinv : CleanupInv w) (holder : old < 2 ^ 64)
    (hread : Table.Read kv.key (some kv) r w) (hval : kv.value = .index idxEntry)
    (hcutoff : kv.key < requestCleanupIndexCutoff old) (hle : r ≤ r')
    (hload : Table.Read (requestKey idxEntry.timelineKey idxEntry.clientRequestId)
      (currentEntry idxEntry.timelineKey idxEntry.clientRequestId found) r' w)
    (hstale : Stale old idxEntry found)
    (hadmits : w.admits (deleteJsonTxn kv.key kv.modRevision) = true) :
    Tidy call (deleteJsonTxn kv.key kv.modRevision) w := by
  refine tidy_jsonDelete hinv hread ?_ (fun record hrecord => ?_) hadmits
  · intro hrev e he tk rid record hcompleted hkey
    obtain ⟨rfl, hwritten, hfits⟩ := record_of_indexKey hinv hread hval hrev he hcompleted hkey
    -- the load came after the entry was listed, so it has shown this very record
    have hold : e.modRevision ≤ r' := hwritten ▸ (hread.old kv rfl).2.2.trans hle
    have hshown := hload.same e he hcompleted.key hold
    obtain ⟨record', rev, hfound, hlegacy, rfl⟩ := currentEntry_eq_some hshown
    obtain rfl : record' = record := RequestValue.record.inj hcompleted.value
    rcases hstale record' rev hfound with h | h | h
    · exact hlegacy h
    · exact h rfl
    · have hbefore := (indexKey_lt_cutoff hfits holder).mp (hkey ▸ hcutoff)
      exact h (prunable_iff.mpr ⟨hcompleted.state, hbefore⟩)
  · cases hval.symm.trans hrecord

lemma tidy_recordDelete (hinv : CleanupInv w) (hread : Table.Read kv.key (some kv) r w)
    (hval : kv.value = .record record)
    (hprunable : requestRecordIsPrunable record old = true)
    (hadmits : w.admits (deleteJsonTxn kv.key kv.modRevision) = true) :
    Tidy (.prune old limit pages) (deleteJsonTxn kv.key kv.modRevision) w := by
  refine tidy_jsonDelete hinv hread ?_ (fun record' hrecord => ?_) hadmits
  · intro hrev e he tk rid record' hcompleted hkey
    -- an index entry is not a record
    have hidx := (hinv.indexed e he tk rid record' hcompleted).2
    have hsame := kv_of_mem hinv hread hrev hidx hkey
    rw [← hsame] at hval
    cases hval
  · rw [hval] at hrecord
    exact RequestValue.record.inj hrecord ▸ prunable_iff.mp hprunable

lemma tidy_pruneTxn (reqEntry : RequestEntry) (hinv : CleanupInv w)
    (hread : Table.Read kv.key (some kv) r w)
    (hval : kv.value = .index idxEntry)
    (hload : Table.Read reqEntry.key (some reqEntry) r' w)
    (hrecord : reqEntry.value = .record record)
    (hprunable : requestRecordIsPrunable record old = true)
    (hleads : ∀ ms tk rid, kv.key = requestCleanupIndexKey ms tk rid →
        idxEntry.timelineKey = tk → idxEntry.clientRequestId = rid →
        reqEntry.key = requestKey tk rid)
    (hnodup : ((pruneTxn reqEntry.key reqEntry.modRevision kv).writes.map Write.key).Nodup)
    (hadmits : w.admits (pruneTxn reqEntry.key reqEntry.modRevision kv) = true) :
    Tidy (.prune old limit pages) (pruneTxn reqEntry.key reqEntry.modRevision kv) w := by
  have hcompares := Table.admits_iff.mp hadmits
  have hreq := hcompares _ mem_cons_self
  have hrev := hcompares _ (mem_cons_of_mem _ mem_cons_self)
  have hwrites : ∀ x ∈ (pruneTxn reqEntry.key reqEntry.modRevision kv).writes,
      x = ⟨reqEntry.key, none⟩ ∨ x = ⟨kv.key, none⟩ := by
    intro x hx
    simpa [pruneTxn] using hx
  refine ⟨indexed_commit hinv hnodup ?_ ?_, ?_⟩
  · intro x hx _ _ _ _ hput
    rcases hwrites x hx with rfl | rfl
    all_goals cases hput
  · intro e he hother tk rid record' hcompleted x hx hkey
    have hidx := (hinv.indexed e he tk rid record' hcompleted).2
    rcases hwrites x hx with rfl | rfl
    · have hsame := kv_of_mem hinv hload hreq hidx hkey
      rw [← hsame] at hrecord
      cases hrecord
    obtain ⟨rfl, -, -⟩ := record_of_indexKey hinv hread hval hrev he hcompleted hkey
    have hdeleted := hleads _ _ _ hkey.symm rfl rfl
    exact hother _ mem_cons_self (hcompleted.key.trans hdeleted.symm)
  · intro x hx _ e he hkey record' hval'
    rcases hwrites x hx with rfl | rfl
    · rw [kv_of_mem hinv hload hreq he hkey, hrecord] at hval'
      exact RequestValue.record.inj hval' ▸ prunable_iff.mp hprunable
    · rw [kv_of_mem hinv hread hrev he hkey, hval] at hval'
      cases hval'

lemma tidy_legacyStaleDelete (hinv : CleanupInv w) (hread : Table.Read kv.key (some kv) r w)
    (hval : kv.value = .index idxEntry)
    (hcutoff : kv.key < legacyRequestCleanupIndexCutoff old)
    (hadmits : w.admits (deleteJsonTxn kv.key kv.modRevision) = true) :
    Tidy call (deleteJsonTxn kv.key kv.modRevision) w := by
  refine tidy_jsonDelete hinv hread ?_ (fun record hrecord => ?_) hadmits
  · intro _ e _ tk rid record _ hkey
    exact ne_indexKey_of_lt_legacyCutoff hcutoff _ _ _ hkey.symm
  · cases hval.symm.trans hrecord

end

section

variable {key opLabel ctx txnCtx scanCtx start stop : String}
  {rev fetchLimit : Nat} {α : Type}

abbrev CleanupKept (call : RequestStoreCall) (prog : CleanupProg α) (w : RequestTable) : Prop :=
  CleanupSafe call prog (fun _ _ => True) w

lemma kept_pure (x : α) : CleanupKept call (pure x) w := safe_done

def asEntry (key : String) (found : Option (RequestRecord × Nat)) : Option RequestEntry :=
  found.map fun x => ⟨key, .record x.1, x.2⟩

lemma value_of_decodeRecord {e : RequestEntry} (h : decodeRecord ctx e = .ok record) :
    e.value = .record record := by
  unfold decodeRecord at h
  split at h
  · next hval => exact Except.ok.inj h ▸ hval
  · cases h

lemma safe_getJsonRecord (hinv : CleanupInv w) : CleanupSafe call (getJsonRecord opLabel ctx key)
      (fun found w1 => Found key (asEntry key found) w.revision w1) w := by
  have hget : CleanupSafe call (orInternal ("Etcd " ++ opLabel ++ " failed") (etcdGet key))
      (fun found w1 => Found key found w.revision w1) w :=
    safe_orInternal hinv (fun _ _ _ hle h => h.mono hle) (safe_etcdGet hinv)
  refine safe_bind hinv hget fun found w1 _ hinv1 hfound => ?_
  cases found with
  | none => exact safe_pure fun w2 hle => hfound.mono hle
  | some e =>
    refine safe_ofExcept_bind hinv1 fun record w2 hle2 _ hdecoded => safe_pure fun w3 hle3 => ?_
    obtain ⟨r, hr, hread⟩ := hfound.mono (hle2.trans hle3)
    have hkey : e.key = key := (hread.old e rfl).1
    have hval : e.value = .record record := value_of_decodeRecord hdecoded
    have hentry : (⟨key, .record record, e.modRevision⟩ : RequestEntry) = e := by
      rw [← hkey, ← hval]
    exact ⟨r, hr, by rw [asEntry, Option.map_some, hentry]; exact hread⟩

lemma safe_loadRequestRecord (hinv : CleanupInv w) : CleanupSafe call (loadRequestRecord tk rid)
      (fun found w1 => Found (requestKey tk rid) (currentEntry tk rid found) w.revision w1) w := by
  refine safe_bind hinv (safe_getJsonRecord hinv) fun found w1 _ hinv1 hfound => ?_
  cases found with
  | some x =>
    obtain ⟨record, rev⟩ := x
    refine safe_ofExcept_bind hinv1 fun _ w2 hle2 hinv2 _ => safe_pure fun w3 hle3 => ?_
    -- revisions of the store do not have the flag
    have hlegacy : ¬ isLegacyRevision rev := by
      obtain ⟨r, -, hread⟩ := hfound.mono hle2
      have hrev := (hread.old _ rfl).2.2.trans hread.bounded
      rw [isLegacyRevision_of_lt (hrev.trans_lt hinv2.signed)]
      exact Bool.false_ne_true
    rw [currentEntry, if_neg hlegacy]
    exact hfound.mono (hle2.trans hle3)
  | none =>
    dsimp only
    split
    · refine safe_bind hinv1 (safe_getJsonRecord hinv1) fun legacyFound w2 hle2 hinv2 _ => ?_
      cases legacyFound with
      | none => exact safe_pure fun w3 hle3 => hfound.mono (hle2.trans hle3)
      | some x =>
        refine safe_ofExcept_bind hinv2 fun _ w3 hle3 _ _ => safe_pure fun w4 hle4 => ?_
        rw [currentEntry, if_pos isLegacyRevision_flag]
        exact hfound.mono ((hle2.trans hle3).trans hle4)
    · exact safe_pure fun w2 hle2 => hfound.mono hle2

lemma kept_createRequestRecord (hinv : CleanupInv w) (hcall : ∀ record, call.MayDelete record)
    (hfits : record.updatedAtMs < 2 ^ 64) :
    CleanupKept call (createRequestRecord tk rid record) w := by
  refine safe_ofExcept_bind hinv fun _ w1 _ hinv1 _ => ?_
  refine safe_txn_bind hinv1 (fun w2 _ hinv2 hnodup _ => tidy_createTxn hinv2 hcall hfits hnodup)
    fun x w2 _ _ => ?_
  cases x with
  | none => exact safe_fail
  | some rev => exact kept_pure rev

lemma kept_loadExpectedRecord (hinv : CleanupInv w) :
    CleanupKept call (loadExpectedRecord tk rid opLabel rev) w := by
  refine safe_bind hinv (safe_getJsonRecord hinv) fun found w1 _ hinv1 _ => ?_
  cases found with
  | none => exact safe_fail
  | some x =>
    dsimp only
    split_ifs
    · exact safe_fail
    · exact safe_ofExcept_bind hinv1 fun _ _ _ _ _ => kept_pure x.1

lemma kept_compareExchangeRequestRecord (hinv : CleanupInv w)
    (hcall : ∀ record, call.MayDelete record) (hfits : record.updatedAtMs < 2 ^ 64) :
    CleanupKept call (compareExchangeRequestRecord tk rid rev record) w := by
  refine safe_ofExcept_bind hinv fun _ w1 _ hinv1 _ => ?_
  refine safe_bind hinv1 (kept_loadExpectedRecord hinv1) fun previous w2 _ hinv2 _ => ?_
  refine safe_txn_bind hinv2 (fun w3 _ hinv3 hnodup _ => tidy_exchangeTxn hinv3 hcall hfits hnodup)
    fun x w3 _ _ => ?_
  cases x with
  | none => exact safe_fail
  | some rev => exact kept_pure rev

lemma kept_compareDeleteRequestRecord (hinv : CleanupInv w)
    (hcall : ∀ record, call.MayDelete record) :
    CleanupKept call (compareDeleteRequestRecord tk rid rev) w := by
  refine safe_bind hinv (kept_loadExpectedRecord hinv) fun previous w1 _ hinv1 _ => ?_
  refine safe_txn_bind hinv1 (fun w2 _ hinv2 hnodup _ => tidy_deleteTxn hinv2 hcall hnodup)
    fun x w2 _ _ => ?_
  cases x with
  | none => exact safe_fail
  | some rev => exact kept_pure ()

lemma kept_deleteUnlessChanged (hinv : CleanupInv w)
    (h : ∀ w1, w ≤ w1 → CleanupInv w1 → w1.admits (deleteJsonTxn key rev) = true →
      Tidy call (deleteJsonTxn key rev) w1) :
    CleanupKept call (deleteUnlessChanged txnCtx key rev) w := by
  have hdel : CleanupKept call (deleteJsonRecord txnCtx key rev) w := by
    refine safe_txn_bind hinv (fun w1 hle hinv1 _ => h w1 hle hinv1) fun x w1 _ _ => ?_
    cases x with
    | none => exact safe_fail
    | some rev => exact kept_pure ()
  refine safe_bind hinv (Safe.attempt hdel) fun out w1 _ _ _ => ?_
  split
  · exact kept_pure true
  · exact kept_pure false
  · exact safe_fail

variable {kvs : List RequestEntry} {limit pruned del : Nat} {candidates : List (String × Nat)}

lemma kept_pruneIndexPage {pruneEntry : RequestEntry → CleanupProg Bool}
    (hentry : ∀ kv w1, CleanupInv w1 → Listed stop kv w1 → CleanupKept call (pruneEntry kv) w1)
    (hinv : CleanupInv w)
    (hkvs : ∀ kv ∈ kvs, Listed stop kv w) :
    CleanupKept call (pruneIndexPage limit pruneEntry kvs pruned) w := by
  induction kvs generalizing w pruned with
  | nil => exact kept_pure _
  | cons kv rest ih =>
    unfold pruneIndexPage
    rw [forall_mem_cons] at hkvs
    split_ifs
    · exact kept_pure _
    · exact safe_bind hinv (hentry kv w hinv hkvs.1) fun deleted w1 hle1 hinv1 _ =>
        ih hinv1 fun kv hkv => (hkvs.2 kv hkv).mono hle1

lemma kept_prunePages {prunePage : List RequestEntry → Nat → CleanupProg Pruned}
    (hpage : ∀ kvs pruned w1, CleanupInv w1 → (∀ kv ∈ kvs, Listed stop kv w1) →
      CleanupKept call (prunePage kvs pruned) w1) {pages : Nat} (hinv : CleanupInv w) :
    CleanupKept call (prunePages scanCtx stop fetchLimit prunePage pages start pruned) w := by
  induction pages generalizing w start pruned with
  | zero => exact safe_fail
  | succ pages ih =>
    have hscan : CleanupSafe call (orInternal scanCtx (etcdRange start stop fetchLimit))
        (fun kvs w1 => ∀ kv ∈ kvs, Listed stop kv w1) w :=
      safe_orInternal hinv (fun _ _ _ hle h kv hkv => (h kv hkv).mono hle) (safe_etcdRange hinv)
    refine safe_bind hinv hscan fun kvs w1 _ hinv1 hkvs => ?_
    split
    · exact kept_pure _
    refine safe_bind hinv1 (hpage kvs pruned w1 hinv1 hkvs) fun after w2 _ hinv2 _ => ?_
    split_ifs
    · exact kept_pure _
    · exact ih hinv2

lemma value_of_decodeIndexEntry {kv : RequestEntry} {idxEntry : RequestRecordCleanupIndexEntry}
    (h : decodeIndexEntry ctx kv = .ok idxEntry) : kv.value = .index idxEntry := by
  unfold decodeIndexEntry at h
  split at h
  · next hval => exact Except.ok.inj h ▸ hval
  · cases h

variable {old pages : Nat} {kv : RequestEntry}

lemma kept_pruneIndexEntry (holder : old < 2 ^ 64) (hinv : CleanupInv w)
    (hlisted : Listed (requestCleanupIndexCutoff old) kv w) :
    CleanupKept (.prune old limit pages) (pruneIndexEntry old kv) w := by
  refine safe_ofExcept_bind hinv fun idxEntry w1 hle1 hinv1 hdecoded => ?_
  have hval := value_of_decodeIndexEntry hdecoded
  obtain ⟨hcutoff, r, hread⟩ := hlisted.mono hle1
  refine safe_bind hinv1 (safe_loadRequestRecord hinv1) fun found w2 hle2 hinv2 hfound => ?_
  obtain ⟨r', hr', hload⟩ := hfound
  have hread2 := hread.mono hle2
  have hstale : Stale old idxEntry found → ∀ txnCtx, CleanupKept (.prune old limit pages)
        (deleteUnlessChanged txnCtx kv.key kv.modRevision) w2 := by
    intro hstale txnCtx
    refine kept_deleteUnlessChanged hinv2 fun w3 hle3 hinv3 hadmits => ?_
    exact tidy_staleDelete hinv3 holder (hread2.mono hle3) hval hcutoff
      (hread.bounded.trans hr') (hload.mono hle3) hstale hadmits
  cases found with
  | none =>
    have hnone : Stale old idxEntry none := nofun
    exact safe_bind hinv2 (hstale hnone _) fun _ _ _ _ _ => kept_pure false
  | some x =>
    obtain ⟨record, reqRev⟩ := x
    dsimp only
    split_ifs with hskip
    · have hsome : Stale old idxEntry (some (record, reqRev)) := by
        intro record' rev' h
        cases h
        exact hskip
      exact safe_bind hinv2 (hstale hsome _) fun _ _ _ _ _ => kept_pure false
    · obtain ⟨hlegacy, hprunable⟩ := not_or.mp hskip
      rw [currentEntry, if_neg hlegacy] at hload
      refine safe_txn_bind hinv2 (fun w3 hle3 hinv3 hnodup hadmits => ?_)
        fun x _ _ _ => kept_pure x.isSome
      refine tidy_pruneTxn ⟨_, .record record, reqRev⟩ hinv3 (hread2.mono hle3)
        hval (hload.mono hle3) rfl (not_not.mp (not_or.mp hprunable).2) ?_ hnodup hadmits
      rintro _ _ _ - rfl rfl
      rfl

lemma kept_pruneLegacyIndexEntry (hinv : CleanupInv w)
    (hlisted : Listed (legacyRequestCleanupIndexCutoff old) kv w) :
    CleanupKept (.prune old limit pages) (pruneLegacyIndexEntry old kv) w := by
  refine safe_ofExcept_bind hinv fun idxEntry w1 hle1 hinv1 hdecoded => ?_
  have hval := value_of_decodeIndexEntry hdecoded
  obtain ⟨hcutoff, r, hread⟩ := hlisted.mono hle1
  have hstale : ∀ w2, w1 ≤ w2 → CleanupInv w2 → ∀ txnCtx, CleanupKept (.prune old limit pages)
        (deleteUnlessChanged txnCtx kv.key kv.modRevision) w2 := by
    intro w2 hle2 hinv2 txnCtx
    refine kept_deleteUnlessChanged hinv2 fun w3 hle3 hinv3 hadmits => ?_
    exact tidy_legacyStaleDelete hinv3 (hread.mono (hle2.trans hle3)) hval hcutoff hadmits
  refine safe_bind hinv1 (safe_getJsonRecord hinv1) fun found w2 hle2 hinv2 hfound => ?_
  obtain ⟨r', -, hload⟩ := hfound
  cases found with
  | none => exact safe_bind hinv2 (hstale w2 hle2 hinv2 _) fun _ _ _ _ _ => kept_pure false
  | some x =>
    obtain ⟨record, reqRev⟩ := x
    refine safe_ofExcept_bind hinv2 fun _ w3 hle3 hinv3 _ => ?_
    split_ifs with hskip
    · exact safe_bind hinv3 (hstale w3 (hle2.trans hle3) hinv3 _) fun _ _ _ _ _ => kept_pure false
    refine safe_txn_bind hinv3 (fun w4 hle4 hinv4 hnodup hadmits => ?_)
      fun x _ _ _ => kept_pure x.isSome
    refine tidy_pruneTxn ⟨_, .record record, reqRev⟩ hinv4
      (hread.mono ((hle2.trans hle3).trans hle4)) hval (hload.mono (hle3.trans hle4)) rfl
      (not_not.mp (not_or.mp hskip).2) ?_ hnodup hadmits
    intro _ _ _ hkey
    exact absurd hkey (ne_indexKey_of_lt_legacyCutoff hcutoff _ _ _)

def Candidate (olderThanMs : Nat) (kvs : List RequestEntry) (x : String × Nat) : Prop :=
  ∃ kv ∈ kvs, ∃ record, x = (kv.key, kv.modRevision) ∧ kv.value = .record record ∧
    requestRecordIsPrunable record olderThanMs = true

lemma candidate_of_pruneCandidate {x : String × Nat}
    (h : pruneCandidate old ctx kv = .ok (some x)) : Candidate old [kv] x := by
  obtain ⟨record, hdecoded, h⟩ := except_bind_eq_ok h
  obtain ⟨_, -, h⟩ := except_bind_eq_ok h
  split_ifs at h with hprunable
  · exact ⟨kv, mem_singleton_self kv, record, (Option.some.inj (Except.ok.inj h)).symm,
      value_of_decodeRecord hdecoded, hprunable⟩
  · cases h

lemma candidate_of_mem (h : pruneCandidates old ctx kvs = .ok candidates) :
    ∀ x ∈ candidates, Candidate old kvs x := by
  induction kvs generalizing candidates with
  | nil =>
    cases h
    exact nofun
  | cons kv rest ih =>
    obtain ⟨candidate, hcandidate, h⟩ := except_bind_eq_ok h
    obtain ⟨others, hothers, h⟩ := except_bind_eq_ok h
    cases h
    intro x hx
    rcases mem_append.mp hx with hx | hx
    · rw [Option.mem_toList.mp hx] at hcandidate
      obtain ⟨_, hkv, hrecord⟩ := candidate_of_pruneCandidate hcandidate
      exact ⟨kv, mem_cons_self, mem_singleton.mp hkv ▸ hrecord⟩
    · obtain ⟨kv', hkv', hrecord⟩ := ih hothers x hx
      exact ⟨kv', mem_cons_of_mem kv hkv', hrecord⟩

lemma kept_pruneRecords (hinv : CleanupInv w) (hkvs : ∀ kv ∈ kvs, Listed stop kv w)
    (hcandidates : ∀ x ∈ candidates, Candidate old kvs x) :
    CleanupKept (.prune old limit pages) (pruneRecords del txnCtx candidates pruned) w := by
  induction candidates generalizing w pruned with
  | nil => exact kept_pure _
  | cons x rest ih =>
    rw [forall_mem_cons] at hcandidates
    obtain ⟨kv, hkv, record, rfl, hval, hprunable⟩ := hcandidates.1
    have hdel : CleanupKept (.prune old limit pages)
        (deleteUnlessChanged txnCtx kv.key kv.modRevision) w := by
      refine kept_deleteUnlessChanged hinv fun w1 hle1 hinv1 hadmits => ?_
      obtain ⟨-, r, hread⟩ := (hkvs kv hkv).mono hle1
      exact tidy_recordDelete hinv1 hread hval hprunable hadmits
    refine safe_bind hinv hdel fun deleted w1 hle1 hinv1 _ => ?_
    have hlater : ∀ kv ∈ kvs, Listed stop kv w1 := fun kv hkv => (hkvs kv hkv).mono hle1
    split_ifs
    · exact kept_pure _
    · exact ih hinv1 hlater hcandidates.2
    · exact ih hinv1 hlater hcandidates.2

lemma kept_pruneRecordPage (kvs : List RequestEntry) (pruned : Nat)
    (w : RequestTable) (hinv : CleanupInv w) (hkvs : ∀ kv ∈ kvs, Listed stop kv w) :
    CleanupKept (.prune old limit pages) (pruneRecordPage old del ctx txnCtx kvs pruned) w :=
  safe_ofExcept_bind hinv fun _ _ hle1 hinv1 hcandidates =>
    kept_pruneRecords hinv1 (fun kv hkv => (hkvs kv hkv).mono hle1) (candidate_of_mem hcandidates)

lemma kept_pruneLegacyCompletedRequestRecords {rounds : Nat} (hinv : CleanupInv w) :
    CleanupKept (.prune old limit pages) (pruneLegacyCompletedRequestRecords old del rounds) w := by
  unfold pruneLegacyCompletedRequestRecords
  split_ifs
  · exact kept_pure 0
  refine safe_bind hinv (kept_prunePages (fun kvs pruned w1 hinv1 hkvs =>
    kept_pruneIndexPage (fun kv w2 hinv2 => kept_pruneLegacyIndexEntry hinv2) hinv1 hkvs) hinv)
    fun indexed w1 _ hinv1 _ => ?_
  split_ifs
  · exact kept_pure _
  · exact safe_bind hinv1 (kept_prunePages kept_pruneRecordPage hinv1) fun scanned _ _ _ _ =>
      kept_pure scanned.count

lemma kept_pruneCompletedRequestRecords (holder : old < 2 ^ 64) (hinv : CleanupInv w) :
    CleanupKept (.prune old limit pages) (pruneCompletedRequestRecords old limit pages) w := by
  unfold pruneCompletedRequestRecords
  split_ifs
  · exact kept_pure 0
  refine safe_bind hinv (kept_prunePages (fun kvs pruned w1 hinv1 hkvs =>
    kept_pruneIndexPage (fun kv w2 hinv2 => kept_pruneIndexEntry holder hinv2) hinv1 hkvs) hinv)
    fun indexed w1 _ hinv1 _ => ?_
  split_ifs
  · exact kept_pure _
  refine safe_bind hinv1 (kept_prunePages kept_pruneRecordPage hinv1) fun scanned w2 _ hinv2 _ => ?_
  split_ifs
  · exact kept_pure _
  · exact safe_bind hinv2 (kept_pruneLegacyCompletedRequestRecords hinv2) fun legacy _ _ _ _ =>
      kept_pure (scanned.count + legacy)
  · exact kept_pure _

lemma kept_prog (hfits : call.Fits) (hinv : CleanupInv w) : CleanupKept call call.prog w := by
  cases call with
  | load timelineKey clientRequestId =>
    exact safe_bind hinv (safe_loadRequestRecord hinv) fun _ _ _ _ _ => kept_pure ()
  | create timelineKey clientRequestId record =>
    exact safe_bind hinv (kept_createRequestRecord hinv (fun _ => trivial) hfits)
      fun _ _ _ _ _ => kept_pure ()
  | exchange timelineKey clientRequestId expected record =>
    exact safe_bind hinv (kept_compareExchangeRequestRecord hinv (fun _ => trivial) hfits)
      fun _ _ _ _ _ => kept_pure ()
  | delete timelineKey clientRequestId expected =>
    exact kept_compareDeleteRequestRecord hinv fun _ => trivial
  | prune olderThanMs limit pages =>
    exact safe_bind hinv (kept_pruneCompletedRequestRecords hfits hinv)
      fun _ _ _ _ _ => kept_pure ()

end

structure Fresh (w : RequestTable) : Prop where
  sound : w.Sound
  signed : w.revision < 2 ^ 63
  absent : ∀ e ∈ w.entries, ∀ timelineKey clientRequestId,
    e.key ≠ requestKey timelineKey clientRequestId

lemma Fresh.inv (h : Fresh w) : CleanupInv w where
  sound := h.sound
  signed := h.signed
  indexed e he tk rid _ hcompleted := absurd hcompleted.key (h.absent e he tk rid)

lemma holds_of_run {s : CleanupState} (hw : Fresh w) (hrun : CleanupRun w s) :
    cleanupDiscipline.Holds (fun _ => OnOk fun _ _ => True) s := by
  have hstart : cleanupDiscipline.Holds (fun _ => OnOk fun _ _ => True)
      (⟨w, []⟩ : CleanupState) := ⟨hw.inv, fun _ ht => absurd ht List.not_mem_nil⟩
  exact hstart.reach (fun call _ w1 hinv hfits => kept_prog hfits hinv) hrun

/-- From a table without current records, in every interleaving of calls: a record that a step of a
prune takes away is completed and from before the cutoff of the prune. Each completed record has its
entry in the cleanup index, under its time, so no step leaves one without. -/
theorem pruning_safe (w : RequestTable) (hw : Fresh w) (s : CleanupState) (hrun : CleanupRun w s) :
    (∀ i c s' olderThanMs limit pages prog,
      s.threads[i]? = some ⟨.prune olderThanMs limit pages, prog⟩ →
      step cleanupMachine (fun call (_ : Unit) => call.prog) s (.call i c) = some s' →
      ∀ e ∈ s.world.entries, ∀ record, e.value = .record record → s'.world.get e.key = none →
        record.state = .completed ∧ record.updatedAtMs < olderThanMs) ∧
    ∀ e ∈ s.world.entries, ∀ timelineKey clientRequestId record,
      Completed timelineKey clientRequestId record e →
        indexEntryOf timelineKey clientRequestId record e.modRevision ∈ s.world.entries := by
  have hholds := holds_of_run hw hrun
  have hinv : CleanupInv s.world := hholds.inv
  refine ⟨?_, fun e he _ _ _ hcompleted => (hinv.indexed e he _ _ _ hcompleted).2⟩
  intro i c s' olderThanMs limit pages prog hi hstep e he record hval hgone
  obtain ⟨call, o, k, r, w', hi', hexec, rfl⟩ := step_call hstep
  cases Option.some.inj (hi.symm.trans hi')
  rcases cleanupExec_cases (.prune olderThanMs limit pages) hexec with
    rfl | ⟨t, rfl, hnodup, hadmits, -, rfl⟩
  · exact absurd rfl (Table.get_eq_none.mp hgone e he)
  · obtain ⟨x, hx, hkey, hnone⟩ := Table.deleted_of_get_commit hinv.sound hnodup he hgone
    exact (hholds.allowed hi hnodup hadmits).deleted x hx hnone e he hkey.symm record hval

def CleanupOp.usual : CleanupOp → CleanupChoice
  | .retryAllowed => .flag false
  | _ => .done

def sampleRecord (state : RequestRecordState) (updatedAtMs : Nat) : RequestRecord where
  schemaVersion := 1
  fingerprint := ⟨"t", 1⟩
  state := state
  response := none
  updatedAtMs := updatedAtMs

/-- A record is created, completed at 7, and deleted by a prune with the cutoff 9. -/
theorem pruning_safe_sample : ∃ s s' : CleanupState, ∃ e ∈ s.world.entries, CleanupRun ⟨3, []⟩ s ∧
      step cleanupMachine (fun call (_ : Unit) => call.prog) s (.call 2 .done) = some s' ∧
      Completed "t" "a" (sampleRecord .completed 7) e ∧ s'.world.get e.key = none ∧
      (sampleRecord .completed 7).updatedAtMs < 9 ∧
      indexEntryOf "t" "a" (sampleRecord .completed 7) e.modRevision ∈ s.world.entries := by
  have hrun : (script cleanupMachine (fun call (_ : Unit) => call.prog) cleanupGuard CleanupOp.usual
      [.label (.spawn (.create "t" "a" (sampleRecord .pending 5)) ()), .drive 0 10,
        .label (.spawn (.exchange "t" "a" 4 (sampleRecord .completed 7)) ()), .drive 1 10,
        .label (.spawn (.prune 9 3 2) ()), .drive 2 2] (⟨⟨3, []⟩, []⟩ : CleanupState)).any
      (fun s => decide (⟨requestKey "t" "a", .record (sampleRecord .completed 7), 5⟩ ∈
          s.world.entries) &&
        (s.threads[2]?.any fun thread => thread.actor = .prune 9 3 2) &&
        (step cleanupMachine (fun call (_ : Unit) => call.prog) s (.call 2 .done)).any fun s' =>
          (s'.world.get (requestKey "t" "a")).isNone) = true := by
    decide +kernel
  obtain ⟨s, hs, hP⟩ := Reach.exists_of_script hrun
  simp only [Bool.and_eq_true, decide_eq_true_eq, Option.any_eq_true] at hP
  obtain ⟨⟨he, ⟨_, prog⟩, hthread, rfl⟩, s', hstep, hgone⟩ := hP
  have hfresh : Fresh ⟨3, []⟩ := ⟨⟨List.Pairwise.nil, by simp, by simp⟩, by decide, by simp⟩
  obtain ⟨hdeleted, hindexed⟩ := pruning_safe ⟨3, []⟩ hfresh s hs
  have hcompleted : Completed "t" "a" (sampleRecord .completed 7)
      ⟨requestKey "t" "a", .record (sampleRecord .completed 7), 5⟩ := ⟨rfl, rfl, rfl⟩
  have hnone := Option.isNone_iff_eq_none.mp hgone
  exact ⟨s, s', _, he, hs, hstep, hcompleted, hnone,
    (hdeleted 2 .done s' 9 3 2 prog hthread hstep _ he _ rfl hnone).2,
    hindexed _ he "t" "a" _ hcompleted⟩

end Chronos.Pruning
