import Chronos.Idempotency.Rules

/-! Agreement on the response of an idempotent request. Every attempt that succeeds has the
completed record of its request behind it, and that record never changes. -/

namespace Chronos

open Interleaving KeyValue Discipline

variable {s s' : RequestStore} {p : Nat} {tk rid : String}
  {record prev : RequestRecord} {revision fuel : Nat} {config : RequestConfig}
  {req : AllocateTimestampsRequest} {response : AllocateTimestampsResponse}

def Known (timelineKey clientRequestId : String) (record : RequestRecord) (revision : Nat)
    (s : RequestStore) : Prop :=
  s.Written ⟨timelineKey, clientRequestId, isLegacyRevision revision⟩ record
    (withoutLegacyFlag revision)

lemma Known.mono (h : Known tk rid record revision s) (hle : s ≤ s') :
    Known tk rid record revision s' :=
  written_mono h hle

lemma known_current (hlt : revision < 2 ^ 63) (h : s.Written (requestKey tk rid) record revision) :
    Known tk rid record revision s := by
  rw [Known, isLegacyRevision_of_lt hlt, withoutLegacyFlag_of_lt hlt]
  exact h

lemma known_legacy (hlt : revision < 2 ^ 63)
    (h : s.Written (legacyRequestKey tk rid) record revision) :
    Known tk rid record (revision ||| legacyRequestRevisionFlag) s := by
  rw [Known, isLegacyRevision_flag, withoutLegacyFlag_flag hlt]
  exact h

def Held (timelineKey clientRequestId : String) (record : RequestRecord) (revision : Nat)
    (s : RequestStore) : Prop :=
  Known timelineKey clientRequestId record revision s ∧
    (record.state = .completed → completedRequest s timelineKey clientRequestId = some record)

lemma Held.mono (h : Held tk rid record revision s) (hle : s ≤ s') :
    Held tk rid record revision s' :=
  ⟨h.1.mono hle, fun hst => hle.completed _ _ _ (h.2 hst)⟩

lemma held_current (hinv : RequestInv s)
    (hget : s.get (requestKey tk rid) = some (record, revision)) :
    Held tk rid record revision s :=
  ⟨known_current (hinv.revision_lt hget) (Store.written_of_get hget),
    fun hst => completedRequest_current hget hst⟩

def Loaded (timelineKey clientRequestId : String) (found : Option (RequestRecord × Nat))
    (s : RequestStore) : Prop :=
  ∀ record revision, found = some (record, revision) →
    Held timelineKey clientRequestId record revision s

def LegacyShows (timelineKey clientRequestId : String) (s : RequestStore) : Prop :=
  legacyRequestKeyIsUnambiguous timelineKey clientRequestId = true → ∀ record revision,
    s.get (legacyRequestKey timelineKey clientRequestId) = some (record, revision) →
      record.state = .completed → completedRequest s timelineKey clientRequestId = some record

lemma LegacyShows.mono (h : LegacyShows tk rid s) (hle : s ≤ s') : LegacyShows tk rid s' := by
  intro hplain record revision hget hst
  have hold := hle.legacy _ _ _ hget
  exact hle.completed _ _ _ (h hplain record revision hold hst)

lemma requestSafe_loadRequestRecord (hinv : RequestInv s) :
    RequestSafe p (loadRequestRecord tk rid) (Loaded tk rid) s := by
  have hcurrent : RequestSafe p (getJsonRecord "get_request" (requestKey tk rid))
      (fun found s1 => Loaded tk rid found s1 ∧ (found = none → LegacyShows tk rid s1)) s := by
    refine requestSafe_getJsonRecord hinv fun s1 _ hinv1 s2 hle2 => ⟨?_, fun hnone => ?_⟩
    · intro record revision hget
      exact (held_current hinv1 hget).mono hle2
    have hshows : LegacyShows tk rid s1 :=
      fun hplain record revision hget hst => completedRequest_legacy hnone hplain hget hst
    exact hshows.mono hle2
  refine requestSafe_bind hinv hcurrent fun found s1 _ hinv1 ⟨hload, hshows⟩ => ?_
  cases found with
  | some x =>
    obtain ⟨record, revision⟩ := x
    refine requestSafe_bind hinv1 (safe_ofExcept fun _ _ _ _ => trivial)
      fun _ s2 hle2 _ _ => safe_pure fun s3 hle3 => ?_
    intro record' rev' heq
    cases heq
    exact (hload record revision rfl).mono (hle2.trans hle3)
  | none =>
    dsimp only
    split
    · next hplain =>
      have hlegacy : RequestSafe p (getJsonRecord "get_legacy_request" (legacyRequestKey tk rid))
          (fun found s2 => ∀ record revision, found = some (record, revision) →
            Held tk rid record (revision ||| legacyRequestRevisionFlag) s2)
          s1 := by
        refine requestSafe_getJsonRecord hinv1 fun s2 hle2 hinv2 s3 hle3 => ?_
        intro record revision hget
        have hknown := known_legacy (hinv2.revision_lt hget) (Store.written_of_get hget)
        have hseen := ((hshows rfl).mono hle2) hplain record revision hget
        exact Held.mono ⟨hknown, hseen⟩ hle3
      refine requestSafe_bind hinv1 hlegacy fun found s2 _ hinv2 hfound => ?_
      cases found with
      | none => exact safe_pure fun _ _ => nofun
      | some x =>
        obtain ⟨record, revision⟩ := x
        refine requestSafe_bind hinv2 (safe_ofExcept fun _ _ _ _ => trivial)
          fun _ s3 hle3 _ _ => safe_pure fun s4 hle4 => ?_
        intro record' rev' heq
        cases heq
        exact (hfound record revision rfl).mono (hle3.trans hle4)
    · exact safe_pure fun _ _ => nofun

lemma held_put {t : Txn RequestKey RequestRecord} {rest : List (Write RequestKey RequestRecord)}
    (hwrites : t.writes = ⟨requestKey tk rid, some record⟩ :: rest)
    (hfits : s.revision + 1 < 2 ^ 63) :
    Held tk rid record (s.revision + 1) (s.commit t) := by
  have hget : (s.commit t).get (requestKey tk rid) = some (record, s.revision + 1) :=
    Store.get_commit_of_find (x := ⟨requestKey tk rid, some record⟩) (by simp [hwrites])
  exact ⟨known_current hfits (Store.written_of_get hget),
    fun hst => completedRequest_current hget hst⟩

lemma requestSafe_createRequestRecord (hinv : RequestInv s) :
    RequestSafe p (createRequestRecord tk rid record)
      (Held tk rid record.stampedForPersistence) s := by
  refine requestSafe_bind hinv (safe_ofExcept fun _ _ _ _ => trivial) fun _ s1 _ hinv1 _ => ?_
  refine requestSafe_bind hinv1 (requestSafe_etcdTxn hinv1 (fun _ _ _ hle h => h.mono hle)
    (fun s2 _ hinv2 hadmits => createRequestTxn_spares hinv2.sound hadmits)
    fun s2 _ hfits => held_put rfl hfits) fun r s2 _ _ hr => ?_
  cases r with
  | none => exact safe_fail
  | some n => exact safe_pure fun s3 hle => (hr n rfl).mono hle

lemma requestSafe_loadExpectedRecord {opLabel : String} (hinv : RequestInv s) :
    RequestSafe p (loadExpectedRecord tk rid opLabel revision) (fun _ _ => True) s := by
  refine requestSafe_bind hinv (requestSafe_getJsonRecord (Q := fun _ _ => True) hinv
    fun _ _ _ _ _ => trivial) fun found s1 _ _ _ => ?_
  cases found with
  | none => exact safe_fail
  | some x =>
    dsimp only
    split
    · exact safe_fail
    · exact safe_ofExcept fun _ _ _ _ => trivial

lemma requestSafe_compareExchangeRequestRecord (hinv : RequestInv s)
    (hknown : Known tk rid prev revision s)
    (hst : prev.state = .pending) :
    RequestSafe p (compareExchangeRequestRecord tk rid revision record)
      (Held tk rid record.stampedForPersistence) s := by
  refine requestSafe_bind hinv (safe_ofExcept fun _ _ _ _ => trivial) fun _ s1 hle1 hinv1 _ => ?_
  refine requestSafe_bind hinv1 (requestSafe_loadExpectedRecord hinv1) fun _ s2 hle2 hinv2 _ => ?_
  have hknown2 := hknown.mono (hle1.trans hle2)
  refine requestSafe_bind hinv2 (requestSafe_etcdTxn hinv2 (fun _ _ _ hle h => h.mono hle)
    (fun s3 hle3 hinv3 hadmits => exchangeRequestTxn_spares hinv3.sound
      (hknown2.mono hle3) hst hadmits)
    fun s3 _ hfits => held_put rfl hfits) fun r s3 _ _ hr => ?_
  cases r with
  | none => exact safe_fail
  | some n => exact safe_pure fun s4 hle => (hr n rfl).mono hle

lemma requestSafe_compareDeleteRequestRecord (hinv : RequestInv s)
    (hknown : Known tk rid prev revision s)
    (hst : prev.state = .pending) :
    RequestSafe p (compareDeleteRequestRecord tk rid revision) (fun _ _ => True) s := by
  refine requestSafe_bind hinv (requestSafe_loadExpectedRecord hinv) fun _ s1 hle1 hinv1 _ => ?_
  have hknown1 := hknown.mono hle1
  refine requestSafe_bind hinv1 (requestSafe_etcdTxn hinv1 (fun _ _ _ _ _ => trivial)
    (fun s2 hle2 hinv2 hadmits => deleteRequestTxn_spares hinv2.sound
      (hknown1.mono hle2) hst hadmits)
    fun _ _ _ => trivial) fun r _ _ _ _ => ?_
  cases r with
  | none => exact safe_fail
  | some n => exact safe_done

def Agreed (request : AllocateTimestampsRequest) (response : AllocateTimestampsResponse)
    (s : RequestStore) : Prop :=
  ∃ record, completedRequest s request.timelineKey request.clientRequestId = some record ∧
    record.fingerprint.count = request.count ∧
    record.completedResponse request.timelineKey = .ok (some response)

lemma Agreed.mono (h : Agreed req response s) (hle : s ≤ s') : Agreed req response s' :=
  h.imp fun _ hrecord => ⟨hle.completed _ _ _ hrecord.1, hrecord.2⟩

lemma agreed_of_held (hheld : Held req.timelineKey req.clientRequestId record revision s)
    (hmatch : validateIdempotentRecordFingerprint req record = .ok ())
    (hresponse : record.completedResponse req.timelineKey = .ok (some response)) :
    Agreed req response s :=
  ⟨record, hheld.2 (RequestRecord.state_of_completedResponse hresponse),
    count_of_validateIdempotentRecordFingerprint hmatch, hresponse⟩

lemma agreed_of_completed {now : Nat} (hkey : response.timelineKey = req.timelineKey)
    (hheld : Held req.timelineKey req.clientRequestId
      (completedRequestRecord (allocationRequestFingerprint req) response
        now).stampedForPersistence revision s) :
    Agreed req response s := by
  refine ⟨_, hheld.2 rfl, rfl, ?_⟩
  rw [← hkey]
  simp [completedRequestRecord, RequestRecord.stampedForPersistence,
    RequestRecord.completedResponse]

def Prepared (request : AllocateTimestampsRequest) (s : RequestStore) :
    IdempotentAllocationPreparation → Prop
  | .disabled => idempotencyEnabled request = false
  | .replay response => Agreed request response s
  | .pending pending => pending.fingerprint = allocationRequestFingerprint request ∧
      ∃ record, record.state = .pending ∧
        Known request.timelineKey request.clientRequestId record pending.revision s

variable {prep : IdempotentAllocationPreparation}

lemma Prepared.mono (h : Prepared req s prep) (hle : s ≤ s') : Prepared req s' prep := by
  cases prep with
  | disabled => exact h
  | replay response => exact Agreed.mono h hle
  | pending pending =>
    obtain ⟨hfingerprint, record, hstate, hknown⟩ := h
    exact ⟨hfingerprint, record, hstate, hknown.mono hle⟩

lemma requestSafe_resolveExistingRequest {now : Nat} (hinv : RequestInv s) :
    RequestSafe p (resolveExistingRequest config req now)
      (fun found s1 => ∀ prep, found = some prep → Prepared req s1 prep)
      s := by
  refine requestSafe_bind hinv (requestSafe_loadRequestRecord hinv) fun found s1 _ hinv1 hload => ?_
  cases found with
  | none => exact safe_pure fun _ _ _ => nofun
  | some x =>
    obtain ⟨record, revision⟩ := x
    have hheld := hload record revision rfl
    refine requestSafe_bind hinv1 (safe_ofExcept (R := fun _ _ =>
      validateIdempotentRecordFingerprint req record = .ok ()) fun _ h _ _ => h)
      fun _ s2 hle2 hinv2 hmatch => ?_
    have hheld2 := hheld.mono hle2
    split
    · exact safe_fail
    · next response hresponse =>
      refine safe_pure fun s3 hle3 prep heq => ?_
      cases heq
      exact (agreed_of_held hheld2 hmatch hresponse).mono hle3
    · next hpending =>
      have hst := RequestRecord.state_of_not_completedResponse hpending
      split
      · -- whatever becomes of the stale record, the loop starts over or fails
        have hdeleted := requestSafe_compareDeleteRequestRecord (p := p) hinv2 hheld2.1 hst
        refine requestSafe_bind hinv2 hdeleted.attempt fun r _ _ _ _ => ?_
        split
        · exact safe_pure fun _ _ _ => nofun
        · exact safe_pure fun _ _ _ => nofun
        · exact safe_pure fun _ _ _ => nofun
        · exact safe_fail
      · exact safe_fail

lemma requestSafe_prepareLoop (hinv : RequestInv s) : RequestSafe p (prepareLoop config req fuel)
      (fun prep s1 => Prepared req s1 prep) s := by
  induction fuel generalizing s with
  | zero => exact safe_fail
  | succ fuel ih =>
    refine requestSafe_bind hinv (requestSafe_op nofun
      fun _ _ _ _ _ _ _ _ => trivial) fun now s1 _ hinv1 _ => ?_
    have hcreated : RequestSafe p (createRequestRecord req.timelineKey
        req.clientRequestId (pendingRequestRecord (allocationRequestFingerprint req) now))
        _ s1 := requestSafe_createRequestRecord hinv1
    refine requestSafe_bind hinv1 hcreated.attempt fun r s2 _ hinv2 hr => ?_
    split
    · next revision =>
      refine safe_pure fun s3 hle3 => ⟨rfl, _, ?_, hr.1.mono hle3⟩
      rfl
    · refine requestSafe_bind hinv2 (requestSafe_resolveExistingRequest hinv2)
        fun found s3 _ hinv3 hfound => ?_
      cases found with
      | none => exact ih hinv3
      | some prep => exact safe_pure fun s4 hle4 => (hfound prep rfl).mono hle4
    · exact safe_fail

lemma requestSafe_prepareIdempotentAllocation (hinv : RequestInv s) :
    RequestSafe p (prepareIdempotentAllocation config req fuel)
      (fun prep s1 => Prepared req s1 prep) s := by
  unfold prepareIdempotentAllocation
  split
  · next hdisabled => exact safe_pure fun _ _ => by simpa [Prepared] using hdisabled
  · exact requestSafe_prepareLoop hinv

section

variable {now : Nat} (hinv : RequestInv s) (hkey : response.timelineKey = req.timelineKey)

include hinv hkey

lemma requestSafe_recoverIdempotentCompletion :
    RequestSafe p (recoverIdempotentCompletionAfterCasFailure req
        (completedRequestRecord (allocationRequestFingerprint req) response now) response)
      (Agreed req) s := by
  refine requestSafe_bind hinv (requestSafe_loadRequestRecord hinv) fun found s1 _ hinv1 hload => ?_
  cases found with
  | none =>
    have hcreated : RequestSafe p (createRequestRecord req.timelineKey req.clientRequestId
        (completedRequestRecord (allocationRequestFingerprint req) response now)) _ s1 :=
      requestSafe_createRequestRecord hinv1
    refine requestSafe_bind hinv1 hcreated.attempt fun r s2 _ _ hr => ?_
    split
    · exact safe_pure fun s3 hle3 => agreed_of_completed hkey (hr.mono hle3)
    · exact safe_fail
    · exact safe_fail
  | some x =>
    obtain ⟨record, revision⟩ := x
    have hheld := hload record revision rfl
    refine requestSafe_bind hinv1 (safe_ofExcept (R := fun _ _ =>
      validateIdempotentRecordFingerprint req record = .ok ()) fun _ h _ _ => h)
      fun _ s2 hle2 hinv2 hmatch => ?_
    have hheld2 := hheld.mono hle2
    split
    · exact safe_fail
    · next existing hresponse =>
      exact safe_pure fun s3 hle3 => (agreed_of_held hheld2 hmatch hresponse).mono hle3
    · next hpending =>
      have hst := RequestRecord.state_of_not_completedResponse hpending
      have hexchanged : RequestSafe p (compareExchangeRequestRecord req.timelineKey
          req.clientRequestId revision
          (completedRequestRecord (allocationRequestFingerprint req) response now)) _ s2 :=
        requestSafe_compareExchangeRequestRecord hinv2 hheld2.1 hst
      refine requestSafe_bind hinv2 hexchanged.attempt fun r s3 _ _ hr => ?_
      split
      · exact safe_pure fun s4 hle4 => agreed_of_completed hkey (hr.mono hle4)
      · exact safe_fail
      · exact safe_fail

lemma requestSafe_completePending {pending : PendingIdempotentAllocation}
    (hprep : Prepared req s (.pending pending)) :
    RequestSafe p (finishIdempotentAllocation req (.pending pending) (.ok response))
      (Agreed req) s := by
  obtain ⟨hfingerprint, prev, hst, hknown⟩ := hprep
  refine requestSafe_bind hinv (requestSafe_op nofun
    fun _ _ _ _ _ _ _ _ => trivial) fun now s1 hle1 hinv1 _ => ?_
  rw [hfingerprint]
  have hexchanged : RequestSafe p (compareExchangeRequestRecord req.timelineKey
      req.clientRequestId pending.revision
      (completedRequestRecord (allocationRequestFingerprint req) response now)) _ s1 :=
    requestSafe_compareExchangeRequestRecord hinv1 (hknown.mono hle1) hst
  refine requestSafe_bind hinv1 hexchanged.attempt fun r s2 _ hinv2 hr => ?_
  split
  · exact safe_pure fun s3 hle3 => agreed_of_completed hkey (hr.mono hle3)
  · exact requestSafe_recoverIdempotentCompletion hinv2 hkey
  · exact requestSafe_recoverIdempotentCompletion hinv2 hkey
  · exact safe_fail

end

lemma requestSafe_finishIdempotentAllocation
    {result : Except TsoError AllocateTimestampsResponse} (hinv : RequestInv s)
    (hprepared : Prepared req s prep)
    (hresult : ∀ response, result = .ok response → response.timelineKey = req.timelineKey)
    (hreplay : ∀ response, prep ≠ .replay response) :
    RequestSafe p (finishIdempotentAllocation req prep result)
      (fun response s1 => idempotencyEnabled req = true → Agreed req response s1) s := by
  cases prep with
  | replay response => exact absurd rfl (hreplay response)
  | disabled =>
    have hdisabled := hprepared
    refine safe_ofExcept fun _ _ _ _ henabled => ?_
    cases hdisabled.symm.trans henabled
  | pending pending =>
    cases result with
    | ok response =>
      exact (requestSafe_completePending hinv (hresult response rfl) hprepared).imp fun x _ h => by
          cases x with
          | ok response => exact fun _ => h
          | error e => trivial
    | error e =>
      obtain ⟨-, previous, hstate, hknown⟩ := hprepared
      have hdeleted := requestSafe_compareDeleteRequestRecord (p := p) hinv hknown hstate
      exact requestSafe_bind hinv hdeleted.attempt fun _ _ _ _ _ => safe_fail

lemma requestSafe_allocateTimestamps (hinv : RequestInv s) :
    RequestSafe p (allocateTimestampsWithCancellation config req fuel)
      (fun response s1 => idempotencyEnabled req = true → Agreed req response s1) s := by
  unfold allocateTimestampsWithCancellation
  split
  · exact safe_fail
  · exact safe_fail
  split_ifs
  · exact safe_fail
  · exact safe_fail
  refine requestSafe_bind hinv (requestSafe_prepareIdempotentAllocation hinv)
    fun preparation s1 _ hinv1 hprepared => ?_
  split
  · exact safe_pure fun s2 hle2 _ => Agreed.mono hprepared hle2
  · next hreplay =>
    have hallocated : RequestSafe p (requestCall (.allocate req))
        (fun result _ => ∀ response, result = .ok response →
          response.timelineKey = req.timelineKey) s1 := by
      refine requestSafe_op nofun fun s2 c r _ _ hexec s3 _ response hresponse => ?_
      subst hresponse
      cases c with
      | allocated found =>
        simp only [requestExec] at hexec
        split_ifs at hexec with hkey
        cases hexec
        exact hkey
      | refused error => simp [requestExec] at hexec
      | _ => cases hexec
    refine requestSafe_bind hinv1 hallocated fun result s2 hle2 hinv2 hresult => ?_
    exact requestSafe_finishIdempotentAllocation hinv2 (hprepared.mono hle2) hresult hreplay

section

variable {configs : Nat → RequestConfig} {r : RequestState}

def AttemptFact (_ : Nat) : Except TsoError
    (AllocateTimestampsRequest × AllocateTimestampsResponse) →
    RequestStore → Prop :=
  Discipline.OnOk fun x s => idempotencyEnabled x.1 = true → Agreed x.1 x.2 s

lemma requestSafe_attemptCode {attempt : Attempt} (hinv : RequestInv s) :
    requestDiscipline.Safe p (attemptCode configs p attempt) (AttemptFact p) s :=
  requestSafe_bind hinv (requestSafe_allocateTimestamps hinv) fun _ _ _ _ hagreed =>
    safe_pure fun _ hle henabled => (hagreed henabled).mono hle

lemma requestInv_ofEntries {entries : RequestKey → Option (RequestRecord × Nat)}
    (hsigned : revision < 2 ^ 63)
    (hentries : ∀ key e, entries key = some e → 0 < e.2 ∧ e.2 ≤ revision) :
    RequestInv (Store.ofEntries revision entries) := by
  refine ⟨Store.Sound.ofEntries hentries, hsigned, fun key x hx record _ _ => ?_⟩
  obtain ⟨e, he, rfl⟩ := List.mem_map.mp hx
  simp [Store.ofEntries, Option.mem_toList.mp he]

lemma RequestRun.holds {s0 : RequestState} (h0 : RequestInv s0.world) (hidle : s0.threads = [])
    (h : RequestRun configs s0 r) : requestDiscipline.Holds AttemptFact r := by
  have hstart : requestDiscipline.Holds AttemptFact s0 :=
    ⟨h0, fun t ht => absurd (hidle ▸ ht) List.not_mem_nil⟩
  exact hstart.reach (fun _ _ _ hinv _ => requestSafe_attemptCode hinv) h

/-- Attempts on one request never disagree: those that succeed return one response, a completed
record stays as it is, and no attempt with another count than the completed record's succeeds. -/
theorem idempotent_allocation_agreement {entries : RequestKey → Option (RequestRecord × Nat)}
    (hsigned : revision < 2 ^ 63)
    (hentries : ∀ key e, entries key = some e → 0 < e.2 ∧ e.2 ≤ revision)
    (h : RequestRun configs ⟨.ofEntries revision entries, []⟩ r) :
    (∀ p q request request' response response', ⟨p, .ret (request, response)⟩ ∈ r.threads →
      ⟨q, .ret (request', response')⟩ ∈ r.threads → idempotencyEnabled request = true →
      request.timelineKey = request'.timelineKey →
      request.clientRequestId = request'.clientRequestId → response = response') ∧
    (∀ r', RequestRun configs r r' → ∀ key record n, r.world.get key = some (record, n) →
      record.state = .completed → r'.world.get key = some (record, n)) ∧
    (∀ p request response record, idempotencyEnabled request = true →
      completedRequest r.world request.timelineKey request.clientRequestId = some record →
      record.fingerprint.count ≠ request.count → ⟨p, .ret (request, response)⟩ ∉ r.threads) := by
  have hholds := h.holds (requestInv_ofEntries hsigned hentries) rfl
  have hcode : ∀ (p : Nat) (attempt : Attempt) (s : RequestStore), requestDiscipline.Inv s →
      True → requestDiscipline.Safe p (attemptCode configs p attempt) (AttemptFact p) s :=
    fun _ _ _ hinv _ => requestSafe_attemptCode hinv
  refine ⟨?_, ?_, ?_⟩
  · intro p q request request' response response' ht ht' henabled hkey hid
    have henabled' : idempotencyEnabled request' = true := by rwa [idempotencyEnabled, ← hid]
    obtain ⟨record, hrecord, -, hresponse⟩ := hholds.post ht henabled
    obtain ⟨record', hrecord', -, hresponse'⟩ := hholds.post ht' henabled'
    rw [← hkey, ← hid, hrecord] at hrecord'
    cases hrecord'
    rw [← hkey, hresponse] at hresponse'
    exact Option.some.inj (Except.ok.inj hresponse')
  · intro r' h' key record n hget hst
    have hle : r.world ≤ r'.world := hholds.le_of_reach hcode h'
    have hinv' : RequestInv r'.world := (hholds.reach hcode h').inv
    exact hinv'.get_eq (written_mono (Store.written_of_get hget) hle) hst
  · intro p request response record henabled hrecord hcount ht
    obtain ⟨record', hrecord', hcount', -⟩ := hholds.post ht henabled
    cases hrecord.symm.trans hrecord'
    exact hcount hcount'

/-- Two attempts of one request: the second finds the pending record of the first stale, takes the
request over and completes it; the first then loses its exchange and returns the same response. -/
theorem idempotent_allocation_agreement_sample :
    ∃ r p q response response', RequestRun (fun _ => ⟨8, 50⟩) ⟨.ofEntries 0 fun _ => none, []⟩ r ∧
      ⟨p, .ret (⟨"k", 1, 1, 1, "id"⟩, response)⟩ ∈ r.threads ∧
      ⟨q, .ret (⟨"k", 1, 1, 1, "id"⟩, response')⟩ ∈ r.threads ∧
      response.ranges = [⟨160, 160⟩] ∧ response = response' := by
  let attempt : Attempt := ⟨⟨"k", 1, 1, 1, "id"⟩, 3⟩
  let other : AllocateTimestampsResponse := ⟨"k", 2, 1, 1, [⟨164, 164⟩]⟩
  obtain ⟨r, hrun, hresults⟩ := RequestRun.of_script (fun _ => ⟨8, 50⟩)
    ⟨.ofEntries 0 fun _ => none, []⟩
    [.label (.spawn 0 attempt), .drive 0 2, .label (.call 0 (.allocated other)),
      .label (.spawn 1 attempt), .label (.call 1 (.time 100)), .drive 1 20, .drive 0 20]
    (fun r => r.result 0 = some (attempt.request, ⟨"k", 0, 1, 1, [⟨160, 160⟩]⟩) ∧
      r.result 1 = some (attempt.request, ⟨"k", 0, 1, 1, [⟨160, 160⟩]⟩))
    (by decide +kernel)
  obtain ⟨hfirst, hsecond⟩ := of_decide_eq_true hresults
  obtain ⟨p, ht⟩ := Sys.mem_threads_of_result hfirst
  obtain ⟨q, ht'⟩ := Sys.mem_threads_of_result hsecond
  have hagree := (idempotent_allocation_agreement (by decide) (by simp) hrun).1 p q _ _ _ _ ht ht'
    (by decide) rfl rfl
  exact ⟨r, p, q, _, _, hrun, ht, ht', rfl, hagree⟩

end

end Chronos
