import Chronos.StatusIndex.Duties

/-! The programs on the timeline store do what they owe each other. -/

namespace Chronos

open Interleaving KeyValue Tenure List

abbrev IndexSafe (d : Duty) {α : Type} (prog : IndexProg α) (T : Set Nat)
    (R : α → Set Nat → IndexWorld → Prop) (w : IndexWorld) : Prop :=
  d.tenure.Safe () prog T (OnOk R) w

def Stable (d : Duty) (P : Set Nat → IndexWorld → Prop) : Prop :=
  ∀ T w w', P T w → d.tenure.Rely T w w' → P T w'

variable {d : Duty} {T : Set Nat} {w : IndexWorld} {P : Set Nat → IndexWorld → Prop} {α : Type}
  {token : Nat} {key : String} {record : TimelineRecord}

section

lemma stable_true : Stable d fun _ _ => True := fun _ _ _ _ _ => trivial

lemma stable_mem : Stable d fun T _ => token ∈ T := fun _ _ _ h _ => h

def IndexOp.Plain : IndexOp → Prop
  | .txn _ | .leaseGrant => False
  | _ => True

variable {o : IndexOp}

lemma grants_plain (ho : o.Plain) (r : o.Reply) : Duty.grants o r = none := by
  cases o with
  | txn req => exact ho.elim
  | leaseGrant => exact ho.elim
  | _ => rfl

lemma union_grants {r : o.Reply} (h : Duty.grants o r = none) :
    T ∪ {t | d.tenure.grants o r = some t} = T := by
  have hempty : {t | d.tenure.grants o r = some t} = (∅ : Set Nat) := by
    ext t
    change Duty.grants o r = some t ↔ t ∈ (∅ : Set Nat)
    simp [h]
  rw [hempty, Set.union_empty]

lemma indexSafe_plain {R : o.Reply → Set Nat → IndexWorld → Prop} (ho : o.Plain)
    (h : ∀ c r w1 w2, d.tenure.Rely T w w1 → d.Inv w1 → indexExec () o c w1 = some (r, w2) →
      d.tenure.Rely T w1 w2 → ∀ w3, d.tenure.Rely T w2 w3 → R r T w3) :
    IndexSafe d (indexCall o) T R w := by
  have huses : d.tenure.uses o = none := by
    cases o with
    | txn req => exact ho.elim
    | _ => rfl
  refine safe_op (fun t ht => ?_) fun w1 h1 hinv => ⟨?_, fun c r w2 hexec w3 h3 => ?_⟩
  · cases huses.symm.trans ht
  · cases o with
    | txn req => exact ho.elim
    | _ => trivial
  rw [union_grants (grants_plain ho r)] at h3 ⊢
  rcases IndexWorld.exec_cases hexec with ⟨req, rfl, -, -⟩ | hquiet
  · exact ho.elim
  · exact h c r w1 w2 h1 hinv hexec ⟨hquiet.le, fun t _ => .quiet hquiet⟩ w3 h3

lemma indexSafe_frame (ho : o.Plain) (hP : Stable d P) (h : P T w) :
    IndexSafe d (indexCall o) T (fun _ T' w' => P T' w') w := by
  refine indexSafe_plain ho fun c r w1 w2 h1 _ _ h2 w3 h3 => ?_
  exact hP T w w3 h (h1.trans (h2.trans h3))

lemma indexSafe_txn {req : IndexTxn} {R : Except String (Option Nat) → Set Nat → IndexWorld → Prop}
    (htoken : ∀ t, req.token = some t → t ∈ T)
    (hallowed : ∀ w1, d.tenure.Rely T w w1 → w1.Fits req ∧ d.Owed w1 req)
    (hmade : ∀ r w1, d.tenure.Rely T w w1 → d.Inv w1 → w1.admits req = true → r ≠ .ok none →
      ∀ w2, d.tenure.Rely T (w1.commit req) w2 → R r T w2)
    (hnot : ∀ r w1, d.tenure.Rely T w w1 → d.Inv w1 →
      (∀ x, r = .ok x → x = none ∧ w1.admits req = false) →
      ∀ w2, d.tenure.Rely T w1 w2 → R r T w2) :
    IndexSafe d (indexCall (.txn req)) T R w := by
  refine safe_op htoken fun w1 h1 hinv => ⟨hallowed w1 h1, fun c r w2 hexec w3 h3 => ?_⟩
  rw [union_grants rfl] at h3 ⊢
  rcases IndexWorld.exec_txn hexec with ⟨hadmits, rfl, hr⟩ | ⟨rfl, hr⟩
  · exact hmade r w1 h1 hinv hadmits hr w3 h3
  · exact hnot r w2 h1 hinv hr w3 h3

lemma indexSafe_retryEtcdRequest {req : IndexProg (Except String α)}
    {R : α → Set Nat → IndexWorld → Prop} (hP : Stable d P)
    (hreq : ∀ T w, P T w → d.Inv w → IndexSafe d req T (OnAnswer R P) w) (h : P T w)
    (hinv : d.Inv w) :
    IndexSafe d (retryEtcdRequest req) T (fun r T' w' => ∀ x, r = .ok x → R x T' w') w := by
  refine Safe.retry (P := P) hreq (fun T' w1 h1 _ => ?_) h hinv 3
  exact indexSafe_frame trivial hP h1

lemma indexSafe_orInternal {request : IndexProg (Except String α)} {context : String}
    {R : α → Set Nat → IndexWorld → Prop}
    (h : IndexSafe d request T (fun r T' w' => ∀ x, r = .ok x → R x T' w') w) (hinv : d.Inv w) :
    IndexSafe d (orInternal context request) T R w := by
  refine Safe.bind h hinv fun r T' w1 _ _ _ hr => ?_
  cases r with
  | error message => exact safe_fail
  | ok x => exact safe_pure fun w2 h2 => hr w2 h2 x rfl

lemma indexSafe_read {request : IndexProg (Except String α)} (hP : Stable d P)
    (hrequest : ∀ T w, P T w → IndexSafe d request T (fun _ T' w' => P T' w') w) (h : P T w)
    (hinv : d.Inv w) :
    IndexSafe d (retryEtcdRequest request) T (fun r T' w' => ∀ x, r = .ok x → P T' w') w := by
  refine indexSafe_retryEtcdRequest hP (fun T' w1 h1 _ => ?_) h hinv
  refine (hrequest T' w1 h1).imp fun r T'' w2 hr => ?_
  cases r with
  | error e => trivial
  | ok r =>
    cases r with
    | error message => exact hr
    | ok x => exact hr

end

lemma indexSafe_leaseGrant (hinv : d.Inv w) :
    IndexSafe d (retryEtcdRequest (indexCall .leaseGrant)) T
      (fun r T' _ => ∀ t, r = .ok t → t ∈ T') w := by
  refine indexSafe_retryEtcdRequest stable_true (fun T' w1 _ _ => ?_) trivial hinv
  refine safe_op (fun t ht => nomatch ht) fun w2 _ _ => ⟨trivial, fun c r w3 hexec w4 _ => ?_⟩
  cases r with
  | error message => trivial
  | ok t => exact Set.mem_union_right _ rfl

lemma indexSafe_tryAcquireLeaseLock (name : LockName) (operation : String) (hinv : d.Inv w) :
    IndexSafe d (tryAcquireLeaseLock name operation) T (fun r T' _ => ∀ t, r = some t →
      t ∈ T') w := by
  have hrevoke : ∀ {T' w1} {t : Nat} {β : Type} {next : IndexProg β}
      {R : β → Set Nat → IndexWorld → Prop}, d.Inv w1 →
      (∀ T'' w2, IndexSafe d next T'' R w2) →
      IndexSafe d (indexCall (.leaseRevoke t) >>= fun _ => next) T' R w1 := by
    intro T' w1 t β next R hinv1 hnext
    exact Safe.bind (indexSafe_frame trivial stable_true trivial) hinv1
      fun _ T'' w2 _ _ _ _ => hnext T'' w2
  refine Safe.bind (indexSafe_orInternal (indexSafe_leaseGrant hinv) hinv)
    hinv fun t T' w1 _ _ hinv1 ht => ?_
  have hmem : t ∈ T' := ht w1 (Rely.refl w1)
  have htxn : IndexSafe d (indexEtcdTxn (.acquire name t)) T'
      (fun r T'' _ => ∀ x, r = .ok x → t ∈ T'') w1 := by
    refine indexSafe_retryEtcdRequest stable_mem (fun T'' w2 h2 _ => ?_) hmem hinv1
    have htoken : ∀ t', (IndexTxn.acquire name t).token = some t' → t' ∈ T'' := by
      intro t' ht'
      cases ht'
      exact h2
    refine indexSafe_txn htoken (fun _ _ => ⟨trivial, trivial⟩) (fun r _ _ _ _ _ _ _ => ?_)
      fun r _ _ _ _ _ _ => ?_
    all_goals cases r <;> exact h2
  refine Safe.bind htxn hinv1 fun r T'' w2 _ _ hinv2 hr => ?_
  cases r with
  | error message => exact hrevoke hinv2 fun _ _ => safe_fail
  | ok made =>
    cases made with
    | none => exact hrevoke hinv2 fun _ _ => safe_pure fun _ _ _ h => nomatch h
    | some revision =>
      have hmem2 : t ∈ T'' := hr w2 (Rely.refl w2) _ rfl
      have hkeep : IndexSafe d (retryEtcdRequest (indexCall (.leaseKeepAlive t))) T''
          (fun r T3 _ => ∀ x, r = .ok x → t ∈ T3) w2 :=
        indexSafe_read stable_mem (fun T3 w3 h3 => indexSafe_frame trivial stable_mem h3)
          hmem2 hinv2
      refine Safe.bind hkeep hinv2 fun r T3 w3 _ _ hinv3 hr3 => ?_
      cases r with
      | error message => exact hrevoke hinv3 fun _ _ => safe_fail
      | ok _ =>
        refine safe_pure fun w4 h4 t' ht' => ?_
        cases ht'
        exact hr3 w4 h4 () rfl

lemma indexSafe_leaseLockIsOwned (name : LockName) (token : Nat) (hP : Stable d P) (h : P T w)
    (hinv : d.Inv w) :
    IndexSafe d (leaseLockIsOwned name token) T (fun _ T' w' => P T' w') w := by
  refine Safe.bind (indexSafe_frame trivial hP h) hinv fun lost T1 w1 _ _ hinv1 h1 => ?_
  split
  · exact safe_pure h1
  have hread : IndexSafe d (retryEtcdRequest (indexCall (.getLock name))) T1
      (fun r T' w' => ∀ x, r = .ok x → P T' w') w1 :=
    indexSafe_read hP (fun T' w' h' => indexSafe_frame trivial hP h') (h1 w1 (Rely.refl w1)) hinv1
  refine Safe.bind (indexSafe_orInternal hread hinv1) hinv1 fun holder T2 w2 _ _ _ h2 => ?_
  exact safe_pure h2

lemma indexSafe_releaseLeaseLock (token : Nat) (hinv : d.Inv w) :
    IndexSafe d (releaseLeaseLock token) T (fun _ _ _ => True) w := by
  refine Safe.bind (indexSafe_frame trivial stable_true trivial) hinv fun _ _ _ _ _ _ _ => ?_
  exact safe_done

section

def Pending (token : Nat) (X : RouteEntry → Prop) (T : Set Nat) (w : IndexWorld) : Prop :=
  token ∈ T ∧ (w.lock .rebuild = some token → w.Sound ∧ ∀ entry, w.Uncovered entry → X entry)

variable {X X' : RouteEntry → Prop}

lemma stable_pending : Stable d (Pending token X) := by
  rintro T w w' ⟨hmem, h⟩ hrely
  refine ⟨hmem, fun hlock => ?_⟩
  obtain ⟨hbefore, hsound, huncovered⟩ := (hrely.2 token hmem).rebuild hlock
  obtain ⟨hs, hX⟩ := h hbefore
  exact ⟨hsound hs, fun entry hentry => hX entry (huncovered entry hentry)⟩

lemma Pending.imp (h : Pending token X T w)
    (himp : ∀ entry, w.Uncovered entry → X entry → X' entry) : Pending token X' T w := by
  refine ⟨h.1, fun hlock => ?_⟩
  obtain ⟨hsound, hX⟩ := h.2 hlock
  exact ⟨hsound, fun entry hentry => himp entry hentry (hX entry hentry)⟩

lemma indexSafe_statusIndexMarkerIsCurrent (hP : Stable d P) (h : P T w) (hinv : d.Inv w) :
    IndexSafe d statusIndexMarkerIsCurrent T (fun _ T' w' => P T' w') w := by
  have hread : IndexSafe d (retryEtcdRequest (indexCall .getMarker)) T
      (fun r T' w' => ∀ x, r = .ok x → P T' w') w :=
    indexSafe_read hP (fun T' w' h' => indexSafe_frame trivial hP h') h hinv
  refine Safe.bind (indexSafe_orInternal hread hinv) hinv fun marker T1 w1 _ _ _ h1 => ?_
  exact safe_pure h1

lemma indexSafe_waitForStatusIndexRebuild (rounds : Nat) (hinv : d.Inv w) :
    IndexSafe d (waitForStatusIndexRebuild rounds) T (fun _ _ _ => True) w := by
  induction rounds generalizing T w with
  | zero => exact safe_fail
  | succ rounds ih =>
    refine Safe.bind (indexSafe_statusIndexMarkerIsCurrent stable_true trivial hinv) hinv
      fun current T1 w1 _ _ hinv1 _ => ?_
    split
    · exact safe_done
    have hread : IndexSafe d (retryEtcdRequest (indexCall (.getLock .rebuild))) T1
        (fun r _ _ => ∀ x, r = .ok x → True) w1 :=
      indexSafe_read stable_true (fun T' w' h' => indexSafe_frame trivial stable_true h') trivial
        hinv1
    refine Safe.bind (indexSafe_orInternal hread hinv1) hinv1 fun holder T2 w2 _ _ hinv2 _ => ?_
    split
    · exact safe_done
    refine Safe.bind (indexSafe_frame trivial stable_true trivial) hinv2
      fun passed T3 w3 _ _ hinv3 _ => ?_
    split
    · exact safe_fail
    · exact ih hinv3

variable {entry : RouteEntry} {startKey : String} {limit : Nat}

lemma indexSafe_indexRoute (hseen : w.Seen entry)
    (h : Pending token (fun other => other = entry ∨ X other) T w) (hinv : d.Inv w) :
    IndexSafe d (indexEtcdTxn (.indexRoute token entry)) T
      (fun r T' w' => ∀ x, r = .ok x → Pending token X T' w') w := by
  have hP : Stable d fun T' w' => w'.Seen entry ∧
      Pending token (fun other => other = entry ∨ X other) T' w' :=
    fun T' w1 w2 h1 hrely => ⟨h1.1.mono hrely.1, stable_pending T' w1 w2 h1.2 hrely⟩
  refine indexSafe_retryEtcdRequest hP (fun T' w1 h1 hinv1 => ?_) ⟨hseen, h⟩ hinv
  have htoken : ∀ t, (IndexTxn.indexRoute token entry).token = some t → t ∈ T' := by
    intro t ht
    cases ht
    exact h1.2.1
  refine indexSafe_txn htoken (fun w2 h2 => ⟨(hP _ _ _ h1 h2).1, trivial⟩)
    (fun r w2 h2 hinv2 hadmits _ w3 h3 => ?_) fun r w2 h2 hinv2 hr w3 h3 => ?_
  · -- made: the record stands as it was read, and now it is covered
    have hknown := hP _ _ _ h1 h2
    have hentry : entry ∈ w2.routes := hknown.1.mem hinv2.wellformed
      (IndexWorld.admits_routeRevision hadmits (by simp [IndexTxn.compares]))
    have hnew : Pending token X T' (w2.commit (.indexRoute token entry)) := by
      refine ⟨hknown.2.1, fun hlock => ?_⟩
      obtain ⟨hsound, hX⟩ := hknown.2.2 hlock
      refine ⟨sound_commit_indexRoute hentry hsound, fun other hother => ?_⟩
      obtain ⟨hbefore, hne⟩ := uncovered_commit_indexRoute hinv2.wellformed hentry hother
      exact (hX other hbefore).resolve_left hne
    have hgrows : w2 ≤ w2.commit (.indexRoute token entry) :=
      IndexWorld.le_commit hinv2.wellformed hknown.1 hadmits
    have hlater : Pending token X T' w3 := stable_pending _ _ _ hnew h3
    cases r with
    | ok x => exact hlater
    | error message => exact ⟨hknown.1.mono (hgrows.trans h3.1), hlater.imp fun _ _ hX => .inr hX⟩
  · have hknown := hP _ _ _ h1 h2
    have hlater := hP _ _ _ hknown h3
    cases r with
    | error message => exact hlater
    | ok x =>
      -- not made although the lock was held: the record does not stand as it was read
      refine stable_pending _ w2 w3 ⟨hknown.2.1, fun hlock => ?_⟩ h3
      obtain ⟨hsound, hX⟩ := hknown.2.2 hlock
      refine ⟨hsound, fun other hother => (hX other hother).resolve_left ?_⟩
      rintro rfl
      have hrevision := hinv2.wellformed.routeRevision_of_mem hother.1
      have hadmits : w2.admits (.indexRoute token other) = true := by
        simp [IndexWorld.admits, IndexTxn.compares, IndexWorld.holds, hlock, hrevision]
      cases ((hr x rfl).2).symm.trans hadmits

lemma indexSafe_indexPage {page : List RouteEntry} (hseen : ∀ entry ∈ page, w.Seen entry)
    (h : Pending token (fun entry => entry ∈ page ∨ X entry) T w) (hinv : d.Inv w) :
    IndexSafe d (indexPage token page) T (fun _ => Pending token X) w := by
  induction page generalizing T w with
  | nil =>
    have hnone : Pending token X T w := h.imp fun _ _ hX => hX.resolve_left (List.not_mem_nil)
    exact safe_pure fun w1 h1 => stable_pending _ _ _ hnone h1
  | cons entry rest ih =>
    have hsplit := h.imp fun other _ hX => by rwa [List.mem_cons, or_assoc] at hX
    -- the next record is known to be read, whatever happens in between
    have hP : Stable d fun T' w' => (∀ other ∈ entry :: rest, w'.Seen other) ∧
        Pending token (fun other => other = entry ∨ other ∈ rest ∨ X other) T' w' :=
      fun T' w1 w2 h1 hrely =>
        ⟨fun other hother => (h1.1 other hother).mono hrely.1, stable_pending T' w1 w2 h1.2 hrely⟩
    refine Safe.bind (safe_ofExcept (R := fun _ T' w' => (∀ other ∈ entry :: rest, w'.Seen other) ∧
      Pending token (fun other => other = entry ∨ other ∈ rest ∨ X other) T' w')
      fun _ _ w1 h1 => hP _ _ _ ⟨hseen, hsplit⟩ h1) hinv fun _ T1 w1 _ _ hinv1 h1 => ?_
    obtain ⟨hseen1, hpending1⟩ := h1 w1 (Rely.refl w1)
    have htxn := indexSafe_indexRoute (hseen1 entry List.mem_cons_self) hpending1 hinv1
    refine Safe.bind (indexSafe_orInternal htxn hinv1) hinv1 fun response T2 w2 _ hle hinv2 h2 => ?_
    have hrest : ∀ other ∈ rest, w2.Seen other := fun other hother =>
      (hseen1 other (List.mem_cons_of_mem entry hother)).mono hle
    have hpending2 := h2 w2 (Rely.refl w2)
    cases response with
    | some rev => exact ih hrest hpending2 hinv2
    | none =>
      refine Safe.bind (indexSafe_leaseLockIsOwned .rebuild token stable_pending hpending2 hinv2)
        hinv2 fun owned T3 w3 _ hle3 hinv3 h3 => ?_
      split
      · exact ih (fun other hother => (hrest other hother).mono hle3) (h3 w3 (Rely.refl w3)) hinv3
      · exact safe_fail

lemma mem_scan_or_lt {last : RouteEntry}
    (hw : w.Wellformed) (hlast : (w.scan startKey limit).getLast? = some last)
    (hentry : entry ∈ w.routes) (hstart : startKey ≤ entry.key) :
    entry ∈ w.scan startKey limit ∨ nextEtcdKeyAfter last.key ≤ entry.key := by
  have hmem : entry ∈ w.routes.filter fun entry => startKey ≤ entry.key :=
    mem_filter.mpr ⟨hentry, decide_eq_true hstart⟩
  rw [← take_append_drop limit (w.routes.filter fun entry => startKey ≤ entry.key)] at hmem
  rcases mem_append.mp hmem with hpage | hrest
  · exact .inl hpage
  refine .inr (not_lt.mp fun hlt => ?_)
  have hordered : Ordered RouteEntry.key
      (w.routes.filter fun entry => startKey ≤ entry.key) := hw.ordered.filter _
  rw [← take_append_drop limit (w.routes.filter fun entry => startKey ≤ entry.key)] at hordered
  have hlater : last.key < entry.key :=
    (pairwise_append.mp hordered).2.2 last (mem_of_getLast? hlast) entry hrest
  exact not_lt.mpr (le_of_lt_nextEtcdKeyAfter hlt) hlater

def Unscanned (page : List RouteEntry) (entry : RouteEntry) : Prop :=
  entry ∈ page ∨ ∃ last, page.getLast? = some last ∧ nextEtcdKeyAfter last.key ≤ entry.key

lemma unscanned_scan (hw : w.Wellformed)
    (hlimit : 0 < limit) (hentry : entry ∈ w.routes) (hstart : startKey ≤ entry.key) :
    Unscanned (w.scan startKey limit) entry := by
  cases hlast : (w.scan startKey limit).getLast? with
  | some last =>
    rcases mem_scan_or_lt hw hlast hentry hstart with hpage | hlater
    · exact .inl hpage
    · exact .inr ⟨last, hlast, hlater⟩
  | none =>
    have hmem : entry ∈ w.routes.filter fun entry => startKey ≤ entry.key :=
      mem_filter.mpr ⟨hentry, decide_eq_true hstart⟩
    have hnil : w.scan startKey limit = [] := getLast?_eq_none_iff.mp hlast
    rcases take_eq_nil_iff.mp hnil with hzero | hempty
    · exact absurd hzero hlimit.ne'
    · rw [hempty] at hmem
      cases hmem

lemma indexSafe_scanRoutes (hlimit : 0 < limit)
    (h : Pending token (fun entry => startKey ≤ entry.key) T w) (hinv : d.Inv w) :
    IndexSafe d (retryEtcdRequest (indexCall (.scanRoutes startKey limit))) T
      (fun r T' w' => ∀ page, r = .ok page →
        (∀ entry ∈ page, w'.Seen entry) ∧ Pending token (Unscanned page) T' w') w := by
  refine indexSafe_retryEtcdRequest (R := fun page T' w' =>
    (∀ entry ∈ page, w'.Seen entry) ∧ Pending token (Unscanned page) T' w') stable_pending
    (fun T' w1 h1 _ => ?_) h hinv
  refine indexSafe_plain trivial fun c r w2 w3 h2 hinv2 hexec h3 w4 h4 => ?_
  have hknown := stable_pending _ _ _ h1 h2
  cases c with
  | done =>
    cases hexec
    have hpage := hknown.imp fun entry hentry hstart =>
        unscanned_scan hinv2.wellformed hlimit hentry.1 hstart
    refine ⟨fun entry hentry => ?_, stable_pending _ _ _ hpage h4⟩
    have hmem : entry ∈ w2.routes := (mem_filter.mp (mem_of_mem_take hentry)).1
    exact (IndexWorld.Seen.of_mem hmem).mono h4.1
  | down msg =>
    cases hexec
    exact stable_pending _ _ _ hknown h4
  | lost msg => cases hexec
  | flag value => cases hexec

lemma indexSafe_indexRoutes (pages : Nat)
    (h : Pending token (fun entry => startKey ≤ entry.key) T w) (hinv : d.Inv w) :
    IndexSafe d (indexRoutes token pages startKey) T (fun _ => Pending token fun _ => False) w := by
  induction pages generalizing T w startKey with
  | zero => exact safe_fail
  | succ pages ih =>
    refine Safe.bind (indexSafe_orInternal (indexSafe_scanRoutes (by decide) h hinv) hinv) hinv
      fun page T1 w1 _ _ hinv1 h1 => ?_
    cases hlast : page.getLast? with
    | none =>
      refine safe_pure fun w2 h2 => (h1 w2 h2).2.imp fun entry _ hleft => ?_
      rcases hleft with hmem | ⟨last, hsome, -⟩
      · rw [getLast?_eq_none_iff.mp hlast] at hmem
        cases hmem
      · cases hlast.symm.trans hsome
    | some last =>
      obtain ⟨hseen, hpending⟩ := h1 w1 (Rely.refl w1)
      have hpage : Pending token (fun entry => entry ∈ page ∨ nextEtcdKeyAfter last.key ≤ entry.key)
          T1 w1 := hpending.imp fun entry _ hleft => by
        rcases hleft with hmem | ⟨last', hsome, hlater⟩
        · exact .inl hmem
        · cases hlast.symm.trans hsome
          exact .inr hlater
      refine Safe.bind (indexSafe_indexPage hseen hpage hinv1) hinv1 fun _ T2 w2 _ _ hinv2 h2 => ?_
      exact ih (h2 w2 (Rely.refl w2)) hinv2

lemma indexSafe_cleanup (hmem : token ∈ T) (hinv : d.Inv w) :
    IndexSafe d (indexEtcdTxn (.cleanup token)) T (fun r T' w' => ∀ x, r = .ok x → token ∈ T' ∧
        (x ≠ none → Pending token (fun _ => True) T' w')) w := by
  refine indexSafe_retryEtcdRequest (R := fun x T' w' => token ∈ T' ∧
    (x ≠ none → Pending token (fun _ => True) T' w')) stable_mem (fun T' w1 h1 _ => ?_) hmem hinv
  have htoken : ∀ t, (IndexTxn.cleanup token).token = some t → t ∈ T' := by
    intro t ht
    cases ht
    exact h1
  refine indexSafe_txn htoken (fun _ _ => ⟨trivial, trivial⟩) (fun r w2 _ _ _ _ w3 h3 => ?_)
    fun r w2 _ _ hr w3 _ => ?_
  · cases r with
    | error message => exact h1
    | ok x =>
      -- nothing is left in the indexes, so nothing wrong is
      have hclean : Pending token (fun _ => True) T' (w2.commit (.cleanup token)) := by
        refine ⟨h1, fun _ => ⟨fun key value _ hvalue => ?_, fun _ _ => trivial⟩⟩
        cases hvalue
      exact ⟨h1, fun _ => stable_pending _ _ _ hclean h3⟩
  · cases r with
    | error message => exact h1
    | ok x => exact ⟨h1, fun hx => absurd (hr x rfl).1 hx⟩

lemma indexSafe_publish (h : Pending token (fun _ => False) T w) (hinv : d.Inv w) :
    IndexSafe d (indexEtcdTxn (.publish token)) T (fun r _ _ => ∀ x, r = .ok x → True) w := by
  refine indexSafe_retryEtcdRequest stable_pending (fun T' w1 h1 _ => ?_) h hinv
  have htoken : ∀ t, (IndexTxn.publish token).token = some t → t ∈ T' := by
    intro t ht
    cases ht
    exact h1.1
  have howed : ∀ w2, d.tenure.Rely T' w1 w2 → w2.Fits (.publish token) ∧
      d.Owed w2 (.publish token) := by
    intro w2 h2
    refine ⟨trivial, fun hlock => IndexWorld.coherent_iff.mpr ?_⟩
    exact (stable_pending _ _ _ h1 h2).2 hlock
  refine indexSafe_txn htoken howed (fun r w2 _ _ _ _ w3 h3 => ?_) fun r w2 h2 _ _ w3 h3 => ?_
  · cases r with
    | ok x => trivial
    | error message =>
      -- the lock is gone with the marker in place
      have hgone : Pending token (fun _ => False) T' (w2.commit (.publish token)) :=
        ⟨h1.1, fun hlock => nomatch hlock⟩
      exact stable_pending _ _ _ hgone h3
  · cases r with
    | ok x => trivial
    | error message => exact stable_pending _ _ _ (stable_pending _ _ _ h1 h2) h3

lemma indexSafe_rebuildTimelineStatusIndexesWithLock (pages : Nat) (hmem : token ∈ T)
    (hinv : d.Inv w) :
    IndexSafe d (rebuildTimelineStatusIndexesWithLock token pages) T (fun _ _ _ => True) w := by
  refine Safe.bind (indexSafe_orInternal (indexSafe_cleanup hmem hinv) hinv) hinv
    fun cleaned T1 w1 _ _ hinv1 h1 => ?_
  cases cleaned with
  | none => exact safe_fail
  | some rev =>
    have hclean := ((h1 w1 (Rely.refl w1)).2 (by simp)).imp fun entry _ _ => empty_le entry.key
    refine Safe.bind (indexSafe_indexRoutes pages hclean hinv1) hinv1 fun _ T2 w2 _ _ hinv2 h2 => ?_
    have hpublish := indexSafe_publish (h2 w2 (Rely.refl w2)) hinv2
    refine Safe.bind (indexSafe_orInternal hpublish hinv2) hinv2 fun published T3 w3 _ _ _ _ => ?_
    cases published with
    | none => exact safe_fail
    | some rev => exact safe_done

lemma indexSafe_acquireRebuildLock (rounds : Nat) (hinv : d.Inv w) :
    IndexSafe d (acquireRebuildLock rounds) T (fun r T' _ => ∀ t, r = some t → t ∈ T') w := by
  induction rounds generalizing T w with
  | zero => exact safe_fail
  | succ rounds ih =>
    refine Safe.bind (indexSafe_statusIndexMarkerIsCurrent stable_true trivial hinv) hinv
      fun current T1 w1 _ _ hinv1 _ => ?_
    split
    · exact safe_pure fun _ _ _ ht => nomatch ht
    refine Safe.bind (indexSafe_tryAcquireLeaseLock .rebuild _ hinv1) hinv1
      fun acquired T2 w2 _ _ hinv2 h2 => ?_
    cases acquired with
    | some token =>
      have hmem : token ∈ T2 := h2 w2 (Rely.refl w2) token rfl
      refine Safe.bind (indexSafe_statusIndexMarkerIsCurrent stable_mem hmem hinv2) hinv2
        fun current T3 w3 _ _ hinv3 h3 => ?_
      split
      · refine Safe.bind (indexSafe_releaseLeaseLock token hinv3) hinv3 fun _ _ _ _ _ _ _ => ?_
        exact safe_pure fun _ _ _ ht => nomatch ht
      refine safe_pure fun w4 h4 t ht => ?_
      cases ht
      exact h3 w4 h4
    | none =>
      refine Safe.bind (indexSafe_waitForStatusIndexRebuild _ hinv2) hinv2
        fun waited T3 w3 _ _ hinv3 _ => ?_
      cases waited with
      | ready => exact safe_pure fun _ _ _ ht => nomatch ht
      | lockReleased => exact ih hinv3

lemma indexSafe_rebuildTimelineStatusIndexes (rounds pages : Nat) (hinv : d.Inv w) :
    IndexSafe d (rebuildTimelineStatusIndexes rounds pages) T (fun _ _ _ => True) w := by
  refine Safe.bind (indexSafe_acquireRebuildLock rounds hinv) hinv
    fun acquired T1 w1 _ _ hinv1 h1 => ?_
  cases acquired with
  | none => exact safe_done
  | some token =>
    have hmem : token ∈ T1 := h1 w1 (Rely.refl w1) token rfl
    have hrebuild := indexSafe_rebuildTimelineStatusIndexesWithLock pages hmem hinv1
    refine Safe.bind hrebuild.attempt hinv1 fun res T2 w2 _ _ hinv2 _ => ?_
    refine Safe.bind (indexSafe_releaseLeaseLock token hinv2) hinv2 fun _ _ _ _ _ _ _ => ?_
    exact safe_ofExcept fun _ _ _ _ => trivial

end

end Chronos
