import Chronos.StatusIndex.Safety

/-! Creating timelines and exchanging their records is safe: what is exchanged was read before, and
a timeline is created under the creation lock only after a count below the limit. -/

namespace Chronos

open Interleaving KeyValue Tenure List

variable {d : Duty} {T : Set Nat} {w : IndexWorld} {P : Set Nat → IndexWorld → Prop}
  {token : Nat} {key : String} {record : TimelineRecord}

lemma indexSafe_getRoute (key : String) (hP : Stable d P) (h : P T w) (hinv : d.Inv w) :
    IndexSafe d (retryEtcdRequest (indexCall (.getRoute key))) T
      (fun r T' w' => ∀ found, r = .ok found → P T' w' ∧
        ∀ entry, found = some entry → entry.key = key ∧ w'.Seen entry) w := by
  refine indexSafe_retryEtcdRequest (R := fun found T' w' => P T' w' ∧
    ∀ entry, found = some entry → entry.key = key ∧ w'.Seen entry) hP (fun T' w1 h1 _ => ?_) h hinv
  refine indexSafe_plain trivial fun c r w2 w3 h2 hinv2 hexec h3 w4 h4 => ?_
  have hlater : P T' w4 := hP _ _ _ h1 (h2.trans (h3.trans h4))
  cases c with
  | done =>
    cases hexec
    refine ⟨hlater, fun entry hentry => ?_⟩
    obtain ⟨hmem, hkey⟩ := hinv2.wellformed.getRoute_eq_some.mp hentry
    exact ⟨hkey, (IndexWorld.Seen.of_mem hmem).mono h4.1⟩
  | down msg =>
    cases hexec
    exact hlater
  | lost msg => cases hexec
  | flag value => cases hexec

lemma indexSafe_loadTimeline (key : String) (hP : Stable d P) (h : P T w) (hinv : d.Inv w) :
    IndexSafe d (loadTimeline key) T (fun found T' w' => P T' w' ∧
      ∀ entry, found = some entry → entry.key = key ∧ w'.Seen entry) w := by
  refine Safe.bind (indexSafe_orInternal (indexSafe_getRoute key hP h hinv) hinv) hinv
    fun found T1 w1 _ _ hinv1 h1 => ?_
  cases found with
  | none => exact safe_pure h1
  | some entry =>
    refine Safe.bind (safe_ofExcept (R := fun _ T2 w2 => P T2 w2 ∧ w2.Seen entry)
      fun _ _ w2 h2 => ⟨(h1 w2 h2).1, ((h1 w2 h2).2 entry rfl).2⟩) hinv1 fun _ T2 w2 _ _ _ h2 => ?_
    refine safe_pure fun w3 h3 => ⟨(h2 w3 h3).1, fun entry' hentry => ?_⟩
    cases hentry
    exact ⟨((h1 w1 (Rely.refl w1)).2 entry rfl).1, (h2 w3 h3).2⟩

lemma indexSafe_loadTimelineRoute (key : String) (hP : Stable d P) (h : P T w) (hinv : d.Inv w) :
    IndexSafe d (loadTimelineRoute key) T (fun _ T' w' => P T' w') w := by
  refine Safe.bind (indexSafe_orInternal (indexSafe_getRoute key hP h hinv) hinv) hinv
    fun found T1 w1 _ _ _ h1 => ?_
  cases found with
  | none => exact safe_pure fun w2 h2 => (h1 w2 h2).1
  | some entry =>
    dsimp only
    split
    · exact safe_pure fun w2 h2 => (h1 w2 h2).1
    · exact safe_fail

lemma indexSafe_write {request : IndexTxn} (hP : Stable d P)
    (htoken : ∀ T w t, P T w → request.token = some t → t ∈ T)
    (howed : ∀ T w, P T w → w.Fits request ∧ d.Owed w request)
    (hagain : ∀ T w, P T w → d.Inv w → w.admits request = true → P T (w.commit request))
    (h : P T w) (hinv : d.Inv w) :
    IndexSafe d (indexEtcdTxn request) T (fun r _ _ => ∀ x, r = .ok x → True) w := by
  refine indexSafe_retryEtcdRequest hP (fun T' w1 h1 _ => ?_) h hinv
  refine indexSafe_txn (fun t ht => htoken T' w1 t h1 ht)
    (fun w2 h2 => howed T' w2 (hP _ _ _ h1 h2)) (fun r w2 h2 hinv2 hadmits _ w3 h3 => ?_)
    fun r w2 h2 _ _ w3 h3 => ?_
  · cases r with
    | ok x => trivial
    | error message => exact hP _ _ _ (hagain T' w2 (hP _ _ _ h1 h2) hinv2 hadmits) h3
  cases r with
  | ok x => trivial
  | error message => exact hP _ _ _ (hP _ _ _ h1 h2) h3

section

/-- What the creation of a timeline under a lock waits for: either the timeline is there, or the
lock is lost, or there is room for it. -/
def Room (d : Duty) (key : String) (token : Nat) (T : Set Nat) (w : IndexWorld) : Prop :=
  token ∈ T ∧ (w.lock .creation = some token → (∀ entry ∈ w.routes, entry.key ≠ key) →
    ∀ max, d.limit = some max → w.routes.length < max)

lemma stable_room : Stable d (Room d key token) := by
  rintro T w w' ⟨hmem, h⟩ hrely
  refine ⟨hmem, fun hlock habsent max hmax => ?_⟩
  obtain ⟨hbefore, hlen⟩ := (hrely.2 token hmem).creation hlock
  rw [hlen (by rw [hmax]; simp)]
  refine h hbefore (fun entry hentry hkey => ?_) max hmax
  obtain ⟨entry', hentry', hkey', -⟩ := hrely.1.routes entry hentry
  exact habsent entry' hentry' (hkey'.trans hkey)

lemma indexSafe_createFenced (hkey : record.key = key) (h : Room d key token T w) (hinv : d.Inv w) :
    IndexSafe d (createTimelineWithIndexesInternal key record (some token)) T
      (fun _ _ _ => True) w := by
  have hwrite : IndexSafe d (indexEtcdTxn (.create key record (some token))) T
      (fun r _ _ => ∀ x, r = .ok x → True) w := by
    refine indexSafe_write stable_room (fun T' w' t h' ht => ?_) (fun T' w' h' => ⟨hkey, h'.2⟩)
      (fun T' w' h' hinv' _ => ⟨h'.1, fun _ habsent => ?_⟩) h hinv
    · cases ht
      exact h'.1
    -- the timeline is there now
    refine absurd rfl (habsent ⟨key, record, w'.advance.revision⟩ ?_)
    rw [IndexWorld.commit_create]
    exact (mem_routes_rewrite hinv'.wellformed.advance).mpr (.inl rfl)
  refine Safe.bind (indexSafe_orInternal hwrite hinv) hinv fun made T1 w1 _ _ _ _ => ?_
  cases made with
  | none => exact safe_fail
  | some rev => exact safe_done

lemma indexSafe_createTimelineRecord (hkey : record.key = key) (hlimit : d.limit = none)
    (hinv : d.Inv w) :
    IndexSafe d (createTimelineRecord key record) T (fun _ _ _ => True) w := by
  refine Safe.bind (safe_ofExcept (R := fun _ _ _ => True) fun _ _ _ _ => trivial) hinv
    fun _ T1 w1 _ _ hinv1 _ => ?_
  have hwrite : IndexSafe d (indexEtcdTxn (.create key record.stampedForPersistence none)) T1
      (fun r _ _ => ∀ x, r = .ok x → True) w1 :=
    indexSafe_write stable_true (fun _ _ _ _ ht => nomatch ht) (fun _ _ _ => ⟨hkey, hlimit⟩)
      (fun _ _ _ _ _ => trivial) trivial hinv1
  refine Safe.bind (indexSafe_orInternal hwrite hinv1) hinv1 fun made T2 w2 _ _ _ _ => ?_
  cases made with
  | none => exact safe_fail
  | some rev => exact safe_done

lemma indexSafe_countRoutes (hmem : token ∈ T) (hinv : d.Inv w) :
    IndexSafe d (retryEtcdRequest (indexCall .countRoutes)) T
      (fun r T' w' => ∀ count, r = .ok count → token ∈ T' ∧
        (d.limit ≠ none → w'.lock .creation = some token → w'.routes.length = count)) w := by
  refine indexSafe_retryEtcdRequest (R := fun count T' w' => token ∈ T' ∧
    (d.limit ≠ none → w'.lock .creation = some token → w'.routes.length = count)) stable_mem
    (fun T' w1 h1 _ => ?_) hmem hinv
  refine indexSafe_plain trivial fun c r w2 w3 _ _ hexec _ w4 h4 => ?_
  cases c with
  | done =>
    cases hexec
    refine ⟨h1, fun hlimit hlock => ?_⟩
    exact ((h4.2 token h1).creation hlock).2 hlimit
  | down msg =>
    cases hexec
    exact h1
  | lost msg => cases hexec
  | flag value => cases hexec

variable {maxTimelines : Nat}

lemma indexSafe_createTimelineUnderLock (hkey : record.key = key)
    (hlimit : ∀ max, d.limit = some max → max = maxTimelines) (hmem : token ∈ T) (hinv : d.Inv w) :
    IndexSafe d (createTimelineUnderLock key record maxTimelines token) T
      (fun _ _ _ => True) w := by
  refine Safe.bind (indexSafe_loadTimelineRoute key stable_mem hmem hinv) hinv
    fun found T1 w1 _ _ hinv1 h1 => ?_
  split
  · exact safe_fail
  refine Safe.bind (indexSafe_orInternal (indexSafe_countRoutes (h1 w1 (Rely.refl w1)) hinv1) hinv1)
    hinv1 fun count T2 w2 _ _ hinv2 h2 => ?_
  split
  · exact safe_fail
  · next hless =>
    obtain ⟨hmem2, hcount⟩ := h2 w2 (Rely.refl w2)
    refine indexSafe_createFenced hkey ⟨hmem2, fun hlock _ max hmax => ?_⟩ hinv2
    rw [hcount (by rw [hmax]; simp) hlock, hlimit max hmax]
    exact Nat.lt_of_not_le hless

lemma indexSafe_createTimelineWithLimitLoop (hkey : record.key = key)
    (hlimit : ∀ max, d.limit = some max → max = maxTimelines) (attempts : Nat) (hinv : d.Inv w) :
    IndexSafe d (createTimelineWithLimitLoop key record maxTimelines attempts) T
      (fun _ _ _ => True) w := by
  induction attempts generalizing T w with
  | zero => exact safe_fail
  | succ attempts ih =>
    refine Safe.bind (indexSafe_tryAcquireLeaseLock .creation _ hinv) hinv
      fun acquired T1 w1 _ _ hinv1 h1 => ?_
    cases acquired with
    | none => exact ih hinv1
    | some token =>
      have hmem : token ∈ T1 := h1 w1 (Rely.refl w1) token rfl
      have hcreate := indexSafe_createTimelineUnderLock hkey hlimit hmem hinv1
      refine Safe.bind hcreate.attempt hinv1 fun result T2 w2 _ _ hinv2 _ => ?_
      refine Safe.bind (indexSafe_releaseLeaseLock token hinv2) hinv2 fun _ T3 w3 _ _ hinv3 _ => ?_
      cases result with
      | ok revision => exact safe_done
      | error e =>
        cases e with
        | casFailed => exact ih hinv3
        | _ => exact safe_fail

lemma indexSafe_createTimelineWithLimit (hkey : record.key = key)
    (hlimit : ∀ max, d.limit = some max → max = maxTimelines) (hinv : d.Inv w) :
    IndexSafe d (createTimelineWithLimit key record maxTimelines) T (fun _ _ _ => True) w := by
  refine Safe.bind (safe_ofExcept (R := fun _ _ _ => True) fun _ _ _ _ => trivial) hinv
    fun _ T1 w1 _ _ hinv1 _ => ?_
  have hstamped : record.stampedForPersistence.key = key := hkey
  exact indexSafe_createTimelineWithLimitLoop hstamped hlimit _ hinv1

end

def Readied (operations : List TimelineExchange) (w : IndexWorld) : Prop :=
  w.Fits (.exchange operations)

lemma stable_readied (ops : List TimelineExchange) : Stable d fun _ w => Readied ops w :=
  fun _ _ _ h hrely => ⟨h.1, fun x hx => ⟨(h.2 x hx).1, (h.2 x hx).2.mono hrely.1⟩⟩

lemma indexSafe_exchange {ops : List TimelineExchange} (h : Readied ops w) (hinv : d.Inv w) :
    IndexSafe d (indexEtcdTxn (.exchange ops)) T (fun r _ _ => ∀ x, r = .ok x → True) w := by
  refine indexSafe_write (stable_readied ops) (fun _ _ _ _ ht => nomatch ht)
    (fun _ _ h' => ⟨h', trivial⟩) (fun T' w' h' hinv' hadmits => ?_) h hinv
  have hle := IndexWorld.le_commit hinv'.wellformed h' hadmits
  exact ⟨h'.1, fun x hx => ⟨(h'.2 x hx).1, (h'.2 x hx).2.mono hle⟩⟩

lemma indexSafe_compareExchangeTimelineRecord (expected : Nat) (hkey : record.key = key)
    (hinv : d.Inv w) :
    IndexSafe d (compareExchangeTimelineRecord key expected record) T (fun _ _ _ => True) w := by
  refine Safe.bind (safe_ofExcept (R := fun _ _ _ => True) fun _ _ _ _ => trivial) hinv
    fun _ T1 w1 _ _ hinv1 _ => ?_
  refine Safe.bind (indexSafe_loadTimeline key stable_true trivial hinv1) hinv1
    fun found T2 w2 _ _ hinv2 h2 => ?_
  cases found with
  | none => exact safe_fail
  | some prev =>
    dsimp only
    split
    · exact safe_fail
    · next hrev =>
      obtain ⟨hprev, hseen⟩ := (h2 w2 (Rely.refl w2)).2 prev rfl
      have hentry : (⟨key, prev.record, expected⟩ : RouteEntry) = prev := by
        rw [← hprev, ← not_not.mp hrev]
      have hreadied : Readied [⟨key, expected, prev.record, record.stampedForPersistence⟩] w2 := by
        refine ⟨nodup_singleton _, fun x hx => ?_⟩
        rw [mem_singleton.mp hx]
        refine ⟨hkey, ?_⟩
        rw [hentry]
        exact hseen
      refine Safe.bind (indexSafe_orInternal
        (indexSafe_exchange hreadied hinv2) hinv2) hinv2 fun made T3 w3 _ _ hinv3 _ => ?_
      cases made with
      | some rev => exact safe_done
      | none =>
        refine Safe.bind (indexSafe_loadTimeline key stable_true trivial hinv3) hinv3
          fun existing T4 w4 _ _ _ _ => ?_
        cases existing with
        | none => exact safe_fail
        | some existing =>
          dsimp only
          split
          · exact safe_done
          · exact safe_fail

lemma indexSafe_loadExchanges (seen : List String) {ops : List TimelineBatchOp}
    (hkeys : ∀ x ∈ ops, x.record.key = x.timelineKey) (hinv : d.Inv w) :
    IndexSafe d (loadExchanges seen ops) T
      (fun exchanges _ w' => Readied exchanges w' ∧ ∀ x ∈ exchanges, x.key ∉ seen) w := by
  induction ops generalizing seen T w with
  | nil => exact safe_pure fun _ _ => ⟨⟨nodup_nil, by simp⟩, by simp⟩
  | cons op rest ih =>
    unfold loadExchanges
    split
    · exact safe_fail
    · next hfresh =>
      refine Safe.bind (indexSafe_loadTimeline op.timelineKey stable_true trivial hinv) hinv
        fun found T1 w1 _ _ hinv1 h1 => ?_
      cases found with
      | none => exact safe_fail
      | some prev =>
        dsimp only
        split
        · exact safe_fail
        · next hrev =>
          obtain ⟨hprev, hseen⟩ := (h1 w1 (Rely.refl w1)).2 prev rfl
          have hentry : (⟨op.timelineKey, prev.record, op.previousRevision⟩ : RouteEntry) =
              prev := by
            rw [← hprev, ← not_not.mp hrev]
          refine Safe.bind (ih (op.timelineKey :: seen)
            (fun x hx => hkeys x (mem_cons_of_mem _ hx)) hinv1) hinv1
            fun exchanges T2 w2 _ hle2 _ h2 => ?_
          refine safe_pure fun w3 h3 => ?_
          obtain ⟨⟨hnodup, hread⟩, hapart⟩ := h2 w3 h3
          refine ⟨⟨nodup_cons.mpr ⟨fun hmem => ?_, hnodup⟩, fun x hx => ?_⟩, fun x hx => ?_⟩
          · obtain ⟨x, hx, hsame⟩ := mem_map.mp hmem
            exact hapart x hx (hsame ▸ mem_cons_self)
          · rcases mem_cons.mp hx with rfl | hx
            · refine ⟨hkeys op mem_cons_self, ?_⟩
              rw [hentry]
              exact hseen.mono (hle2.trans h3.1)
            · exact hread x hx
          · rcases mem_cons.mp hx with rfl | hx
            · exact hfresh
            · exact fun hmem => hapart x hx (mem_cons_of_mem _ hmem)

lemma indexSafe_recoverRevisions (ops : List TimelineBatchOp) (hinv : d.Inv w) :
    IndexSafe d (recoverRevisions ops) T (fun _ _ _ => True) w := by
  induction ops generalizing T w with
  | nil => exact safe_done
  | cons op rest ih =>
    refine Safe.bind (indexSafe_loadTimeline op.timelineKey stable_true trivial hinv) hinv
      fun existing T1 w1 _ _ hinv1 _ => ?_
    cases existing with
    | none => exact safe_fail
    | some existing =>
      dsimp only
      split
      · refine Safe.bind (ih hinv1) hinv1 fun revs _ _ _ _ _ _ => ?_
        exact safe_done
      · exact safe_fail

lemma indexSafe_compareExchangeTimelineRecords {ops : List TimelineBatchOp}
    (hkeys : ∀ x ∈ ops, x.record.key = x.timelineKey) (hinv : d.Inv w) :
    IndexSafe d (compareExchangeTimelineRecords ops) T (fun _ _ _ => True) w := by
  refine Safe.bind (safe_ofExcept (R := fun _ _ _ => True) fun _ _ _ _ => trivial) hinv
    fun _ T1 w1 _ _ hinv1 _ => ?_
  unfold compareExchangeTimelinesWithIndexes
  split
  · exact safe_done
  have hstamped : ∀ x ∈ ops.map (fun op : TimelineBatchOp =>
      { op with record := op.record.stampedForPersistence }),
      x.record.key = x.timelineKey := by
    intro x hx
    obtain ⟨op, hop, rfl⟩ := List.mem_map.mp hx
    exact hkeys op hop
  refine Safe.bind (indexSafe_loadExchanges [] hstamped hinv1) hinv1
    fun exchanges T2 w2 _ _ hinv2 h2 => ?_
  refine Safe.bind (indexSafe_orInternal
    (indexSafe_exchange (h2 w2 (Rely.refl w2)).1 hinv2) hinv2) hinv2
    fun made T3 w3 _ _ hinv3 _ => ?_
  cases made with
  | some rev => exact safe_done
  | none => exact indexSafe_recoverRevisions _ hinv3

/-- Records are passed under their own keys, and with a limit, every timeline is created under
it. -/
def Duty.Admits (d : Duty) : IndexEntry → Prop
  | .rebuild .. => True
  | .create key record => record.key = key ∧ d.limit = none
  | .createWithLimit key record maxTimelines => record.key = key ∧
      ∀ max, d.limit = some max → max = maxTimelines
  | .exchange key _ record => record.key = key
  | .exchangeBatch operations => ∀ x ∈ operations, x.record.key = x.timelineKey

lemma indexSafe_indexCode {entry : IndexEntry} (h : d.Admits entry) (hinv : d.Inv w) :
    IndexSafe d (indexCode () entry) T (fun _ _ _ => True) w := by
  have hreturn : ∀ {α : Type} {prog : IndexProg α} {f : α → List Nat},
      IndexSafe d prog T (fun _ _ _ => True) w →
        IndexSafe d (prog >>= fun x => pure (f x)) T (fun _ _ _ => True) w := by
    intro α prog f hprog
    exact Safe.bind hprog hinv fun _ _ _ _ _ _ _ => safe_done
  cases entry with
  | rebuild rounds pages => exact hreturn (indexSafe_rebuildTimelineStatusIndexes rounds pages hinv)
  | create key record => exact hreturn (indexSafe_createTimelineRecord h.1 h.2 hinv)
  | createWithLimit key record maxTimelines =>
    exact hreturn (indexSafe_createTimelineWithLimit h.1 h.2 hinv)
  | exchange key expectedRevision record =>
    exact hreturn (indexSafe_compareExchangeTimelineRecord expectedRevision h hinv)
  | exchangeBatch operations => exact indexSafe_compareExchangeTimelineRecords h hinv

lemma IndexRun.inv {G : IndexGuard} {w0 : IndexWorld} {s : IndexState}
    (hG : ∀ entry, G.entry () entry → d.Admits entry) (h0 : d.Inv w0) (hrun : IndexRun G w0 s) :
    d.Inv s.world := by
  have hcode : ∀ a entry w, d.tenure.Inv w → G.entry a entry → d.tenure.Safe a (indexCode a entry) ∅
      (OnOk fun _ _ _ => True) w :=
    fun _ entry _ hinv hentry => indexSafe_indexCode (hG entry hentry) hinv
  exact reach_inv h0 hcode hrun

end Chronos
