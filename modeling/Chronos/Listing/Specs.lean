import Chronos.Listing.StatusPages

/-! What one page holds, for each of the ways of reading one. -/

namespace Chronos

open Paging Option

abbrev Sorted (records : List TimelineRecord) : Prop :=
  KeyValue.Ordered TimelineRecord.key records

variable {records entries : List TimelineRecord} {limit : Nat} {startAfter : Option String}

lemma cut_take {n : Nat} (hn : limit < n) :
    cut TimelineRecord.key limit (records.take n) = cut TimelineRecord.key limit records := by
  have hlen : limit < (records.take n).length ↔ limit < records.length := by
    rw [List.length_take]
    omega
  have hlast : (records.take n)[limit - 1]? = records[limit - 1]? := List.getElem?_take_of_lt
    (by omega)
  simp only [cut, hlen, hlast, List.take_take, min_eq_left hn.le]

lemma take_fetchLimit (hcount : records.length ≤ i64Max) :
    records.take (fetchLimit limit startAfter) =
      records.take (limit + 1 + startAfter.isSome.toNat) := by
  have hmax : i64Max ≤ U64.max := by decide
  by_cases hsmall : limit + 1 + startAfter.isSome.toNat ≤ i64Max
  · have hlimit : fetchLimit limit startAfter = limit + 1 + startAfter.isSome.toNat := by
      unfold fetchLimit U64.saturatingAdd
      omega
    rw [hlimit]
  · have hlimit : fetchLimit limit startAfter = i64Max := by
      unfold fetchLimit U64.saturatingAdd
      omega
    rw [hlimit, List.take_of_length_le hcount, List.take_of_length_le (by omega)]

lemma length_rangeFrom_le (start : String) : (rangeFrom entries start).length ≤ entries.length :=
  List.length_filter_le _ _

lemma rangeFrom_none : rangeFrom entries "" = entries :=
  List.filter_eq_self.mpr fun record _ => decide_eq_true (empty_le record.key)

lemma filter_rangeFrom (start : String) :
    (rangeFrom entries start).filter (fun record => !isStartKey (some start) start record) =
      after TimelineRecord.key entries (some start) := by
  rw [rangeFrom, List.filter_filter]
  refine List.filter_congr fun record _ => ?_
  have hlt : start < record.key ↔ ¬ record.key = start ∧ start ≤ record.key := by
    rw [lt_iff_le_and_ne, ne_comm, and_comm]
  simp [isStartKey, hlt]

lemma rangeFrom_eq (hsorted : Sorted entries) (start : String) :
    rangeFrom entries start = after TimelineRecord.key entries (some start) ∨
    ∃ record, record.key = start ∧
        rangeFrom entries start = record :: after TimelineRecord.key entries (some start) := by
  have hrange : Sorted (rangeFrom entries start) := hsorted.filter _
  rw [← filter_rangeFrom start]
  cases hr : rangeFrom entries start with
  | nil => exact .inl rfl
  | cons first rest =>
    rw [hr] at hrange
    obtain ⟨hfirst, -⟩ := List.pairwise_cons.mp hrange
    have hmem : first ∈ rangeFrom entries start := by
      rw [hr]
      exact List.mem_cons_self
    have hstart : start ≤ first.key := by simpa [rangeFrom] using (List.mem_filter.mp hmem).2
    have hrest : rest.filter (fun record => !isStartKey (some start) start record) = rest := by
      refine List.filter_eq_self.mpr fun record hrecord => ?_
      have hlt : start < record.key := hstart.trans_lt (hfirst record hrecord)
      simp [isStartKey, hlt.ne']
    -- only the first entry can be the one of the start key
    by_cases hkey : first.key = start
    · refine .inr ⟨first, hkey, ?_⟩
      rw [List.filter_cons_of_neg (by simp [isStartKey, hkey]), hrest]
    · refine .inl ?_
      rw [List.filter_cons_of_pos (by simp [isStartKey, hkey]), hrest]

lemma response_filter (hsorted : Sorted entries) (hcount : entries.length ≤ i64Max)
    (limit : Nat) (startAfter : Option String) :
    ∃ n, limit < n ∧ ((rangeFrom entries (startAfter.getD "")).take
      (fetchLimit limit startAfter)).filter
          (fun record => !isStartKey startAfter (startAfter.getD "") record) =
        (after TimelineRecord.key entries startAfter).take n := by
  rw [take_fetchLimit ((length_rangeFrom_le _).trans hcount)]
  cases startAfter with
  | none =>
    refine ⟨limit + 1, Nat.lt_succ_self limit, ?_⟩
    simp [isStartKey, rangeFrom_none, after]
  | some start =>
    have hkeep : ∀ n, ((after TimelineRecord.key entries (some start)).take n).filter
        (fun record => !isStartKey (some start) start record) =
          (after TimelineRecord.key entries (some start)).take n := by
      intro n
      refine List.filter_eq_self.mpr fun record hrecord => ?_
      have hlt : start < record.key := by
        simpa [after] using (List.mem_filter.mp (List.mem_of_mem_take hrecord)).2
      simp [isStartKey, hlt.ne']
    rcases rangeFrom_eq hsorted start with heq | ⟨record, hkey, heq⟩
    · refine ⟨limit + 2, by omega, ?_⟩
      simp only [getD_some, heq, isSome_some, Bool.toNat_true]
      exact hkeep (limit + 2)
    refine ⟨limit + 1, Nat.lt_succ_self limit, ?_⟩
    simp only [getD_some, heq, isSome_some, Bool.toNat_true, List.take_succ_cons]
    rw [List.filter_cons_of_neg (by simp [isStartKey, hkey])]
    exact hkeep (limit + 1)

lemma after_sorted (hsorted : Sorted entries) :
    Sorted (after TimelineRecord.key entries startAfter) := by
  cases startAfter with
  | none => exact hsorted
  | some start => exact hsorted.filter _

lemma after_filter (wanted : TimelineRecord → Bool) :
    after TimelineRecord.key (entries.filter wanted) startAfter =
      (after TimelineRecord.key entries startAfter).filter wanted := by
  cases startAfter with
  | none => rfl
  | some start => exact List.filter_comm _ _ _

variable {store : StatusStore} {page : Option String → Except TsoError TimelineRecordListPage}
  {fuel : Nat} {cursor : Option String} {matched : List TimelineRecord}

lemma listTimelinesPage_eq (hsorted : Sorted store.routes)
    (hcount : store.routes.length ≤ i64Max) (hlimit : 0 < limit) :
    listTimelinesPage store startAfter limit =
      cut TimelineRecord.key limit (after TimelineRecord.key store.routes startAfter) := by
  obtain ⟨n, hn, hresponse⟩ := response_filter hsorted hcount limit startAfter
  have hordered : ((after TimelineRecord.key store.routes startAfter).take n).Pairwise
      fun left right => left.key ≤ right.key :=
    ((after_sorted hsorted).sublist (List.take_sublist _ _)).imp le_of_lt
  rw [listTimelinesPage, if_neg hlimit.ne']
  dsimp only
  rw [hresponse, hordered.insertionSort_eq, cut_take hn]

lemma pushRecords_eq (skip wanted : TimelineRecord → Bool) (hlen : records.length ≤ limit)
    (response : List TimelineRecord) :
    pushRecords skip wanted limit records response =
      records ++ (response.filter fun record => !skip record && wanted record).take
        (limit + 1 - records.length) := by
  induction response generalizing records with
  | nil => simp [pushRecords]
  | cons record rest ih =>
    by_cases hskip : skip record
    · simp [pushRecords, hskip, ih hlen]
    by_cases hwanted : wanted record
    · -- one more record: either the last that fits, or the loop goes on
      have htake : limit + 1 - records.length = (limit - records.length) + 1 := by omega
      by_cases hfull : (records ++ [record]).length > limit
      · have hzero : limit - records.length = 0 := by
          rw [List.length_append, List.length_singleton] at hfull
          omega
        simp [pushRecords, hskip, hwanted, htake, hzero]
        omega
      · have hnext := ih (not_lt.mp hfull)
        have hrest : limit + 1 - (records ++ [record]).length = limit - records.length := by
          rw [List.length_append, List.length_singleton]
          omega
        rw [pushRecords, if_neg hskip, if_pos hwanted, if_neg hfull, hnext, hrest, htake,
          List.filter_cons_of_pos (by simp [hskip, hwanted]), List.take_succ_cons,
          List.append_assoc, List.singleton_append]
    · simp [pushRecords, hskip, hwanted, ih hlen]

lemma rangeFrom_last (hsorted : Sorted entries) {start : String} {last : TimelineRecord}
    (hlast : (rangeFrom entries start).getLast? = some last) :
    rangeFrom entries (nextEtcdKeyAfter last.key) = [] := by
  obtain ⟨front, hfront⟩ := List.getLast?_eq_some_iff.mp hlast
  have hrange : Sorted (rangeFrom entries start) := hsorted.filter _
  rw [hfront] at hrange
  have hmem : last ∈ rangeFrom entries start := by
    rw [hfront]
    exact List.mem_append_right _ (List.mem_singleton_self last)
  refine List.filter_eq_nil_iff.mpr fun record hrecord hge => ?_
  have hlater : last.key < record.key :=
    (lt_nextEtcdKeyAfter last.key).trans_le (of_decide_eq_true hge)
  have hstart : start ≤ last.key := of_decide_eq_true (List.mem_filter.mp hmem).2
  have hin : record ∈ rangeFrom entries start :=
    List.mem_filter.mpr ⟨hrecord, decide_eq_true (hstart.trans hlater.le)⟩
  rw [hfront, List.mem_append, List.mem_singleton] at hin
  rcases hin with hin | rfl
  · exact (List.pairwise_append.mp hrange).2.2 record hin last (List.mem_singleton_self last)
      |>.asymm hlater
  · exact hlater.ne rfl

lemma response_whole (hsorted : Sorted entries) (hcount : entries.length ≤ i64Max)
    (hshort : (after TimelineRecord.key entries startAfter).length ≤ limit) :
    (rangeFrom entries (startAfter.getD "")).take (fetchLimit limit startAfter) =
      rangeFrom entries (startAfter.getD "") := by
  rw [take_fetchLimit ((length_rangeFrom_le _).trans hcount)]
  refine List.take_of_length_le ?_
  cases startAfter with
  | none =>
    rw [getD_none, rangeFrom_none]
    exact hshort.trans (by omega)
  | some start =>
    rw [getD_some, isSome_some, Bool.toNat_true]
    rcases rangeFrom_eq hsorted start with heq | ⟨record, -, heq⟩
    · rw [heq]
      omega
    · rw [heq, List.length_cons]
      omega

lemma listTimelinesFromStatusIndexPrefix_eq (hsorted : Sorted entries)
    (hcount : entries.length ≤ i64Max) (hlimit : 0 < limit) :
    listTimelinesFromStatusIndexPrefix entries [] startAfter limit =
      some (cut TimelineRecord.key limit (after TimelineRecord.key entries startAfter)) := by
  obtain ⟨n, hn, hresponse⟩ := response_filter hsorted hcount limit startAfter
  have hpush : pushRecords (isStartKey startAfter (startAfter.getD ""))
      (fun record => ([] : List TimelineLifecycleState).isEmpty || record.state ∈ [])
      limit [] ((rangeFrom entries (startAfter.getD "")).take (fetchLimit limit startAfter)) =
        (after TimelineRecord.key entries startAfter).take (limit + 1) := by
    rw [pushRecords_eq _ _ (Nat.zero_le limit)]
    simp only [List.isEmpty_nil, Bool.true_or, Bool.and_true, List.nil_append, List.length_nil,
      Nat.sub_zero, hresponse, List.take_take, min_eq_left (Nat.succ_le_of_lt hn)]
  have hstart : ([] : List TimelineRecord).length ≤ limit := Nat.zero_le limit
  rw [listTimelinesFromStatusIndexPrefix, if_neg hlimit.ne', scanStatusIndex, if_pos hstart]
  dsimp only
  cases hlast : ((rangeFrom entries (startAfter.getD "")).take
      (fetchLimit limit startAfter)).getLast? with
  | none =>
    have hnil := List.getLast?_eq_none_iff.mp hlast
    have hempty : after TimelineRecord.key entries startAfter = [] := by
      rw [hnil, List.filter_nil] at hresponse
      cases hafter : after TimelineRecord.key entries startAfter with
      | nil => rfl
      | cons first rest =>
        rw [hafter, show n = n - 1 + 1 by omega, List.take_succ_cons] at hresponse
        cases hresponse
    simp [hempty]
  | some last =>
    dsimp only
    rw [hpush]
    by_cases hfull : ((after TimelineRecord.key entries startAfter).take (limit + 1)).length > limit
    · rw [if_pos hfull, map_some, cut_take (Nat.lt_succ_self limit)]
    have hshort : (after TimelineRecord.key entries startAfter).length ≤ limit := by
      rw [List.length_take] at hfull
      omega
    rw [response_whole hsorted hcount hshort] at hlast
    have hmem : last ∈ entries := (List.mem_filter.mp (List.mem_of_getLast? hlast)).1
    obtain ⟨fuel, hfuel⟩ : ∃ fuel, entries.length = fuel + 1 :=
      Nat.exists_eq_succ_of_ne_zero (List.length_pos_of_mem hmem).ne'
    rw [if_neg hfull, hfuel, scanStatusIndex, if_pos (not_lt.mp hfull)]
    rw [rangeFrom_last hsorted hlast, List.take_nil]
    exact congrArg some (cut_take (Nat.lt_succ_self limit))

lemma scanPages_eq (hpage : ∀ start, page start =
      .ok (cut TimelineRecord.key limit (after TimelineRecord.key entries start)))
    (hsorted : Sorted entries) (hlimit : 0 < limit) (wanted : TimelineRecord → Bool)
    (hmatched : matched.length ≤ limit + 1)
    (hfuel : (after TimelineRecord.key entries cursor).length < fuel) :
    scanPages page wanted limit fuel cursor matched =
      some (.ok (matched ++ ((after TimelineRecord.key entries cursor).filter wanted).take
        (limit + 1 - matched.length))) := by
  induction fuel generalizing cursor matched with
  | zero => omega
  | succ fuel ih =>
    rw [scanPages]
    by_cases hopen : matched.length ≤ limit
    · rw [if_pos hopen, hpage]
      generalize hr : after TimelineRecord.key entries cursor = r at hfuel ⊢
      dsimp only
      by_cases hempty : r = []
      · simp [hempty, cut]
      have hrecords : ¬ (cut TimelineRecord.key limit r).records.isEmpty := by
        simp [cut, hempty, hlimit.ne']
      have hpush : pushRecords (fun _ => false) wanted limit matched (r.take limit) =
          matched ++ ((r.take limit).filter wanted).take (limit + 1 - matched.length) := by
        rw [pushRecords_eq _ _ hopen]
        rfl
      rw [if_neg hrecords, cut, hpush]
      by_cases hlong : limit < r.length
      · -- the page is full: the scan goes on behind it
        obtain ⟨x, hx⟩ : ∃ x, r[limit - 1]? = some x :=
          ⟨r[limit - 1], List.getElem?_eq_getElem (by omega)⟩
        have hnext : after TimelineRecord.key entries (some x.key) = r.drop limit := by
          rw [after_next hsorted (hr ▸ hx), hr, Nat.sub_add_cancel hlimit]
        rw [if_pos hlong, hx]
        dsimp only [Option.map_some]
        rw [ih (by simp only [List.length_append, List.length_take]; omega)
          (by rw [hnext, List.length_drop]; omega), hnext]
        conv_rhs => rw [← List.take_append_drop limit r, List.filter_append, List.take_append]
        rw [List.append_assoc, List.length_append, List.length_take]
        congr 5
        omega
      · rw [if_neg hlong, List.take_of_length_le (not_lt.mp hlong)]
    · have hfull : limit + 1 - matched.length = 0 := by omega
      rw [if_neg hopen, hfull, List.take_zero, List.append_nil]

lemma scanPages_listTimelinesPage (store : StatusStore) (wanted : TimelineRecord → Bool) :
    scanPages (fun start => .ok (listTimelinesPage store start limit)) wanted limit fuel cursor
      matched = (scanTimelines store wanted limit fuel cursor matched).map .ok := by
  induction fuel generalizing cursor matched with
  | zero => rfl
  | succ fuel ih =>
    unfold scanPages scanTimelines
    dsimp only
    split_ifs
    · rfl
    · split
      · rfl
      · exact ih
    · rfl

lemma scanPages_cut (hpage : ∀ start, page start =
      .ok (cut TimelineRecord.key limit (after TimelineRecord.key entries start)))
    (hsorted : Sorted entries) (hlimit : 0 < limit) (wanted : TimelineRecord → Bool)
    (hfuel : entries.length < fuel) :
    (scanPages page wanted limit fuel startAfter []).map
      (Except.map (cut TimelineRecord.key limit)) =
      some (.ok (cut TimelineRecord.key limit
        (after TimelineRecord.key (entries.filter wanted) startAfter))) := by
  have hlen : (after TimelineRecord.key entries startAfter).length ≤ entries.length := by
    cases startAfter with
    | none => exact le_rfl
    | some start => exact List.length_filter_le _ _
  rw [scanPages_eq hpage hsorted hlimit wanted (Nat.zero_le _) (hlen.trans_lt hfuel),
    after_filter, List.nil_append]
  exact congrArg (some ∘ Except.ok) (cut_take (Nat.lt_succ_self limit))

lemma defaultListTimelinesByStatusFilterPage_eq
    (parse : List Char → Option Nat) (states : List TimelineLifecycleState) (own : Option String)
    (hsorted : Sorted store.routes) (hcount : store.routes.length ≤ i64Max) (hlimit : 0 < limit) :
    defaultListTimelinesByStatusFilterPage parse store states own startAfter limit =
      some (cut TimelineRecord.key limit (after TimelineRecord.key
        (store.routes.filter (timelineMatchesStatusFilter parse states own)) startAfter)) := by
  unfold defaultListTimelinesByStatusFilterPage
  split_ifs with hall
  · obtain ⟨hstates, hown⟩ : states = [] ∧ own = none := by simpa using hall
    subst hstates hown
    have hwanted : timelineMatchesStatusFilter parse [] none = fun _ => true := rfl
    rw [listTimelinesPage_eq hsorted hcount hlimit, hwanted, List.filter_true]
  · exact absurd ‹limit = 0› hlimit.ne'
  · have hscan : (scanPages (fun start => .ok (listTimelinesPage store start limit))
        (timelineMatchesStatusFilter parse states own) limit (store.routes.length + 1) startAfter
          []).map (Except.map (cut TimelineRecord.key limit)) = _ :=
      scanPages_cut (fun _ => congrArg _ (listTimelinesPage_eq hsorted hcount hlimit))
        hsorted hlimit
        (timelineMatchesStatusFilter parse states own) (Nat.lt_succ_self _)
    rw [scanPages_listTimelinesPage, map_map] at hscan
    obtain ⟨matched, hmatched, heq⟩ := map_eq_some_iff.mp hscan
    rw [hmatched, map_some, Except.ok.inj heq]

end Chronos
