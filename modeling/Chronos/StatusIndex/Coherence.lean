import Chronos.StatusIndex.Programs

/-! When the status indexes agree with the timeline records, and what the transactions make of it.
-/

namespace Chronos

open KeyValue List

namespace IndexWorld

variable (w : IndexWorld)

def Sound : Prop :=
  ∀ key value, key ≠ timelineStatusIndexMarkerKey → w.status key = some value →
    ∃ entry ∈ w.routes, key ∈ timelineStatusIndexKeys entry.record ∧ value = .record entry.record

def Covered (entry : RouteEntry) : Prop :=
  ∀ key ∈ timelineStatusIndexKeys entry.record, w.status key = some (.record entry.record)

def Uncovered (entry : RouteEntry) : Prop := entry ∈ w.routes ∧ ¬ w.Covered entry

/-- The index entries are exactly, for each record, its owner key and its state key, mapped to
it. -/
structure Coherent : Prop where
  sound : w.Sound
  covered : ∀ entry ∈ w.routes, w.Covered entry

def MarkerCurrent : Prop :=
  w.status timelineStatusIndexMarkerKey = some (.text currentStatusIndexVersion)

instance : Decidable w.MarkerCurrent := inferInstanceAs (Decidable (_ = _))

/-- The records are a map from keys, each under the key it names, written at past revisions. -/
structure Wellformed : Prop where
  ordered : Ordered RouteEntry.key w.routes
  keyed : ∀ entry ∈ w.routes, entry.record.key = entry.key
  positive : ∀ entry ∈ w.routes, 0 < entry.modRevision
  bounded : ∀ entry ∈ w.routes, entry.modRevision ≤ w.revision

def rewrite (key : String) (previous : Option TimelineRecord) (record : TimelineRecord) :
    IndexWorld :=
  (IndexTxnOp.putRoute key record :: timelineStatusIndexReplaceOps previous record).foldl apply w

end IndexWorld

variable {w : IndexWorld} {key : String} {record : TimelineRecord} {entry : RouteEntry}
  {prev : Option TimelineRecord}

lemma IndexWorld.Wellformed.getRoute_eq_some (h : w.Wellformed) :
    w.getRoute key = some entry ↔ entry ∈ w.routes ∧ entry.key = key :=
  h.ordered.find?_eq_some

lemma IndexWorld.Wellformed.routeRevision_of_mem (h : w.Wellformed) (hentry : entry ∈ w.routes) :
    w.routeRevision entry.key = entry.modRevision := by
  rw [IndexWorld.routeRevision, h.getRoute_eq_some.mpr ⟨hentry, rfl⟩]
  rfl

lemma IndexWorld.Wellformed.notMem_of_routeRevision (h : w.Wellformed)
    (hzero : w.routeRevision key = 0) : ∀ entry ∈ w.routes, entry.key ≠ key := by
  rintro entry hentry rfl
  have hpos := h.positive entry hentry
  rw [h.routeRevision_of_mem hentry] at hzero
  omega

lemma foldl_setStatus {op : String → IndexTxnOp} {value : Option StatusValue}
    (hop : ∀ w key, IndexWorld.apply w (op key) =
      { w with status := fun other => if other = key then value else w.status other })
    (keys : List String) (w : IndexWorld) :
    (keys.map op).foldl IndexWorld.apply w =
      { w with status := fun key => if key ∈ keys then value else w.status key } := by
  induction keys generalizing w with
  | nil => simp
  | cons first rest ih =>
    rw [map_cons, foldl_cons, ih, hop]
    simp only [IndexWorld.mk.injEq, true_and, and_true]
    funext key
    by_cases hrest : key ∈ rest
    · simp [hrest]
    by_cases hfirst : key = first
    · simp [hfirst]
    · simp [hrest, hfirst]

lemma putOps_eq (w : IndexWorld) (record : TimelineRecord) :
    (timelineStatusIndexPutOps record).foldl IndexWorld.apply w =
      { w with status := fun key =>
          if key ∈ timelineStatusIndexKeys record then some (.record record) else w.status key } :=
  foldl_setStatus (fun _ _ => rfl) _ w

lemma rewrite_eq (w : IndexWorld) (key : String) (prev : Option TimelineRecord)
    (record : TimelineRecord) :
    w.rewrite key prev record =
      { w with
        routes := insertOrdered RouteEntry.key ⟨key, record, w.revision⟩ w.routes
        status := fun other =>
          if other ∈ timelineStatusIndexKeys record then some (.record record)
          else if ∃ old, prev = some old ∧ other ∈ timelineStatusIndexKeys old then none
          else w.status other } := by
  unfold IndexWorld.rewrite timelineStatusIndexReplaceOps
  rw [foldl_cons]
  rw [foldl_append, putOps_eq]
  cases prev with
  | none => simp [IndexWorld.apply]
  | some old =>
    rw [foldl_setStatus fun _ _ => rfl]
    simp only [IndexWorld.apply, IndexWorld.mk.injEq, true_and, and_true]
    funext other
    by_cases hnext : other ∈ timelineStatusIndexKeys record
    · simp [hnext]
    · by_cases hold : other ∈ timelineStatusIndexKeys old
      · simp [hnext, hold]
      · simp [hnext, hold]

def Replaces (w : IndexWorld) (key : String) (previous : Option TimelineRecord) : Prop :=
  ∀ entry ∈ w.routes, entry.key = key → previous = some entry.record

section

variable (hw : w.Wellformed) (hkey : record.key = key)
include hw

lemma mem_routes_rewrite : entry ∈ (w.rewrite key prev record).routes ↔
      entry = ⟨key, record, w.revision⟩ ∨ entry ∈ w.routes ∧ entry.key ≠ key := by
  rw [rewrite_eq]
  exact mem_insertOrdered hw.ordered

include hkey

lemma status_rewrite_of_ne (hold : ∀ old, prev = some old → old.key = key)
    (hentry : entry ∈ w.routes)
    (hne : entry.key ≠ key) {other : String}
    (hother : other ∈ timelineStatusIndexKeys entry.record) :
    (w.rewrite key prev record).status other = w.status other := by
  have hapart : ∀ r : TimelineRecord, r.key = key → other ∉ timelineStatusIndexKeys r := by
    intro r hr hmem
    have hsame := key_eq_of_mem_indexKeys hother hmem
    rw [hw.keyed entry hentry, hr] at hsame
    exact hne hsame
  rw [rewrite_eq]
  dsimp only
  rw [if_neg (hapart record hkey), if_neg]
  rintro ⟨old, hsome, hmem⟩
  exact hapart old (hold old hsome) hmem

omit hkey in
lemma Sound_rewrite (hprev : Replaces w key prev) (hsound : w.Sound) :
    (w.rewrite key prev record).Sound := by
  intro other value hmarker hstatus
  rw [rewrite_eq] at hstatus
  dsimp only at hstatus
  split_ifs at hstatus with hnew hgone
  · refine ⟨⟨key, record, w.revision⟩, (mem_routes_rewrite hw).mpr (.inl rfl), hnew, ?_⟩
    exact (Option.some.inj hstatus).symm
  obtain ⟨entry, hentry, hmem, rfl⟩ := hsound other value hmarker hstatus
  refine ⟨entry, (mem_routes_rewrite hw).mpr (.inr ⟨hentry, fun hsame => ?_⟩), hmem, rfl⟩
  exact hgone ⟨entry.record, hprev entry hentry hsame, hmem⟩

lemma uncovered_rewrite (hold : ∀ old, prev = some old → old.key = key)
    (h : (w.rewrite key prev record).Uncovered entry) : w.Uncovered entry := by
  obtain ⟨hmem, hnot⟩ := h
  rcases (mem_routes_rewrite hw).mp hmem with rfl | ⟨hentry, hne⟩
  · refine absurd (fun other hother => ?_) hnot
    rw [rewrite_eq]
    dsimp only
    rw [if_pos hother]
  · refine ⟨hentry, fun hcovered => hnot fun other hother => ?_⟩
    rw [status_rewrite_of_ne hw hkey hold hentry hne hother]
    exact hcovered other hother

lemma Wellformed_rewrite (hrev : 0 < w.revision) : (w.rewrite key prev record).Wellformed := by
  have hmem : ∀ entry, entry ∈ (w.rewrite key prev record).routes ↔
      entry = ⟨key, record, w.revision⟩ ∨ entry ∈ w.routes ∧ entry.key ≠ key :=
    fun _ => mem_routes_rewrite hw
  have hfields : (w.rewrite key prev record).revision = w.revision := by rw [rewrite_eq]
  refine ⟨?_, fun entry hentry => ?_, fun entry hentry => ?_, fun entry hentry => ?_⟩
  · rw [rewrite_eq]
    exact hw.ordered.insert
  all_goals rcases (hmem entry).mp hentry with rfl | ⟨hentry, -⟩
  · exact hkey
  · exact hw.keyed entry hentry
  · exact hrev
  · exact hw.positive entry hentry
  · rw [hfields]
  · rw [hfields]
    exact hw.bounded entry hentry

end

end Chronos
