import Chronos.StatusIndex.Coherence

/-! What a step of the timeline store can do: a transaction whose comparisons hold, or something
that leaves the records and the indexes alone. -/

namespace Chronos

open Interleaving KeyValue List

namespace IndexWorld

structure Grows (w w' : IndexWorld) : Prop where
  nextLease : w.nextLease ≤ w'.nextLease
  revision : w.revision ≤ w'.revision
  routes : ∀ entry ∈ w.routes, ∃ entry' ∈ w'.routes, entry'.key = entry.key ∧
    entry.modRevision ≤ entry'.modRevision ∧
      (entry'.modRevision = entry.modRevision → entry' = entry)

instance : Preorder IndexWorld where
  le := Grows
  le_refl w := ⟨le_rfl, le_rfl, fun entry hentry => ⟨entry, hentry, rfl, le_rfl, fun _ => rfl⟩⟩
  le_trans w₁ w₂ w₃ h h' := by
    refine ⟨h.nextLease.trans h'.nextLease, h.revision.trans h'.revision, fun entry hentry => ?_⟩
    obtain ⟨entry', hentry', hkey, hle, hsame⟩ := h.routes entry hentry
    obtain ⟨entry'', hentry'', hkey', hle', hsame'⟩ := h'.routes entry' hentry'
    refine ⟨entry'', hentry'', hkey'.trans hkey, hle.trans hle', fun hrevision => ?_⟩
    have hfirst : entry' = entry := hsame (by omega)
    rw [hsame' (by omega), hfirst]

def Seen (w : IndexWorld) (entry : RouteEntry) : Prop :=
  ∃ entry' ∈ w.routes, entry'.key = entry.key ∧ entry.modRevision ≤ entry'.modRevision ∧
    (entry'.modRevision = entry.modRevision → entry' = entry)

structure Quiet (w w' : IndexWorld) : Prop where
  revision : w'.revision = w.revision
  routes : w'.routes = w.routes
  status : w'.status = w.status
  lock : ∀ name token, w'.lock name = some token → w.lock name = some token
  nextLease : w.nextLease ≤ w'.nextLease

variable {w w' : IndexWorld} {entry : RouteEntry} {req : IndexTxn}

lemma Seen.of_mem (h : entry ∈ w.routes) : w.Seen entry := ⟨entry, h, rfl, le_rfl, fun _ => rfl⟩

lemma Seen.mono (h : w.Seen entry) (hle : w ≤ w') : w'.Seen entry := by
  obtain ⟨entry', hentry', hkey, hrev, hsame⟩ := h
  obtain ⟨entry'', hentry'', hkey', hrev', hsame'⟩ := hle.routes entry' hentry'
  refine ⟨entry'', hentry'', hkey'.trans hkey, hrev.trans hrev', fun heq => ?_⟩
  have hfirst : entry' = entry := hsame (by omega)
  rw [hsame' (by omega), hfirst]

lemma Seen.mem (h : w.Seen entry) (hw : w.Wellformed)
    (hrev : w.routeRevision entry.key = entry.modRevision) : entry ∈ w.routes := by
  obtain ⟨entry', hentry', hkey, -, hsame⟩ := h
  rw [← hkey, hw.routeRevision_of_mem hentry'] at hrev
  rw [← hsame hrev]
  exact hentry'

lemma Quiet.refl (w : IndexWorld) : w.Quiet w := ⟨rfl, rfl, rfl, fun _ _ h => h, le_rfl⟩

lemma Quiet.grant (w : IndexWorld) : w.Quiet w.grant :=
  ⟨rfl, rfl, rfl, fun _ _ h => h, Nat.le_succ _⟩

lemma Quiet.revoke (w : IndexWorld) (lease : Nat) : w.Quiet (w.revoke lease) :=
  ⟨rfl, rfl, rfl, fun _ _ h => (Option.filter_eq_some_iff.mp h).1, le_rfl⟩

lemma Quiet.le (h : w.Quiet w') : w ≤ w' := by
  refine ⟨h.nextLease, h.revision.ge, fun entry hentry => ?_⟩
  exact ⟨entry, h.routes ▸ hentry, rfl, le_rfl, fun _ => rfl⟩

lemma Quiet.wellformed (h : w.Quiet w') (hw : w.Wellformed) : w'.Wellformed :=
  ⟨h.routes ▸ hw.ordered, h.routes ▸ hw.keyed, h.routes ▸ hw.positive,
    by rw [h.routes, h.revision]; exact hw.bounded⟩

variable {c : IndexChoice} {record : TimelineRecord} {lock : Option Nat}
  {operations : List TimelineExchange}

lemma exec_cases {o : IndexOp} {r : o.Reply} (h : indexExec () o c w = some (r, w')) :
    (∃ req, o = .txn req ∧ w.admits req = true ∧ w' = w.commit req) ∨ w.Quiet w' := by
  unfold indexExec at h
  split at h
  · split_ifs at h with hlease hadmits
    · cases h
      exact .inr (.refl w)
    · cases h
      exact .inl ⟨_, rfl, hadmits, rfl⟩
    · cases h
      exact .inr (.refl w)
  · split_ifs at h with hadmits
    · cases h
      exact .inl ⟨_, rfl, (Bool.and_eq_true_iff.mp hadmits).2, rfl⟩
    · cases h
      exact .inr (.refl w)
  all_goals cases h
  all_goals first
      | exact .inr (.refl _)
      | exact .inr (.grant _)
      | exact .inr (.revoke _ _)

lemma exec_txn {r : Except String (Option Nat)} (h : indexExec () (.txn req) c w = some (r, w')) :
    (w.admits req = true ∧ w' = w.commit req ∧ r ≠ .ok none) ∨
      (w' = w ∧ ∀ x, r = .ok x → x = none ∧ w.admits req = false) := by
  cases c with
  | done =>
    simp only [indexExec] at h
    split_ifs at h with hlease hadmits
    · cases h
      exact .inr ⟨rfl, fun _ hx => nomatch hx⟩
    · cases h
      exact .inl ⟨hadmits, rfl, by simp⟩
    cases h
    refine .inr ⟨rfl, fun x hx => ?_⟩
    cases hx
    exact ⟨rfl, by simpa using hadmits⟩
  | lost msg =>
    simp only [indexExec] at h
    split_ifs at h with hadmits
    · cases h
      exact .inl ⟨(Bool.and_eq_true_iff.mp hadmits).2, rfl, by simp⟩
    · cases h
      exact .inr ⟨rfl, fun _ hx => nomatch hx⟩
  | down msg =>
    cases h
    exact .inr ⟨rfl, fun _ hx => nomatch hx⟩
  | flag value => cases h

lemma admits_fence {name : LockName} {token : Nat} (h : w.admits req = true)
    (hmem : .lockValue name token ∈ req.compares) : w.lock name = some token := by
  have hholds := all_eq_true.mp h _ hmem
  exact of_decide_eq_true hholds

lemma admits_routeRevision {key : String} {rev : Nat} (h : w.admits req = true)
    (hmem : .routeRevision key rev ∈ req.compares) : w.routeRevision key = rev := by
  have hholds := all_eq_true.mp h _ hmem
  exact of_decide_eq_true hholds

def Fits (w : IndexWorld) : IndexTxn → Prop
  | .create key record _ => record.key = key
  | .exchange operations => (operations.map TimelineExchange.key).Nodup ∧
      ∀ x ∈ operations, x.record.key = x.key ∧ w.Seen ⟨x.key, x.previousRecord, x.previousRevision⟩
  | .indexRoute _ entry => w.Seen entry
  | _ => True

structure Rewritten (w w' : IndexWorld) : Prop where
  revision : w'.revision = w.revision
  nextLease : w'.nextLease = w.nextLease
  lock : w'.lock = w.lock
  marker : w'.status timelineStatusIndexMarkerKey = w.status timelineStatusIndexMarkerKey
  wellformed : w'.Wellformed
  sound : w.Sound → w'.Sound
  uncovered : ∀ entry, w'.Uncovered entry → w.Uncovered entry
  routes : ∀ entry ∈ w.routes, entry ∈ w'.routes ∨
    ∃ entry' ∈ w'.routes, entry'.key = entry.key ∧ entry'.modRevision = w.revision

lemma Rewritten.trans {w'' : IndexWorld} (h : w.Rewritten w') (h' : w'.Rewritten w'') :
    w.Rewritten w'' := by
  refine ⟨h'.revision.trans h.revision, h'.nextLease.trans h.nextLease, h'.lock.trans h.lock,
    h'.marker.trans h.marker, h'.wellformed, fun hs => h'.sound (h.sound hs),
    fun entry hentry => h.uncovered entry (h'.uncovered entry hentry), fun entry hentry => ?_⟩
  have hlater : ∀ e ∈ w'.routes, e.key = entry.key → e.modRevision = w.revision →
      ∃ entry' ∈ w''.routes, entry'.key = entry.key ∧ entry'.modRevision = w.revision := by
    intro e he hkey hrev
    rcases h'.routes e he with he | ⟨e', he', hkey', hrev'⟩
    · exact ⟨e, he, hkey, hrev⟩
    · exact ⟨e', he', hkey'.trans hkey, hrev'.trans h.revision⟩
  rcases h.routes entry hentry with hentry | ⟨e, he, hkey, hrev⟩
  · rcases h'.routes entry hentry with hentry | ⟨e, he, hkey, hrev⟩
    · exact .inl hentry
    · exact .inr ⟨e, he, hkey, hrev.trans h.revision⟩
  · exact .inr (hlater e he hkey hrev)

lemma Rewritten.of_rewrite {key : String} {prev : Option TimelineRecord}
    (hw : w.Wellformed) (hpos : 0 < w.revision)
    (hkey : record.key = key) (hprev : Replaces w key prev)
    (hold : ∀ old, prev = some old → old.key = key) :
    w.Rewritten (w.rewrite key prev record) := by
  refine ⟨by rw [rewrite_eq], by rw [rewrite_eq], by rw [rewrite_eq], ?_,
    Wellformed_rewrite hw hkey hpos, Sound_rewrite hw hprev,
    fun entry => uncovered_rewrite hw hkey hold, fun entry hentry => ?_⟩
  · rw [rewrite_eq]
    dsimp only
    rw [if_neg (marker_notMem_indexKeys record), if_neg]
    rintro ⟨old, -, hmem⟩
    exact marker_notMem_indexKeys old hmem
  · by_cases hsame : entry.key = key
    · exact .inr ⟨⟨key, record, w.revision⟩, (mem_routes_rewrite hw).mpr (.inl rfl),
        hsame.symm, rfl⟩
    · exact .inl ((mem_routes_rewrite hw).mpr (.inr ⟨hentry, hsame⟩))

def advance (w : IndexWorld) : IndexWorld := { w with revision := w.revision + 1 }

lemma Wellformed.advance (hw : w.Wellformed) : w.advance.Wellformed :=
  ⟨hw.ordered, hw.keyed, hw.positive, fun entry hentry => (hw.bounded entry hentry).trans
    (Nat.le_succ _)⟩

lemma commit_create (key : String) (record : TimelineRecord) (lock : Option Nat) :
    w.commit (.create key record lock) = w.advance.rewrite key none record := rfl

lemma commit_exchange (operations : List TimelineExchange) :
    w.commit (.exchange operations) = operations.foldl
      (fun w x => w.rewrite x.key (some x.previousRecord) x.record) w.advance := by
  unfold commit IndexTxn.ops
  rw [foldl_flatMap]
  rfl

lemma Rewritten.of_create {key : String}
    (hw : w.Wellformed) (hfits : w.Fits (.create key record lock))
    (hadmits : w.admits (.create key record lock) = true) :
    w.advance.Rewritten (w.commit (.create key record lock)) := by
  rw [commit_create]
  have hzero : w.routeRevision key = 0 := admits_routeRevision hadmits mem_cons_self
  refine .of_rewrite hw.advance (Nat.succ_pos _) hfits (fun entry hentry hkey => ?_)
    fun old hold => nomatch hold
  exact absurd hkey (hw.notMem_of_routeRevision hzero entry hentry)

lemma Rewritten.of_exchanges (hw : w.Wellformed)
    (hpos : 0 < w.revision) (hnodup : (operations.map TimelineExchange.key).Nodup)
    (hkeys : ∀ x ∈ operations, x.record.key = x.key)
    (hreads : ∀ x ∈ operations, ⟨x.key, x.previousRecord, x.previousRevision⟩ ∈ w.routes) :
    w.Rewritten (operations.foldl
      (fun w x => w.rewrite x.key (some x.previousRecord) x.record) w) := by
  induction operations generalizing w with
  | nil => exact ⟨rfl, rfl, rfl, rfl, hw, id, fun _ h => h, fun _ h => .inl h⟩
  | cons x rest ih =>
    obtain ⟨hfresh, hrest⟩ := nodup_cons.mp hnodup
    have hread := hreads x mem_cons_self
    have hfirst : w.Rewritten (w.rewrite x.key (some x.previousRecord) x.record) := by
      refine .of_rewrite hw hpos (hkeys x mem_cons_self) (fun entry hentry hkey => ?_) ?_
      · rw [hw.ordered.eq_of_key_eq hentry hread hkey]
      intro old hold
      cases hold
      exact hw.keyed _ hread
    have hlater : 0 < (w.rewrite x.key (some x.previousRecord) x.record).revision := by
      rw [hfirst.revision]
      exact hpos
    rw [foldl_cons]
    refine hfirst.trans (ih hfirst.wellformed hlater hrest
      (fun y hy => hkeys y (mem_cons_of_mem x hy)) fun y hy => ?_)
    refine (mem_routes_rewrite hw).mpr (.inr ⟨hreads y (mem_cons_of_mem x hy), fun hkey => ?_⟩)
    exact hfresh (mem_map.mpr ⟨y, hy, hkey⟩)

lemma length_exchanges (hw : w.Wellformed)
    (hpos : 0 < w.revision) (hnodup : (operations.map TimelineExchange.key).Nodup)
    (hkeys : ∀ x ∈ operations, x.record.key = x.key)
    (hreads : ∀ x ∈ operations, ⟨x.key, x.previousRecord, x.previousRevision⟩ ∈ w.routes) :
    (operations.foldl (fun w x => w.rewrite x.key (some x.previousRecord) x.record)
      w).routes.length = w.routes.length := by
  induction operations generalizing w with
  | nil => rfl
  | cons x rest ih =>
    obtain ⟨hfresh, hrest⟩ := nodup_cons.mp hnodup
    have hread := hreads x mem_cons_self
    have hkey := hkeys x mem_cons_self
    have hlen : (w.rewrite x.key (some x.previousRecord) x.record).routes.length =
        w.routes.length := by
      rw [rewrite_eq]
      exact length_insertOrdered_of_mem hw.ordered hread rfl
    rw [foldl_cons, ih (Wellformed_rewrite hw hkey hpos) ?_ hrest
      (fun y hy => hkeys y (mem_cons_of_mem x hy)) fun y hy => ?_, hlen]
    · rw [rewrite_eq]
      exact hpos
    · refine (mem_routes_rewrite hw).mpr (.inr ⟨hreads y (mem_cons_of_mem x hy), fun hsame => ?_⟩)
      exact hfresh (mem_map.mpr ⟨y, hy, hsame⟩)

lemma reads_of_admits (hw : w.Wellformed)
    (hfits : w.Fits (.exchange operations)) (hadmits : w.admits (.exchange operations) = true) :
    ∀ x ∈ operations, ⟨x.key, x.previousRecord, x.previousRevision⟩ ∈ w.routes := by
  intro x hx
  refine (hfits.2 x hx).2.mem hw (admits_routeRevision hadmits ?_)
  exact mem_map.mpr ⟨x, hx, rfl⟩

lemma Rewritten.of_exchange (hw : w.Wellformed)
    (hfits : w.Fits (.exchange operations)) (hadmits : w.admits (.exchange operations) = true) :
    w.advance.Rewritten (w.commit (.exchange operations)) := by
  have hreads := reads_of_admits hw hfits hadmits
  rw [commit_exchange]
  exact .of_exchanges hw.advance (Nat.succ_pos _) hfits.1 (fun x hx => (hfits.2 x hx).1) hreads

lemma length_commit_exchange (hw : w.Wellformed)
    (hfits : w.Fits (.exchange operations)) (hadmits : w.admits (.exchange operations) = true) :
    (w.commit (.exchange operations)).routes.length = w.routes.length := by
  have hreads := reads_of_admits hw hfits hadmits
  rw [commit_exchange]
  exact length_exchanges hw.advance (Nat.succ_pos _) hfits.1 (fun x hx => (hfits.2 x hx).1) hreads

lemma length_commit_create {key : String} :
    (w.commit (.create key record lock)).routes.length ≤ w.routes.length + 1 := by
  exact length_insertOrdered_le _ _

lemma commit_cases (hw : w.Wellformed) (hfits : w.Fits req) (hadmits : w.admits req = true) :
    w.advance.Rewritten (w.commit req) ∨ ((w.commit req).routes = w.routes ∧
      (w.commit req).revision = w.revision + 1 ∧ (w.commit req).nextLease = w.nextLease) := by
  cases req with
  | create key record lock => exact .inl (.of_create hw hfits hadmits)
  | exchange operations => exact .inl (.of_exchange hw hfits hadmits)
  | acquire name token => exact .inr ⟨rfl, rfl, rfl⟩
  | cleanup token => exact .inr ⟨rfl, rfl, rfl⟩
  | indexRoute token entry => exact .inr ⟨rfl, rfl, rfl⟩
  | publish token => exact .inr ⟨rfl, rfl, rfl⟩

lemma Wellformed.commit (hw : w.Wellformed) (hfits : w.Fits req)
    (hadmits : w.admits req = true) : (w.commit req).Wellformed := by
  rcases commit_cases hw hfits hadmits with hwritten | ⟨hroutes, hrev, -⟩
  · exact hwritten.wellformed
  refine ⟨hroutes ▸ hw.ordered, hroutes ▸ hw.keyed, hroutes ▸ hw.positive, ?_⟩
  rw [hroutes, hrev]
  exact fun entry hentry => (hw.bounded entry hentry).trans (Nat.le_succ _)

lemma le_commit (hw : w.Wellformed) (hfits : w.Fits req)
    (hadmits : w.admits req = true) : w ≤ w.commit req := by
  rcases commit_cases hw hfits hadmits with hwritten | ⟨hroutes, hrev, hlease⟩
  · refine ⟨hwritten.nextLease.ge, ?_, fun entry hentry => ?_⟩
    · rw [hwritten.revision]
      exact Nat.le_succ _
    rcases hwritten.routes entry hentry with hsame | ⟨entry', hentry', hkey, hnew⟩
    · exact ⟨entry, hsame, rfl, le_rfl, fun _ => rfl⟩
    -- a record that was written has a revision of its own
    have hlt : entry.modRevision < entry'.modRevision := by
      rw [hnew]
      exact Nat.lt_succ_of_le (hw.bounded entry hentry)
    exact ⟨entry', hentry', hkey, hlt.le, fun heq => absurd heq hlt.ne'⟩
  · refine ⟨hlease.ge, hrev ▸ Nat.le_succ _, fun entry hentry => ?_⟩
    exact ⟨entry, hroutes ▸ hentry, rfl, le_rfl, fun _ => rfl⟩

end IndexWorld

end Chronos
