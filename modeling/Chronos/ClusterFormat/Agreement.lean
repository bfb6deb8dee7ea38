import Chronos.ClusterFormat.Marker
import Chronos.Interleaving.Discipline

/-! All workers that start on one prefix have one timestamp layout. -/

namespace Chronos

open Interleaving KeyValue List

namespace ClusterWorld

variable (w : ClusterWorld)

def Stored (layout : TimestampLayout) : Prop :=
  w.format = some (.ok expectedFormat) ∧ w.layout = some (.ok layout)

def Clear (place : DataPrefix) (since : Nat) : Prop :=
  since ≤ w.revision ∧ ∀ entry ∈ w.data place,
    (place = .status → entry.name ≠ timelineStatusIndexMarkerKey) → since < entry.createRevision

def OnlySince (since : Nat) : Prop := ∀ place, w.Clear place since

def Wellformed : Prop := ∀ place, Ordered DataEntry.name (w.data place)

structure Follows (w w' : ClusterWorld) : Prop where
  stored : ∀ layout, w.Stored layout → w'.Stored layout
  revision : w.revision ≤ w'.revision
  data : ∀ place, ∀ entry ∈ w'.data place, entry.createRevision ≤ w.revision → entry ∈ w.data place
  probes : w.probes ⊆ w'.probes

instance : Preorder ClusterWorld where
  le := Follows
  le_refl _ := ⟨fun _ h => h, Nat.le_refl _, fun _ _ h _ => h, List.Subset.refl _⟩
  le_trans _ _ _ h h' := ⟨fun layout hw => h'.stored layout (h.stored layout hw),
    h.revision.trans h'.revision, fun place entry hentry hold =>
      h.data place entry (h'.data place entry hentry (hold.trans h.revision)) hold,
    List.Subset.trans h.probes h'.probes⟩

variable {w} {w' : ClusterWorld} {place : DataPrefix} {since : Nat}

lemma Clear.mono (h : w.Clear place since) (hle : w ≤ w') : w'.Clear place since := by
  refine ⟨h.1.trans hle.revision, fun entry hentry hname => ?_⟩
  by_cases hold : entry.createRevision ≤ w.revision
  · exact h.2 entry (hle.data place entry hentry hold) hname
  · have hsince := h.1
    omega

lemma Clear.of_le {began : Nat} (h : w.Clear place since) (hbegan : began ≤ since) :
    w.Clear place began :=
  ⟨hbegan.trans h.1, fun entry hentry hname => hbegan.trans_lt (h.2 entry hentry hname)⟩

lemma le_probed (worker : Nat) : w ≤ w.probed worker :=
  ⟨fun _ h => h, Nat.le_refl _, fun _ _ h _ => h, List.subset_cons_self _ _⟩

/-- The data check of a worker began with the answer of that revision, and whatever the prefix holds
was written after it. -/
def CheckedSince (w : ClusterWorld) (worker since : Nat) : Prop :=
  (worker, since) ∈ w.probes ∧ w.OnlySince since

lemma CheckedSince.mono {worker : Nat} (h : w.CheckedSince worker since) (hle : w ≤ w') :
    w'.CheckedSince worker since :=
  ⟨hle.probes h.1, fun place => (h.2 place).mono hle⟩

lemma Stored.eq {layout layout' : TimestampLayout} (h : w.Stored layout)
    (h' : w.Stored layout') : layout = layout' := by
  have heq := h.2.symm.trans h'.2
  cases heq
  rfl

end ClusterWorld

section

variable {w w' : ClusterWorld} {req : ClusterTxn}

lemma not_stored_of_admits {layout : TimestampLayout} (h : w.admits req = true) :
    ¬ w.Stored layout := by
  rintro ⟨hformat, -⟩
  cases req with
  | migrate layout =>
    simp only [ClusterWorld.admits, hformat, Bool.and_eq_true] at h
    exact absurd (of_decide_eq_true h.1) (by decide +kernel)
  | create layout => simp [ClusterWorld.admits, hformat] at h

lemma le_clusterCommit (h : w.admits req = true) : w ≤ w.commit req :=
  ⟨fun _ hstored => absurd hstored (not_stored_of_admits h), Nat.le_succ _,
    fun _ _ hentry _ => hentry,
    List.Subset.refl _⟩

lemma clusterExec_cases {worker : Nat} {o : ClusterOp} {c : ClusterChoice} {r : o.Reply}
    (h : clusterExec worker o c w = some (r, w')) :
    w' = w ∨ w' = w.probed worker ∨
      ∃ req, o = .txn req ∧ w.admits req = true ∧ w' = w.commit req := by
  unfold clusterExec at h
  split at h
  · cases h
    exact .inl rfl
  · cases h
    exact .inr (.inl rfl)
  · split_ifs at h with hadmits
    · cases h
      exact .inr (.inr ⟨_, rfl, hadmits, rfl⟩)
    · cases h
      exact .inl rfl
  · cases h
    split_ifs with hadmits
    · exact .inr (.inr ⟨_, rfl, hadmits, rfl⟩)
    · exact .inl rfl
  all_goals cases h
  all_goals exact .inl rfl

lemma ClusterWorld.Wellformed.put (h : w.Wellformed) (place : DataPrefix) (name : String) :
    (w.put place name).Wellformed := by
  intro other
  change Ordered DataEntry.name (if _ then _ else _)
  split_ifs
  · exact (h other).insert
  · exact h other

lemma ClusterWorld.Wellformed.delete (h : w.Wellformed) (place : DataPrefix) (name : String) :
    (w.delete place name).Wellformed := by
  intro other
  change Ordered DataEntry.name (if _ then _ else _)
  split_ifs
  · exact (h other).filter _
  · exact h other

lemma le_clusterPut (h : w.Wellformed) (place : DataPrefix) (name : String) :
    w ≤ w.put place name := by
  refine ⟨fun _ hstored => hstored, Nat.le_succ _, fun other entry hentry hold => ?_,
    List.Subset.refl _⟩
  change entry ∈ (if _ then _ else _) at hentry
  split_ifs at hentry
  · rcases (mem_insertOrdered (h other)).mp hentry with rfl | ⟨hentry, -⟩
    · exact absurd hold (Nat.not_succ_le_self w.revision)
    · exact hentry
  · exact hentry

lemma le_clusterDelete (place : DataPrefix) (name : String) : w ≤ w.delete place name := by
  refine ⟨fun _ hstored => hstored, Nat.le_succ _, fun other entry hentry _ => ?_,
    List.Subset.refl _⟩
  change entry ∈ (if _ then _ else _) at hentry
  split_ifs at hentry
  · exact mem_of_mem_filter hentry
  · exact hentry

end

def ClusterOp.Allowed (worker : Nat) : ClusterOp → ClusterWorld → Prop
  | .txn (.migrate layout), _ => layout = defaultTimestampLayout
  | .txn (.create layout), w => layout ≠ defaultTimestampLayout →
      ∃ since, w.CheckedSince worker since
  | _, _ => True

def clusterDiscipline : Discipline clusterMachine where
  Inv := ClusterWorld.Wellformed
  Allowed := ClusterOp.Allowed
  exec_inv hinv _ hexec := by
    rcases clusterExec_cases hexec with rfl | rfl | ⟨request, -, -, rfl⟩ <;> exact hinv
  exec_le _ _ hexec := by
    rcases clusterExec_cases hexec with rfl | rfl | ⟨request, -, hadmits, rfl⟩
    · exact le_rfl
    · exact ClusterWorld.le_probed _
    · exact le_clusterCommit hadmits
  env_inv {e _ _} hinv henv := by
    cases e with
    | put place name =>
      cases henv
      exact hinv.put place name
    | delete place name =>
      cases henv
      exact hinv.delete place name
  env_le {e _ _} hinv henv := by
    cases e with
    | put place name =>
      cases henv
      exact le_clusterPut hinv place name
    | delete place name =>
      cases henv
      exact le_clusterDelete place name

section

open Discipline

variable {α : Type} {worker : Nat} {w : ClusterWorld} {R : α → ClusterWorld → Prop}

abbrev ClusterSafe (worker : Nat) (prog : ClusterProg α) (R : α → ClusterWorld → Prop)
    (w : ClusterWorld) : Prop :=
  clusterDiscipline.Safe worker prog (OnOk R) w

lemma clusterSafe_orInternal {context : String} {request : ClusterProg (Except String α)}
    (hR : ∀ x w1 w2, w1 ≤ w2 → R x w1 → R x w2)
    (h : ∀ w1, w ≤ w1 → w1.Wellformed →
      ClusterSafe worker request (fun r w2 => ∀ x, r = .ok x → R x w2) w1)
    (hinv : w.Wellformed) :
    ClusterSafe worker (orInternal context (retryClusterRequest request)) R w := by
  have hagain : ∀ w1, w ≤ w1 → w1.Wellformed →
      ClusterSafe worker (clusterCall .retryAllowed) (fun _ _ => True) w1 :=
    fun _ _ _ => safe_op fun _ _ _ => ⟨trivial, fun _ _ _ _ _ _ => trivial⟩
  have hretry := Safe.retry (D := clusterDiscipline) hR h hagain hinv 3
  refine Safe.bind hretry hinv fun r w1 _ _ hr => ?_
  cases r with
  | ok x => exact safe_pure fun w2 h2 => hR x w1 w2 h2 (hr x rfl)
  | error message => exact safe_fail

lemma clusterSafe_getCluster (ctx : String) (hinv : w.Wellformed) :
    ClusterSafe worker (orInternal ctx (retryClusterRequest (clusterCall .getCluster)))
      (fun x w' => ∃ w1, w1 ≤ w' ∧ x = (w1.format, w1.layout)) w := by
  refine clusterSafe_orInternal (fun x w1 w2 hle h => ?_) (fun w1 _ _ => ?_) hinv
  · obtain ⟨w₀, h0, hx⟩ := h
    exact ⟨w₀, h0.trans hle, hx⟩
  refine safe_op fun w2 _ _ => ⟨trivial, fun c r w3 hexec w4 h4 x hx => ?_⟩
  cases c with
  | done =>
    cases hexec
    cases hx
    exact ⟨w2, h4, rfl⟩
  | down msg =>
    cases hexec
    cases hx
  | lost msg => cases hexec
  | flag value => cases hexec

lemma clusterSafe_probe (ctx : String) (place : DataPrefix) (limit : Nat) (hinv : w.Wellformed) :
    ClusterSafe worker (orInternal ctx (retryClusterRequest (clusterCall (.probe place limit))))
      (fun response w' => ∃ w1, w ≤ w1 ∧ w1.probed worker ≤ w' ∧ w1.Wellformed ∧
        response = ⟨w1.revision, ((w1.data place).take limit).map DataEntry.name⟩) w := by
  refine clusterSafe_orInternal (fun x w1 w2 hle h => ?_) (fun w1 h1 _ => ?_) hinv
  · obtain ⟨w₀, h0, h0', hx⟩ := h
    exact ⟨w₀, h0, h0'.trans hle, hx⟩
  refine safe_op fun w2 h2 hinv2 => ⟨trivial, fun c r w3 hexec w4 h4 x hx => ?_⟩
  cases c with
  | done =>
    cases hexec
    cases hx
    exact ⟨w2, h1.trans h2, h4, hinv2, rfl⟩
  | down msg =>
    cases hexec
    cases hx
  | lost msg => cases hexec
  | flag value => cases hexec

lemma clear_of_take_one {place : DataPrefix}
    (h : (((w.data place).take 1).map DataEntry.name).isEmpty = true) :
    w.Clear place w.revision := by
  have hempty : w.data place = [] := by
    cases hdata : w.data place with
    | nil => rfl
    | cons entry rest =>
      rw [hdata] at h
      cases h
  refine ⟨le_rfl, fun entry hentry => ?_⟩
  rw [hempty] at hentry
  cases hentry

lemma clear_of_take_two (hinv : w.Wellformed)
    (h : (((w.data .status).take 2).map DataEntry.name).any
      (fun name => name ≠ timelineStatusIndexMarkerKey) = false) : w.Clear .status w.revision := by
  refine ⟨le_rfl, fun entry hentry hname => absurd (hname rfl) (not_not.mpr ?_)⟩
  have hordered := hinv .status
  simp only [any_map, any_eq_false, Function.comp_apply, decide_eq_true_eq, not_not] at h
  match hdata : w.data .status with
  | [] =>
    rw [hdata] at hentry
    cases hentry
  | [first] =>
    rw [hdata] at h hentry
    exact h entry hentry
  | first :: second :: rest =>
    rw [hdata] at h hordered
    have hlt := rel_of_pairwise_cons hordered (mem_cons_self (l := rest))
    have hfirst := h first (by simp)
    have hsecond := h second (by simp)
    rw [hfirst, hsecond] at hlt
    exact absurd hlt (lt_irrefl _)

lemma clusterSafe_probes {began : Nat} (places : List DataPrefix) {checked : List DataPrefix}
    (hbegan : began ≤ w.revision) (hmade : (worker, began) ∈ w.probes)
    (hchecked : ∀ place ∈ checked, w.Clear place began) (hinv : w.Wellformed) :
    ClusterSafe worker (probeTimestampData (some began) places)
      (fun r w' => r.1 = some began ∧ (worker, began) ∈ w'.probes ∧ (r.2 = false →
        ∀ place, place = .status ∨ place ∈ checked ∨ place ∈ places → w'.Clear place began)) w := by
  induction places generalizing checked w with
  | nil =>
    refine Safe.bind (clusterSafe_probe _ .status 2 hinv) hinv fun response w1 h1 _ hseen => ?_
    obtain ⟨w2, h2, hprobed, hinv2, rfl⟩ := hseen
    have hle := (ClusterWorld.le_probed worker).trans hprobed
    refine safe_pure fun w3 h3 => ⟨rfl, (h1.trans h3).probes hmade, fun hfound place hplace => ?_⟩
    rcases hplace with rfl | hplace | hplace
    · have hclear := clear_of_take_two hinv2 hfound
      exact (hclear.of_le (hbegan.trans h2.revision)).mono (hle.trans h3)
    · exact (hchecked place hplace).mono (h1.trans h3)
    · cases hplace
  | cons first rest ih =>
    refine Safe.bind (clusterSafe_probe _ first 1 hinv) hinv fun response w1 h1 hinv1 hseen => ?_
    obtain ⟨w2, h2, hprobed, -, rfl⟩ := hseen
    have hle := (ClusterWorld.le_probed worker).trans hprobed
    split
    · next hempty =>
      have hclear := (clear_of_take_one hempty).of_le (hbegan.trans h2.revision)
      have hchecked1 : ∀ place ∈ first :: checked, w1.Clear place began := by
        intro place hplace
        rcases mem_cons.mp hplace with rfl | hplace
        · exact hclear.mono hle
        · exact (hchecked place hplace).mono h1
      refine (ih (hbegan.trans h1.revision) (h1.probes hmade) hchecked1 hinv1).imp
        fun r w3 h3 => ?_
      cases r with
      | error e => trivial
      | ok r =>
        refine ⟨h3.1, h3.2.1, fun hfound place hplace => h3.2.2 hfound place ?_⟩
        simp only [mem_cons] at hplace ⊢
        tauto
    · exact safe_pure fun _ h2 => ⟨rfl, (h1.trans h2).probes hmade, fun h => nomatch h⟩

lemma clusterSafe_timestampDataExists (hinv : w.Wellformed) :
    ClusterSafe worker timestampDataExists
      (fun r w' => r.2 = false → ∃ since, r.1 = some since ∧ w'.CheckedSince worker since) w := by
  refine Safe.bind (clusterSafe_probe _ .route 1 hinv) hinv fun response w1 _ hinv1 hseen => ?_
  obtain ⟨w2, -, hprobed, -, rfl⟩ := hseen
  have hle := (ClusterWorld.le_probed worker).trans hprobed
  split
  · next hempty =>
    have hchecked : ∀ place ∈ [DataPrefix.route], w1.Clear place w2.revision := by
      intro place hplace
      obtain rfl := mem_singleton.mp hplace
      exact (clear_of_take_one hempty).mono hle
    have hmade : (worker, w2.revision) ∈ w1.probes := hprobed.probes mem_cons_self
    refine (clusterSafe_probes _ hle.revision hmade hchecked hinv1).imp fun r w3 h3 => ?_
    cases r with
    | error e => trivial
    | ok r =>
      refine fun hfound => ⟨w2.revision, h3.1, h3.2.1, fun place => h3.2.2 hfound place ?_⟩
      cases place <;> simp
  · exact safe_pure fun _ _ h => nomatch h

lemma ClusterOp.Allowed.mono {o : ClusterOp} {w' : ClusterWorld} (h : o.Allowed worker w)
    (hle : w ≤ w') : o.Allowed worker w' := by
  cases o with
  | txn req =>
    cases req with
    | migrate layout => exact h
    | create layout =>
      intro hlayout
      obtain ⟨since, hsince⟩ := h hlayout
      exact ⟨since, hsince.mono hle⟩
  | _ => trivial

lemma clusterSafe_txn (ctx : String) {req : ClusterTxn}
    (hallowed : (ClusterOp.txn req).Allowed worker w) (hinv : w.Wellformed) :
    ClusterSafe worker (orInternal ctx (retryClusterRequest (clusterCall (.txn req))))
      (fun succeeded w' => succeeded = true → w'.Stored req.layout) w := by
  refine clusterSafe_orInternal (fun x w1 w2 hle h hx => hle.stored _ (h hx))
    (fun w1 h1 _ => ?_) hinv
  refine safe_op fun w2 h2 _ =>
    ⟨hallowed.mono (h1.trans h2), fun c r w3 hexec w4 h4 x hx htrue => ?_⟩
  obtain rfl : x = true := htrue
  obtain rfl : r = .ok true := hx
  refine h4.stored _ ?_
  cases c with
  | done =>
    simp only [clusterMachine, clusterExec] at hexec
    split_ifs at hexec
    · cases hexec
      exact ⟨rfl, rfl⟩
    · cases hexec
  | lost msg => cases hexec
  | down msg => cases hexec
  | flag value => cases hexec

lemma acceptStoredLayout_eq_ok {tsLayout : TimestampLayout}
    {layout : Option (Except String TimestampLayout)}
    (h : acceptStoredLayout tsLayout layout = .ok ()) :
    layout = some (.ok tsLayout) := by
  unfold acceptStoredLayout at h
  split at h
  · cases h
  · cases h
  split at h
  · cases h
  · split_ifs at h with hsame
    rw [hsame]

/-- What a worker returns with: its layout is stored, and the search for data it has made last, if
any, has found nothing. -/
def LayoutAdmitted (worker : Nat) (layout : TimestampLayout) (checked : Option Nat)
    (w : ClusterWorld) : Prop :=
  w.Stored layout ∧ ∀ since ∈ checked, w.CheckedSince worker since

lemma clusterSafe_ensureClusterFormatMarkerLoop (layout : TimestampLayout) (rounds : Nat)
    {checked : Option Nat} (hchecked : ∀ since ∈ checked, w.CheckedSince worker since)
    (hinv : w.Wellformed) :
    ClusterSafe worker (ensureClusterFormatMarkerLoop layout rounds checked)
      (LayoutAdmitted worker layout) w := by
  induction rounds generalizing w checked with
  | zero => exact safe_fail
  | succ rounds ih =>
    -- a transaction that was made ends the loop with the layout of the worker
    have hwrite : ∀ {context : String} {request : ClusterTxn} {w1 : ClusterWorld}
        {checked : Option Nat}, request.layout = layout →
        (ClusterOp.txn request).Allowed worker w1 →
        (∀ since ∈ checked, w1.CheckedSince worker since) → w1.Wellformed →
        ClusterSafe worker
          (orInternal context (retryClusterRequest (clusterCall (.txn request))) >>=
          fun succeeded => if succeeded then pure checked else
            ensureClusterFormatMarkerLoop layout rounds checked)
          (LayoutAdmitted worker layout) w1 := by
      intro context request w1 checked hlayout hallowed hchecked hinv1
      refine Safe.bind (clusterSafe_txn context hallowed hinv1) hinv1
        fun succeeded w2 h2 hinv2 hstored => ?_
      have hlater : ∀ w3, w2 ≤ w3 → ∀ since ∈ checked, w3.CheckedSince worker since :=
        fun w3 h3 since hsince => (hchecked since hsince).mono (h2.trans h3)
      cases succeeded with
      | true => exact safe_pure fun w3 h3 => ⟨h3.stored _ (hlayout ▸ hstored rfl), hlater w3 h3⟩
      | false => exact ih (hlater w2 le_rfl) hinv2
    refine Safe.bind (clusterSafe_getCluster _ hinv) hinv fun found w1 h1 hinv1 hseen => ?_
    obtain ⟨w₀, hle, rfl⟩ := hseen
    have hchecked1 : ∀ since ∈ checked, w1.CheckedSince worker since :=
      fun since hsince => (hchecked since hsince).mono h1
    dsimp only
    split
    · exact safe_fail
    · next actual hformat =>
      split_ifs with hcurrent hmigrate hrefused
      · have haccept : ClusterSafe worker
            (.ofExcept (acceptStoredLayout layout w₀.layout))
              (fun _ w2 => w2.Stored layout) w1 := by
          refine safe_ofExcept fun _ haccepted w2 h2 => (hle.trans h2).stored _ ⟨?_, ?_⟩
          · rw [hformat, hcurrent]
          · exact acceptStoredLayout_eq_ok haccepted
        refine Safe.bind haccept hinv1 fun _ w2 h2 _ hstored => safe_pure fun w3 h3 => ?_
        exact ⟨h3.stored _ hstored, fun since hsince =>
          (hchecked1 since hsince).mono (h2.trans h3)⟩
      · exact hwrite rfl hmigrate.2.2 hchecked1 hinv1
      · exact safe_fail
      · exact safe_fail
    · split_ifs with hlayout hcustom
      · exact safe_fail
      · refine Safe.bind (clusterSafe_timestampDataExists hinv1) hinv1 fun r w2 _ hinv2 h2 => ?_
        obtain ⟨checkedAt, found⟩ := r
        split
        · exact safe_fail
        · next hfound =>
          obtain ⟨since, rfl, hsince⟩ := h2 (Bool.eq_false_iff.mpr hfound)
          exact hwrite rfl (fun _ => ⟨since, hsince⟩)
            (fun since' heq => Option.some.inj heq ▸ hsince) hinv2
      · exact hwrite rfl (fun hother => absurd hother hcustom) nofun hinv1

lemma clusterSafe_clusterCode (layout : TimestampLayout) (hinv : w.Wellformed) :
    ClusterSafe worker (clusterCode worker layout) (fun x => LayoutAdmitted worker x.1 x.2) w := by
  have hensure : ClusterSafe worker (ensureClusterFormatMarker layout)
      (LayoutAdmitted worker layout) w := by
    unfold ensureClusterFormatMarker
    split
    · exact safe_fail
    · exact clusterSafe_ensureClusterFormatMarkerLoop layout 8 nofun hinv
  refine Safe.bind hensure hinv fun _ w1 _ _ h1 => ?_
  exact safe_pure fun w2 h2 => ⟨h2.stored _ h1.1, fun since hsince => (h1.2 since hsince).mono h2⟩

end

section

open Discipline

variable {w₀ : ClusterWorld} {s s' : ClusterState}

abbrev ClusterHolds (s : ClusterState) : Prop :=
  clusterDiscipline.Holds (fun worker => OnOk fun x => LayoutAdmitted worker x.1 x.2) s

lemma ClusterRun.holds_of_holds (h : ClusterHolds s) (hrun : ClusterRun s s') : ClusterHolds s' :=
  h.reach (fun _ layout _ hinv _ => clusterSafe_clusterCode layout hinv) hrun

lemma ClusterRun.holds (hw : w₀.Wellformed) (hrun : ClusterRun ⟨w₀, []⟩ s) : ClusterHolds s := by
  have h0 : ClusterHolds ⟨w₀, []⟩ := ⟨hw, by simp⟩
  exact ClusterRun.holds_of_holds h0 hrun

lemma ClusterRun.le (h : ClusterHolds s) (hrun : ClusterRun s s') : s.world ≤ s'.world :=
  h.le_of_reach (fun _ layout _ hinv _ => clusterSafe_clusterCode layout hinv) hrun

/-- A step in which a worker writes the layout with a transaction, after a check of its own that has
found no data from before it. -/
def Written (layout : TimestampLayout) (s s' : ClusterState) : Prop :=
  ¬ s.world.Stored layout ∧ s'.world.Stored layout ∧ ∃ i choice worker request k since,
    s.threads[i]? = some ⟨worker, .call (.txn request) k⟩ ∧
    step clusterMachine clusterCode s (.call i choice) = some s' ∧
    s.world.CheckedSince worker since

lemma written_of_step {l : Label Nat TimestampLayout ClusterChoice ClusterEvent}
    {layout : TimestampLayout} (hholds : ClusterHolds s) (hlayout : layout ≠ defaultTimestampLayout)
    (hstep : step clusterMachine clusterCode s l = some s') (hbefore : ¬ s.world.Stored layout)
    (hafter : s'.world.Stored layout) : Written layout s s' := by
  refine ⟨hbefore, hafter, ?_⟩
  obtain ⟨a, e, rfl, rfl⟩ | ⟨i, c, a, o, k, r, w, rfl, hi, hexec, rfl⟩ | ⟨i, rfl, rfl⟩ |
    ⟨e, w, rfl, henv, rfl⟩ := step_cases hstep
  · exact absurd hafter hbefore
  · rcases clusterExec_cases hexec with rfl | rfl | ⟨request, rfl, -, rfl⟩
    · exact absurd hafter hbefore
    · exact absurd hafter hbefore
    have hwritten : (s.world.commit request).Stored request.layout := ⟨rfl, rfl⟩
    have hallowed := hholds.allowed hi
    cases request with
    | migrate other => exact absurd ((hafter.eq hwritten).trans hallowed) hlayout
    | create other =>
      obtain ⟨since, hsince⟩ := hallowed fun heq => hlayout ((hafter.eq hwritten).trans heq)
      exact ⟨i, c, a, _, k, since, hi, hstep, hsince⟩
  · exact absurd hafter hbefore
  · cases e with
    | put place name =>
      cases henv
      exact absurd hafter hbefore
    | delete place name =>
      cases henv
      exact absurd hafter hbefore

lemma ClusterRun.written {layout : TimestampLayout} (hw : w₀.Wellformed)
    (hrun : ClusterRun ⟨w₀, []⟩ s) (hlayout : layout ≠ defaultTimestampLayout)
    (hbefore : ¬ w₀.Stored layout) (hstored : s.world.Stored layout) :
    ∃ s₁ s₂, ClusterRun ⟨w₀, []⟩ s₁ ∧ Written layout s₁ s₂ ∧ ClusterRun s₂ s := by
  induction hrun with
  | refl => exact absurd hstored hbefore
  | @tail s s' l hrun hG hstep ih =>
    by_cases hold : s.world.Stored layout
    · obtain ⟨s₁, s₂, hrun1, hwritten, hrest⟩ := ih hold
      exact ⟨s₁, s₂, hrun1, hwritten, hrest.tail hG hstep⟩
    · exact ⟨s, s', hrun,
        written_of_step (ClusterRun.holds hw hrun) hlayout hstep hold hstored, .refl⟩

def ClusterOp.usual : ClusterOp → ClusterChoice
  | .retryAllowed => .flag true
  | _ => .done

def sampleLayout : TimestampLayout := ⟨1, 0, 41, 12, 11⟩

def ClusterWorld.empty : ClusterWorld := ⟨0, none, none, fun _ => [], []⟩

lemma ClusterRun.of_script (w₀ : ClusterWorld)
    (commands : List (Command Nat TimestampLayout ClusterChoice ClusterEvent))
    (P : ClusterState → Bool)
    (h : (script clusterMachine clusterCode .free ClusterOp.usual commands ⟨w₀, []⟩).any P = true) :
    ∃ s, ClusterRun ⟨w₀, []⟩ s ∧ P s = true :=
  Reach.exists_of_script h

/-- All workers that are admitted have one layout, and it is the stored one from then on. A worker
that has looked for data, whether it wrote the layout then or found it written, has found none from
before it looked. If the layout is not the default one and was not there from the beginning, a
worker that had looked for data has written it. -/
theorem timestamp_layout_agreed (hw : w₀.Wellformed) (hrun : ClusterRun ⟨w₀, []⟩ s) :
    ∀ worker layout checked, ⟨worker, .ret (layout, checked)⟩ ∈ s.threads →
      (∀ s', ClusterRun s s' → s'.world.Stored layout ∧ ∀ worker' layout' checked',
        ⟨worker', .ret (layout', checked')⟩ ∈ s'.threads → layout' = layout) ∧
      (∀ since ∈ checked, s.world.CheckedSince worker since) ∧
      (layout ≠ defaultTimestampLayout → ¬ w₀.Stored layout →
        ∃ s₁ s₂, ClusterRun ⟨w₀, []⟩ s₁ ∧ Written layout s₁ s₂ ∧ ClusterRun s₂ s) := by
  have hholds := ClusterRun.holds hw hrun
  intro worker layout checked hreturned
  obtain ⟨hstored, hchecked⟩ := hholds.post hreturned
  refine ⟨fun s' hrun' => ?_, hchecked, fun hlayout hbefore =>
    ClusterRun.written hw hrun hlayout hbefore hstored⟩
  have hlater := (ClusterRun.le hholds hrun').stored layout hstored
  refine ⟨hlater, fun worker' layout' checked' hreturned' => ?_⟩
  exact ((ClusterRun.holds_of_holds hholds hrun').post hreturned').1.eq hlater

/-- Two workers with one layout find no data, and then both try to write the layout. -/
theorem timestamp_layout_agreed_sample :
    ∃ s worker, ClusterRun ⟨.empty, []⟩ s ∧ s.result 0 = some (sampleLayout, some 0) ∧
      ⟨worker, .ret (sampleLayout, some 0)⟩ ∈ s.threads ∧ s.result 1 = some (sampleLayout, some 0) ∧
      (∀ s', ClusterRun s s' → s'.world.Stored sampleLayout) ∧ s.world.CheckedSince worker 0 ∧
      ∃ s₁ s₂, Written sampleLayout s₁ s₂ ∧ ClusterRun s₂ s := by
  have hempty : ClusterWorld.empty.Wellformed := fun _ => List.Pairwise.nil
  obtain ⟨s, hrun, hfound⟩ := ClusterRun.of_script .empty
    [.label (.spawn 0 sampleLayout), .label (.spawn 1 sampleLayout), .drive 0 6, .drive 1 6,
      .drive 0 1, .drive 1 2]
    (fun s => s.result 0 = some (sampleLayout, some 0) ∧ s.result 1 = some (sampleLayout, some 0))
    (by decide +kernel)
  obtain ⟨hfirst, hsecond⟩ := of_decide_eq_true hfound
  obtain ⟨worker, hreturned⟩ := Sys.mem_threads_of_result hsecond
  obtain ⟨hstored, hchecked, hwritten⟩ :=
    timestamp_layout_agreed hempty hrun worker sampleLayout (some 0) hreturned
  have hnot : ¬ ClusterWorld.empty.Stored sampleLayout := fun h => nomatch h.1
  obtain ⟨s₁, s₂, -, hstep, hrest⟩ := hwritten (by decide +kernel) hnot
  exact ⟨s, worker, hrun, hfirst, hreturned, hsecond, fun s' hrun' => (hstored s' hrun').1,
    hchecked 0 rfl, s₁, s₂, hstep, hrest⟩

/-- A worker that starts again on its prefix is admitted with its own layout over the data there. -/
theorem timestamp_layout_over_data :
    let w₀ : ClusterWorld := ⟨2, some (.ok "3"), some (.ok sampleLayout), fun place =>
      if place = .route then [⟨"orders", 2⟩] else [], []⟩
    ∃ s, ClusterRun ⟨w₀, []⟩ s ∧ s.result 0 = some (sampleLayout, none) ∧
      sampleLayout ≠ defaultTimestampLayout ∧ w₀.Wellformed ∧ w₀.data .route ≠ [] := by
  intro w₀
  obtain ⟨s, hrun, hfound⟩ := ClusterRun.of_script w₀ [.label (.spawn 0 sampleLayout), .drive 0 1]
    (fun s => s.result 0 = some (sampleLayout, none)) (by decide +kernel)
  refine ⟨s, hrun, of_decide_eq_true hfound, by decide +kernel, fun place => ?_, by decide +kernel⟩
  cases place <;> decide +kernel

end

end Chronos
