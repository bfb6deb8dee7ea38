import Chronos.Service.Evidence

/-! Permitted effects keep the base invariant and let the world grow, so the facts of the evidence
module are sound knowledge for the programs of the service. -/

namespace Chronos

open Interleaving List Function

variable {C : Cluster} {p q g g' : Nat} {w : World} {e : Effect}

namespace World

lemma setRuntime_runtime (r : GeneratorRuntime) :
    (w.setRuntime p g r).runtime q g' = if q = p ∧ g' = g then r else w.runtime q g' := by
  simp only [setRuntime, update_apply]
  split_ifs <;> simp_all

lemma setHandles_handles (hs : List TimelineHandle) {k k' : String} :
    (w.setHandles p k hs).handles q k' = if q = p ∧ k' = k then hs else w.handles q k' := by
  simp only [setHandles, update_apply]
  split_ifs <;> simp_all

lemma grows_setRuntime {r : GeneratorRuntime} (h : (w.runtime p g).nextIndex ≤ r.nextIndex) :
    w ≤ w.setRuntime p g r := by
  refine { (le_refl w : World.Grows w w) with nextIndex := fun q g' => ?_ }
  rw [setRuntime_runtime]
  split_ifs with hq
  · exact hq.1 ▸ hq.2 ▸ h
  · exact le_rfl

end World

lemma Permit.grows (h : Permit C p w e) : w ≤ w.apply p e := by
  have hrefl : World.Grows w w := le_refl w
  cases e with
  | none | uncache | uncacheAll | setHandle | unlock => exact { hrefl with }
  | newHandle key state cached =>
    simp only [World.apply]
    split_ifs <;> exact { hrefl with }
  | readClock now =>
    refine { hrefl with readings := fun q => ?_ }
    simp only [World.apply, update_apply]
    split_ifs with hq
    · exact hq ▸ suffix_cons now _
    · exact suffix_rfl
  | commitGenerators vs =>
    refine { hrefl with generators := fun g => ?_ }
    simp only [World.apply]
    split
    · exact suffix_cons _ _
    · exact suffix_rfl
  | commitTimeline key v =>
    refine { hrefl with timelines := fun k => ?_ }
    simp only [World.apply, update_apply]
    split_ifs with hk
    · exact hk ▸ suffix_cons v _
    · exact suffix_rfl
  | setLease g lease => exact World.grows_setRuntime le_rfl
  | setReady g token => exact World.grows_setRuntime le_rfl
  | setFlight g held => exact World.grows_setRuntime le_rfl
  | setClaim g claim => exact World.grows_setRuntime le_rfl
  | advance g index => exact World.grows_setRuntime (le_max_left _ _)
  | issue a =>
    obtain ⟨_, _, -, hreserved⟩ := h.reserved
    have hnext : (w.runtime p a.generatorId).nextIndex ≤ a.newIndex := by
      have := hreserved.old_le
      have := hreserved.new_eq
      simp only at *
      omega
    exact { (World.grows_setRuntime hnext : World.Grows w _) with issued := prefix_append _ _ }
  | lock key h checked state => exact { hrefl with locks := suffix_cons _ _ }
  | finalRead g now bound => exact { hrefl with finalReads := suffix_cons _ _ }
  | clearClaims | clearLeases =>
    refine { hrefl with nextIndex := fun q g => ?_ }
    simp only [World.apply, update_apply]
    split_ifs with hq
    · exact hq ▸ le_rfl
    · exact le_rfl

lemma World.lease_apply {lease : GeneratorLeaseState}
    (hl : ((w.apply p e).runtime q g).lease = some lease) :
    (w.runtime q g).lease = some lease ∨ q = p ∧ e = .setLease g (some lease) := by
  cases e with
  | setLease g' lease' =>
    simp only [World.apply, World.setRuntime_runtime] at hl
    split_ifs at hl with hq
    · obtain ⟨rfl, rfl⟩ := hq
      subst hl
      exact .inr ⟨rfl, rfl⟩
    · exact .inl hl
  | setReady g' _ | setFlight g' _ | setClaim g' _ | advance g' _ | issue a =>
    simp only [World.apply, World.setRuntime_runtime] at hl
    split_ifs at hl with hq
    · obtain ⟨rfl, rfl⟩ := hq
      exact .inl hl
    · exact .inl hl
  | clearClaims =>
    simp only [World.apply, update_apply] at hl
    split_ifs at hl with hq
    · exact .inl (hq ▸ hl)
    · exact .inl hl
  | clearLeases =>
    simp only [World.apply, update_apply] at hl
    split_ifs at hl
    exact .inl hl
  | newHandle key state cached =>
    simp only [World.apply] at hl
    split_ifs at hl <;> exact .inl hl
  | _ => exact .inl hl

lemma mem_modify {α : Type} {l : List α} {f : α → α} {i : Nat} {x : α}
    (h : x ∈ l.modify i f) : x ∈ l ∨ ∃ y ∈ l, x = f y := by
  obtain ⟨j, hj⟩ := mem_iff_getElem?.mp h
  rw [getElem?_modify] at hj
  split_ifs at hj
  · obtain ⟨y, hy, rfl⟩ := Option.map_eq_some_iff.mp hj
    exact .inr ⟨y, mem_of_getElem? hy, rfl⟩
  · exact .inl (mem_of_getElem? (by simpa using hj))

lemma World.handle_apply {k : String} {hd : TimelineHandle}
    (hmem : hd ∈ (w.apply p e).handles q k) :
    (∃ hd0 ∈ w.handles q k, hd0.state = hd.state) ∨
      (∃ cached, e = .newHandle k hd.state cached) ∨ ∃ i, e = .setHandle k i hd.state := by
  have hold : hd ∈ w.handles q k → (∃ hd0 ∈ w.handles q k, hd0.state = hd.state) ∨
      (∃ cached, e = .newHandle k hd.state cached) ∨ ∃ i, e = .setHandle k i hd.state :=
    fun hmem => .inl ⟨hd, hmem, rfl⟩
  cases e with
  | newHandle key state cached =>
    have hmem : hd ∈ (w.setHandles p key
        (w.handles p key ++ [({ state := state } : TimelineHandle)])).handles q k := by
      simp only [World.apply] at hmem
      split_ifs at hmem <;> exact hmem
    rw [World.setHandles_handles] at hmem
    split_ifs at hmem with hq
    · obtain ⟨rfl, rfl⟩ := hq
      rcases mem_append.mp hmem with hmem | hmem
      · exact hold hmem
      · rw [mem_singleton.mp hmem]
        exact .inr (.inl ⟨cached, rfl⟩)
    · exact hold hmem
  | setHandle key i state =>
    simp only [World.apply, World.setHandles_handles] at hmem
    split_ifs at hmem with hq
    · obtain ⟨rfl, rfl⟩ := hq
      rcases mem_modify hmem with hmem | ⟨hd0, -, rfl⟩
      · exact hold hmem
      · exact .inr (.inr ⟨i, rfl⟩)
    · exact hold hmem
  | unlock key i | lock key i checked state =>
    simp only [World.apply, World.setHandles_handles] at hmem
    split_ifs at hmem with hq
    · obtain ⟨rfl, rfl⟩ := hq
      rcases mem_modify hmem with hmem | ⟨hd0, hmem0, rfl⟩
      · exact hold hmem
      · exact .inl ⟨hd0, hmem0, rfl⟩
    · exact hold hmem
  | _ => exact hold hmem

lemma Succeeds.trans {a b c : TimelineVersion} (h : Succeeds a b) (h' : Succeeds b c) :
    Succeeds a c := by
  refine ⟨h'.1.trans h.1, ?_⟩
  rcases h.2 with hab | hab
  · rw [hab]
    exact h'.2
  rcases h'.2 with hbc | hbc
  · rw [← hbc]
    exact .inr hab
  · exact .inr ⟨hbc.1.trans hab.1, hbc.2.trans hab.2⟩

lemma TimelineCommit.succeeds {key : String} {v v0 : TimelineVersion} (hbase : Base C w)
    (hrev : v.revision = w.revision + 1) (h : TimelineCommit C p key w v)
    (hhead : (w.timelines key).head? = some v0) : Succeeds v v0 := by
  have hlt : v0.revision < v.revision := by
    have := hbase.timelineRevision key v0 (mem_of_mem_head? hhead)
    omega
  refine ⟨hlt, ?_⟩
  cases hw : v.write with
  | create =>
    rw [TimelineCommit, hw] at h
    rw [h.1] at hhead
    cases hhead
  | activate | floorFlush localLast =>
    rw [TimelineCommit, hw] at h
    obtain ⟨v1, hv1, now, hrecord⟩ := h
    cases hv1.symm.trans hhead
    exact .inl (by rw [hrecord]; rfl)
  | transfer reason cachedLast floor =>
    rw [TimelineCommit, hw] at h
    obtain ⟨v1, hv1, target, state, now, hrecord⟩ := h
    cases hv1.symm.trans hhead
    exact .inr (by rw [hrecord]; exact ⟨Nat.lt_succ_self _, Nat.lt_succ_self _⟩)
  | fencedTransfer reason cachedLast state =>
    rw [TimelineCommit, hw] at h
    obtain ⟨v1, hv1, -, -, -, target, now, hrecord⟩ := h
    cases hv1.symm.trans hhead
    exact .inr (by rw [hrecord]; exact ⟨Nat.lt_succ_self _, Nat.lt_succ_self _⟩)

lemma World.revision_le_apply : w.revision ≤ (w.apply p e).revision := by
  cases e with
  | commitGenerators | commitTimeline => exact Nat.le_succ _
  | newHandle key state cached => simp only [World.apply]; split_ifs <;> exact le_rfl
  | _ => exact le_rfl

lemma Permit.generators (h : Permit C p w e) (g : Nat) :
    (w.apply p e).generators g = w.generators g ∨
      ∃ v, (w.apply p e).generators g = v :: w.generators g ∧ v.revision = w.revision + 1 ∧
        (∃ vs, e = .commitGenerators vs ∧ (g, v) ∈ vs) ∧ v.writer = p ∧
        GeneratorCommit C p g w v := by
  cases e with
  | commitGenerators vs =>
    cases hfind : vs.find? (fun v => v.1 = g) with
    | none => exact .inl (by simp [World.apply, hfind])
    | some x =>
      have hmem := mem_of_find?_eq_some hfind
      have hx := h x hmem
      obtain rfl : x.1 = g := by simpa using find?_some hfind
      exact .inr ⟨x.2, by simp [World.apply, hfind], hx.1, ⟨vs, rfl, hmem⟩, hx.2.1, hx.2.2⟩
  | newHandle key state cached => simp only [World.apply]; split_ifs <;> exact .inl rfl
  | _ => exact .inl rfl

lemma Permit.timelines (h : Permit C p w e) (k : String) :
    (w.apply p e).timelines k = w.timelines k ∨
      ∃ v, e = .commitTimeline k v ∧ (w.apply p e).timelines k = v :: w.timelines k ∧
        v.revision = w.revision + 1 ∧ TimelineCommit C p k w v := by
  cases e with
  | commitTimeline key v =>
    by_cases hk : k = key
    · subst hk
      exact .inr ⟨v, rfl, by simp [World.apply], h.1, h.2.1⟩
    · exact .inl (by simp [World.apply, hk])
  | newHandle key state cached => simp only [World.apply]; split_ifs <;> exact .inl rfl
  | _ => exact .inl rfl

lemma Permit.issued (h : Permit C p w e) : (w.apply p e).issued = w.issued ∨
      ∃ a, e = .issue a ∧ (w.apply p e).issued = w.issued ++ [a] ∧ IssueFact C p a w := by
  cases e with
  | issue a => exact .inr ⟨a, rfl, rfl, h⟩
  | newHandle key state cached => simp only [World.apply]; split_ifs <;> exact .inl rfl
  | _ => exact .inl rfl

lemma World.clock_apply : (w.apply p e).clock = w.clock := by
  cases e with
  | newHandle key state cached => simp only [World.apply]; split_ifs <;> rfl
  | _ => rfl

lemma Permit.readings (h : Permit C p w e) {now : Nat} (hnow : now ∈ (w.apply p e).readings q) :
    now ∈ w.readings q ∨ q = p ∧ now = w.clock p ∧ e = .readClock now := by
  cases e with
  | readClock t =>
    simp only [World.apply, update_apply] at hnow
    split_ifs at hnow with hq
    · subst hq
      rcases mem_cons.mp hnow with rfl | hnow
      · exact .inr ⟨rfl, h, rfl⟩
      · exact .inl hnow
    · exact .inl hnow
  | newHandle key state cached =>
    simp only [World.apply] at hnow
    split_ifs at hnow <;> exact .inl hnow
  | _ => exact .inl hnow

lemma World.locks_apply :
    (w.apply p e).locks = w.locks ∨ ∃ key i checked state, e = .lock key i checked state ∧
      (w.apply p e).locks = ⟨p, key, checked, state⟩ :: w.locks := by
  cases e with
  | lock key i checked state => exact .inr ⟨key, i, checked, state, rfl, rfl⟩
  | newHandle key state cached => simp only [World.apply]; split_ifs <;> exact .inl rfl
  | _ => exact .inl rfl

lemma Permit.finalReads (h : Permit C p w e) : (w.apply p e).finalReads = w.finalReads ∨
      ∃ g now, e = .finalRead g now (w.validLeaseUpperBoundForOwner C p g now) ∧
        (w.apply p e).finalReads =
          (p, g, w.validLeaseUpperBoundForOwner C p g now) :: w.finalReads := by
  cases e with
  | finalRead g now bound =>
    obtain rfl : bound = _ := h
    exact .inr ⟨g, now, rfl, rfl⟩
  | newHandle key state cached => simp only [World.apply]; split_ifs <;> exact .inl rfl
  | _ => exact .inl rfl

lemma Base.apply (hbase : Base C w) (h : Permit C p w e) : Base C (w.apply p e) := by
  have hgrows := h.grows
  refine ⟨fun g => ?_, fun g => ?_, fun k => ?_, fun k => ?_, fun q g lease hl => ?_,
    fun q k hd hmem => ?_, fun a ha s hs => ?_⟩
  · rcases h.generators g with heq | ⟨v, heq, hrev, -⟩
    · rw [heq]
      exact hbase.generatorOrder g
    rw [heq, List.pairwise_cons]
    refine ⟨fun v' hv' => ?_, hbase.generatorOrder g⟩
    have := hbase.generatorRevision g v' hv'
    omega
  · rcases h.generators g with heq | ⟨v, heq, hrev, ⟨vs, rfl, -⟩, -⟩
    · rw [heq]
      exact fun v hv => (hbase.generatorRevision g v hv).trans World.revision_le_apply
    · rw [heq, List.forall_mem_cons]
      exact ⟨hrev.le, fun v' hv' =>
        (hbase.generatorRevision g v' hv').trans World.revision_le_apply⟩
  · rcases h.timelines k with heq | ⟨v, -, heq, hrev, hcommit⟩
    · rw [heq]
      exact hbase.timelineOrder k
    rw [heq, List.pairwise_cons]
    refine ⟨fun v' hv' => ?_, hbase.timelineOrder k⟩
    obtain ⟨v0, old, hlist⟩ := List.exists_cons_of_ne_nil (List.ne_nil_of_mem hv')
    have hfirst := hcommit.succeeds hbase hrev (by rw [hlist, List.head?_cons])
    rw [hlist] at hv'
    rcases List.mem_cons.mp hv' with rfl | hv'
    · exact hfirst
    · exact hfirst.trans ((List.pairwise_cons.mp (hlist ▸ hbase.timelineOrder k)).1 v' hv')
  · rcases h.timelines k with heq | ⟨v, rfl, heq, hrev, -⟩
    · rw [heq]
      exact fun v hv => (hbase.timelineRevision k v hv).trans World.revision_le_apply
    · rw [heq, List.forall_mem_cons]
      exact ⟨hrev.le, fun v' hv' => (hbase.timelineRevision k v' hv').trans World.revision_le_apply⟩
  · rcases World.lease_apply hl with hl | ⟨rfl, rfl⟩
    · exact (hbase.leases q g lease hl).mono hgrows
    · exact LeaseFact.mono h hgrows
  · rcases World.handle_apply hmem with ⟨hd0, hmem0, hst⟩ | ⟨cached, rfl⟩ | ⟨i, rfl⟩
    · exact hst ▸ (hbase.handles q k hd0 hmem0).mono hgrows
    · exact HandleFact.mono h hgrows
    · exact h.1.mono hgrows
  · rcases h.issued with heq | ⟨b, -, heq, hissue⟩
    · exact (hbase.issued a (heq ▸ ha) s hs).mono hgrows
    rw [heq] at ha
    rcases List.mem_append.mp ha with ha | ha
    · exact (hbase.issued a ha s hs).mono hgrows
    -- the allocation that was just committed
    obtain rfl := List.mem_singleton.mp ha
    rw [hissue.process]
    exact (hissue.serving s hs).mono hgrows

lemma World.grows_clock (clock : Nat → Nat) : w ≤ { w with clock } :=
  { (le_refl w : World.Grows w w) with }

lemma Base.clock (hbase : Base C w) (clock : Nat → Nat) : Base C { w with clock } := { hbase with
    leases := fun p g lease hl => (hbase.leases p g lease hl).mono (World.grows_clock clock)
    issued := fun a ha s hs => (hbase.issued a ha s hs).mono (World.grows_clock clock) }

def discipline (C : Cluster) : Discipline (machine C) where
  Inv := Base C
  Allowed p o w := ∀ c r e, act C p w o c = some (r, e) → Permit C p w e
  exec_inv hbase hallowed h := by
    obtain ⟨⟨r, e⟩, hact, h⟩ := Option.map_eq_some_iff.mp h
    exact (Prod.mk.inj h).2 ▸ hbase.apply (hallowed _ _ _ hact)
  exec_le _ hallowed h := by
    obtain ⟨⟨r, e⟩, hact, h⟩ := Option.map_eq_some_iff.mp h
    exact (Prod.mk.inj h).2 ▸ (hallowed _ _ _ hact).grows
  env_inv {ev w w'} hbase h := by
    cases ev with
    | tick p now =>
      simp only [machine, environment] at h
      split_ifs at h
      exact Option.some.inj h ▸ hbase.clock _
    | evict p key => exact Option.some.inj h ▸ hbase.apply (p := p) (e := .uncache key) trivial
    | dropFlight p g =>
      exact Option.some.inj h ▸ hbase.apply (p := p) (e := .setFlight g false) trivial
    | dropLock p key i =>
      exact Option.some.inj h ▸ hbase.apply (p := p) (e := .unlock key i) trivial
  env_le {ev w w'} hbase h := by
    cases ev with
    | tick p now =>
      simp only [machine, environment] at h
      split_ifs at h
      exact Option.some.inj h ▸ World.grows_clock _
    | evict p key => exact Option.some.inj h ▸ Permit.grows (C := C) (e := .uncache key) trivial
    | dropFlight p g =>
      exact Option.some.inj h ▸ Permit.grows (C := C) (e := .setFlight g false) trivial
    | dropLock p key i =>
      exact Option.some.inj h ▸ Permit.grows (C := C) (e := .unlock key i) trivial

end Chronos
