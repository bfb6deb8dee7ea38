import Chronos.Reservation.Tenancy
import Chronos.Service.System

/-! Mutual exclusion of generator leases. The versions of a generator record are the tenures of a
tenancy among workers whose clocks stay within the safety gap, and what a worker judges by is a
version it has written or read. -/

namespace Chronos

open Interleaving Reservation List Option

variable {C : Cluster} {workers : List Nat} {gapMs p q g : Nat} {w : World} {e : Effect}
  {v v₀ : GeneratorVersion}

def GeneratorVersion.expiry (v : GeneratorVersion) : Nat := v.record.leaseExpireAtMs.getD 0

def InTime (C : Cluster) (workers : List Nat) (p now : Nat) : Prop :=
  ∀ q ∈ workers, now + (C.worker p).generatorLeaseTtlMs + (C.worker q).safetyGapMs < U64.size

instance (now : Nat) : Decidable (InTime C workers p now) :=
  inferInstanceAs (Decidable (∀ q ∈ workers, _ < _))

def RenewsForward (C : Cluster) (p g : Nat) (w : World) (v : GeneratorVersion) : Prop :=
  match v.write with
  | .refresh .explicitRenewal => ∀ v₀ ∈ (w.generators g).head?,
      v₀.expiry ≤ v.record.updatedAtMs + (C.worker p).generatorLeaseTtlMs
  | _ => True

instance : Decidable (RenewsForward C p g w v) := by
  unfold RenewsForward
  split <;> infer_instance

def forwardRenewals (C : Cluster) (workers : List Nat) : Condition where
  effect p w e :=
    match e with
    | .commitGenerators vs => ∀ x ∈ vs, RenewsForward C p x.1 w x.2
    | _ => True
  tick p now _ := InTime C workers p now

instance : (forwardRenewals C workers).Checked where
  effect _ _ _ := by
    unfold forwardRenewals
    dsimp only
    split <;> infer_instance
  tick p now _ := inferInstanceAs (Decidable (InTime C workers p now))

def tenancy (C : Cluster) (workers : List Nat) (g : Nat) (w : World) :
    Tenancy {p // p ∈ workers} String where
  owner p := (C.worker p).instanceId
  clock p := w.clock p
  history := (w.generators g).map fun v => (v.record.ownerInstanceId, v.expiry)

lemma tenancy_head (hhead : (w.generators g).head? = some v₀) :
    (tenancy C workers g w).history.head? = some (v₀.record.ownerInstanceId, v₀.expiry) := by
  simp [tenancy, hhead]

structure LeasesInTime (C : Cluster) (workers : List Nat) (w : World) : Prop where
  clocks : ∀ p ∈ workers, InTime C workers p (w.clock p)
  readings : ∀ p, ∀ now ∈ w.readings p, now ≤ w.clock p ∧ InTime C workers p now
  expiries : ∀ g, ∀ v ∈ w.generators g, ∀ q ∈ workers,
    v.expiry + (C.worker q).safetyGapMs < U64.size

variable {now : Nat} {vs : List (Nat × GeneratorVersion)}

lemma InTime.ttl_lt (h : InTime C workers p now) (hp : p ∈ workers) :
    now + (C.worker p).generatorLeaseTtlMs < U64.size := by
  have := h p hp
  omega

lemma GeneratorCommit.expiry (h : GeneratorCommit C p g w v) :
    (∃ now ∈ w.readings p, v.expiry = U64.wrappingAdd now (C.worker p).generatorLeaseTtlMs) ∨
      ∃ v₀ ∈ w.generators g, v.expiry = v₀.expiry := by
  cases hw : v.write with
  | create =>
    rw [GeneratorCommit, hw] at h
    obtain ⟨-, -, now, hnow, hrecord⟩ := h
    exact .inl ⟨now, hnow, by rw [GeneratorVersion.expiry, hrecord]; rfl⟩
  | takeover =>
    rw [GeneratorCommit, hw] at h
    obtain ⟨-, v₀, -, now, hnow, exp, -, -, htaken⟩ := h
    have hexp := (Cluster.takeoverRecord_eq_ok htaken).2.1
    exact .inl ⟨now, hnow, by rw [GeneratorVersion.expiry, hexp, getD_some]⟩
  | refresh reason =>
    rw [GeneratorCommit, hw] at h
    obtain ⟨v₀, -, lease, hmirrors, now, hnow, -, last, -, hrecord⟩ := h
    have hkept : v₀.expiry = lease.leaseExpireAtMs := by
      rw [GeneratorVersion.expiry, hmirrors.expire, getD_some]
    have hexp : v.expiry = (C.refreshPlan p lease last now).recordLeaseExpireAtMs reason
        (U64.wrappingAdd now (C.worker p).generatorLeaseTtlMs) := by
      rw [GeneratorVersion.expiry, hrecord]
      rfl
    rw [hexp, GeneratorLeaseRefreshPlan.recordLeaseExpireAtMs]
    split_ifs
    · exact .inl ⟨now, hnow, rfl⟩
    · exact .inr ⟨v₀, hmirrors.mem, hkept.symm⟩
  | floorFlush =>
    rw [GeneratorCommit, hw] at h
    obtain ⟨v₀, hhead, -, last, -, now, hrecord⟩ := h
    exact .inr ⟨v₀, mem_of_mem_head? hhead, by simp only [GeneratorVersion.expiry, hrecord]; rfl⟩

namespace LeasesInTime

lemma apply (h : LeasesInTime C workers w) (hpermit : Permit C p w e)
    (hworker : e.isLoss = true ∨ p ∈ workers) :
    LeasesInTime C workers (w.apply p e) := by
  refine ⟨?_, fun q now hnow => ?_, fun g => ?_⟩
  · rw [World.clock_apply]
    exact h.clocks
  · rw [World.clock_apply]
    rcases hpermit.readings hnow with hold | ⟨rfl, rfl, rfl⟩
    · exact h.readings q now hold
    · exact ⟨le_rfl, h.clocks q (hworker.resolve_left Bool.false_ne_true)⟩
  · rcases hpermit.generators g with heq | ⟨v, heq, -, ⟨vs, rfl, -⟩, -, hcommit⟩
    · exact heq ▸ h.expiries g
    have hp := hworker.resolve_left nofun
    rw [heq, forall_mem_cons]
    refine ⟨fun q hq => ?_, h.expiries g⟩
    rcases hcommit.expiry with ⟨now, hnow, hexpiry⟩ | ⟨v₀, hv0, hexpiry⟩
    · have hfits := (h.readings p now hnow).2
      rw [hexpiry, U64.wrappingAdd_of_lt (hfits.ttl_lt hp)]
      exact hfits q hq
    · rw [hexpiry]
      exact h.expiries g v₀ hv0 q hq

lemma tick (h : LeasesInTime C workers w) (hclock : w.clock p ≤ now)
    (hnow : InTime C workers p now) :
    LeasesInTime C workers { w with clock := Function.update w.clock p now } := by
  refine ⟨fun q hq => ?_, fun q t ht => ?_, h.expiries⟩
  · rcases eq_or_ne q p with rfl | hne
    · simpa using hnow
    · simpa [hne] using h.clocks q hq
  obtain ⟨hle, hfits⟩ := h.readings q t ht
  refine ⟨?_, hfits⟩
  rcases eq_or_ne q p with rfl | hne
  · simpa using hle.trans hclock
  · simpa [hne] using hle

end LeasesInTime

lemma tenancy_commit
    (heq : (w.apply p (.commitGenerators vs)).generators g = v :: w.generators g) :
    (tenancy C workers g (w.apply p (.commitGenerators vs))).history =
      (v.record.ownerInstanceId, v.expiry) :: (tenancy C workers g w).history := by
  simp only [tenancy, heq, map_cons]

lemma tenancy_step (htime : LeasesInTime C workers w)
    (hgap : ∀ p ∈ workers, gapMs ≤ (C.worker p).safetyGapMs) (hp : p ∈ workers)
    (hcommit : GeneratorCommit C p g w v) (hforward : RenewsForward C p g w v)
    (heq : (w.apply p (.commitGenerators vs)).generators g = v :: w.generators g) :
    (tenancy C workers g w).Step gapMs
      (tenancy C workers g (w.apply p (.commitGenerators vs))) := by
  cases hw : v.write with
  | create =>
    rw [GeneratorCommit, hw] at hcommit
    have hempty : (tenancy C workers g w).history = [] := by simp [tenancy, hcommit.1]
    exact .first _ hempty rfl (by rw [tenancy_commit heq, hempty])
  | takeover =>
    rw [GeneratorCommit, hw] at hcommit
    obtain ⟨-, v₀, hhead, now, hnow, exp, hexp, hexpired, -⟩ := hcommit
    have hkept : v₀.expiry = exp := by rw [GeneratorVersion.expiry, hexp, getD_some]
    have hfits := htime.expiries g v₀ (mem_of_mem_head? hhead) p hp
    have hreading := (htime.readings p now hnow).1
    have hwait : exp + (C.worker p).safetyGapMs ≤ now := by
      have hsum := of_decide_eq_true hexpired
      rw [U64.saturatingAdd, U64.max] at hsum
      omega
    have hlate : v₀.expiry + gapMs ≤ w.clock p := by
      have := hgap p hp
      omega
    exact .takeover ⟨p, hp⟩ _ _ (tenancy_head hhead) hlate rfl rfl (tenancy_commit heq)
  | refresh reason =>
    rw [GeneratorCommit, hw] at hcommit
    obtain ⟨v₀, hhead, lease, hmirrors, now, hnow, -, last, -, hrecord⟩ := hcommit
    have hkept : v₀.expiry = lease.leaseExpireAtMs := by
      rw [GeneratorVersion.expiry, hmirrors.expire, getD_some]
    have hforced : reason.forcesLeaseRenewal = true →
        lease.leaseExpireAtMs ≤ now + (C.worker p).generatorLeaseTtlMs := by
      intro hreason
      obtain rfl : reason = .explicitRenewal := by cases reason <;> first | rfl | cases hreason
      rw [RenewsForward, hw] at hforward
      have hle := hforward v₀ hhead
      rwa [hkept, hrecord] at hle
    have hfits := (htime.readings p now hnow).2.ttl_lt hp
    obtain ⟨exp, hle, hexp⟩ : ∃ exp, lease.leaseExpireAtMs ≤ exp ∧
        (C.refreshRecord p g lease last now reason).leaseExpireAtMs = some exp :=
      Cluster.refreshRecord_leaseExpireAtMs hfits hforced
    refine .renew _ _ (tenancy_head hhead) ?_ ?_ rfl rfl (tenancy_commit heq)
    · rw [hrecord, hmirrors.owner]
      exact hmirrors.leaseOwner
    · rw [hkept, GeneratorVersion.expiry, hrecord, hexp]
      exact hle
  | floorFlush =>
    rw [GeneratorCommit, hw] at hcommit
    obtain ⟨v₀, hhead, -, last, -, now, hrecord⟩ := hcommit
    refine .renew _ _ (tenancy_head hhead) ?_ ?_ rfl rfl (tenancy_commit heq)
    · rw [hrecord]
      rfl
    · rw [GeneratorVersion.expiry, GeneratorVersion.expiry, hrecord]
      exact le_rfl

lemma Base.valid_tenure (hbase : Base C w) (workers : List Nat)
    (hvalid : w.leaseValidForOwner C p g now = true) :
    ∃ x ∈ (tenancy C workers g w).history, (C.worker p).instanceId = x.1 ∧ now < x.2 := by
  obtain ⟨lease, hlease⟩ := isSome_iff_exists.mp hvalid
  obtain ⟨hheld, hfilter⟩ := filter_eq_some_iff.mp hlease
  obtain ⟨v, hv⟩ := hbase.leases p g lease hheld
  refine ⟨_, mem_map.mpr ⟨v, hv.mem, rfl⟩, hv.owner.symm, ?_⟩
  rw [GeneratorVersion.expiry, hv.expire, getD_some]
  simp only [Bool.and_eq_true, decide_eq_true_eq] at hfilter
  exact hfilter.1.1.1

structure ClocksStart (C : Cluster) (workers : List Nat) (gapMs : Nat) (clock : Nat → Nat) :
    Prop where
  gap : ∀ p ∈ workers, gapMs ≤ (C.worker p).safetyGapMs
  skew : ∀ p ∈ workers, ∀ q ∈ workers, clock p ≤ clock q + gapMs
  inTime : ∀ p ∈ workers, InTime C workers p (clock p)

section

variable {clock : Nat → Nat} {s : State}

lemma Run.tenancy_sound
    (h : Run C ((closeClocks workers gapMs).and (forwardRenewals C workers)) clock s)
    (hstart : ClocksStart C workers gapMs clock) :
    (tenancy C workers g s.world).Sound gapMs := by
  refine (h.invariant (I := fun w => LeasesInTime C workers w ∧
      (tenancy C workers g w).Sound gapMs) ⟨⟨hstart.inTime, ?_, ?_⟩, ⟨?_, ?_⟩⟩
    (fun p w e _ hI hpermit hK => ?_) fun p now w _ hI hK _ => ?_).2
  · simp [World.initial]
  · simp [World.initial]
  · exact fun p q => hstart.skew p p.2 q q.2
  · simp [tenancy, World.initial]
  · have hworker := hK.imp_right And.left
    refine ⟨hI.1.apply hpermit hworker, Tenancy.Step.sound ?_ hI.2⟩
    rcases hpermit.generators g with heq | ⟨v, heq, -, ⟨vs, rfl, hv⟩, -, hcommit⟩
    · refine .advance rfl (fun q => ?_) (fun q q' => ?_) ?_
      · simp [tenancy, World.clock_apply]
      · simpa [tenancy, World.clock_apply] using hI.2.skew q q'
      · simp [tenancy, heq]
    · have hforward := (hK.resolve_left Bool.false_ne_true).2 _ hv
      exact tenancy_step hI.1 hstart.gap (hworker.resolve_left Bool.false_ne_true) hcommit
        hforward heq
  · obtain ⟨⟨hclock, hclose⟩, hnow⟩ := hK
    refine ⟨hI.1.tick hclock hnow, Tenancy.Step.sound (T := tenancy C workers g w)
      (.advance rfl (fun q => ?_) ?_ rfl) hI.2⟩
    · rcases eq_or_ne (q : Nat) p with hq | hne
      · simpa [tenancy, hq] using hclock
      · simp [tenancy, hne]
    intro q q'
    have hskew := hI.2.skew q q'
    simp only [tenancy] at hskew ⊢
    rcases eq_or_ne (q : Nat) p with hq | hq <;> rcases eq_or_ne (q' : Nat) p with hq' | hq'
    · simp [hq, hq']
    · simpa [hq, hq'] using (hclose q' q'.2 hq').1
    · simpa [hq, hq'] using (hclose q q.2 hq).2
    · simpa [hq, hq'] using hskew

/-- Two workers with different instance ids never both find their lease of a generator valid at
their own current times. -/
theorem lease_exclusion
    (h : Run C ((closeClocks workers gapMs).and (forwardRenewals C workers)) clock s)
    (hstart : ClocksStart C workers gapMs clock) (hp : p ∈ workers) (hq : q ∈ workers)
    (hne : (C.worker p).instanceId ≠ (C.worker q).instanceId) :
    ¬ (s.world.leaseValidForOwner C p g (s.world.clock p) = true ∧
      s.world.leaseValidForOwner C q g (s.world.clock q) = true) := by
  rintro ⟨hvalid, hvalid'⟩
  obtain ⟨x, hx, hown, hlive⟩ := h.base.valid_tenure workers hvalid
  obtain ⟨y, hy, hown', hlive'⟩ := h.base.valid_tenure workers hvalid'
  exact hne ((h.tenancy_sound hstart).exclusive (p := ⟨p, hp⟩) (q := ⟨q, hq⟩) hx hy hown hown'
    hlive hlive')

end

def contendedCluster : Cluster :=
  { sampleCluster with
    worker := fun p =>
      { sampleCluster.worker p with
        generatorOwnershipModulo := 1
        generatorOwnershipRemainders := [0] } }

def tickOn (start steps : Nat) : List (Command Nat Entry Choice Event) :=
  (List.range steps).flatMap fun i => tickBoth (start + 5 * (i + 1))

/-- The second worker has taken over the expired lease of the first, which finds it invalid. -/
theorem lease_exclusion_sample :
    ∃ s, Run contendedCluster ((closeClocks [0, 1] 5).and (forwardRenewals contendedCluster [0, 1]))
        (fun _ => 10) s ∧
      s.world.leaseValidForOwner contendedCluster 1 0 (s.world.clock 1) = true ∧
      ¬ (s.world.leaseValidForOwner contendedCluster 0 0 (s.world.clock 0) = true ∧
        s.world.leaseValidForOwner contendedCluster 1 0 (s.world.clock 1) = true) := by
  obtain ⟨s, hs, hvalid⟩ := Run.of_play (C := contendedCluster)
    (K := (closeClocks [0, 1] 5).and (forwardRenewals contendedCluster [0, 1])) (fun _ => 10)
    (perform 0 0 (.ensureGeneratorLease 0 5) 40 ++ tickOn 10 21 ++
      perform 1 1 (.ensureGeneratorLease 0 5) 40)
    (fun s => s.world.leaseValidForOwner contendedCluster 1 0 (s.world.clock 1))
    (by decide +kernel)
  refine ⟨s, hs, hvalid, lease_exclusion hs ⟨?_, ?_, ?_⟩ ?_ ?_ ?_⟩ <;> decide

/-- A forced renewal that read the clock before a batch refresh and the lease after it writes back
an earlier expiry; the other worker takes over while the first still trusts the batch. -/
theorem lease_not_exclusive : ∃ s, Run contendedCluster (closeClocks [0, 1] 5) (fun _ => 10) s ∧
      (contendedCluster.worker 0).instanceId ≠ (contendedCluster.worker 1).instanceId ∧
      s.world.leaseValidForOwner contendedCluster 0 0 (s.world.clock 0) = true ∧
      s.world.leaseValidForOwner contendedCluster 1 0 (s.world.clock 1) = true := by
  obtain ⟨s, hs, hvalid⟩ := Run.of_play (C := contendedCluster) (K := closeClocks [0, 1] 5)
    (fun _ => 10)
    (perform 0 0 (.ensureTimeline "k" .shared 5) 60 ++
      -- the renewal has read the clock and is about to read the lease
      perform 1 0 (.renewTimelineLease "k" 5) 12 ++ tickOn 10 11 ++
      perform 2 0 (.refreshGeneratorLeasesBatch [0] 5 5) 40 ++
      -- it commits the early expiry and has not yet updated the runtime
      [.drive 1 4] ++ tickOn 65 10 ++
      perform 3 1 (.ensureGeneratorLease 0 5) 40)
    (fun s => s.world.leaseValidForOwner contendedCluster 0 0 (s.world.clock 0) &&
      s.world.leaseValidForOwner contendedCluster 1 0 (s.world.clock 1)) (by decide +kernel)
  rw [Bool.and_eq_true] at hvalid
  exact ⟨s, hs, by decide, hvalid.1, hvalid.2⟩

end Chronos
