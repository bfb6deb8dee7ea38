import Chronos.Properties.PersistBeforeIssue

/-! The lease entry of a generator in the runtime of a worker. A batch refresh commits its records
and updates the runtime some awaits later, without the flight of the generator, so its late update
can replace the entry of a newer version. -/

namespace Chronos

open Interleaving Option

variable {C : Cluster} {p q g : Nat} {w : World} {e : Effect} {lease lease' : GeneratorLeaseState}
  {clock : Nat → Nat} {s : State}

def GeneratorLeaseState.NotAfter (lease lease' : GeneratorLeaseState) : Prop :=
  lease.revision ≤ lease'.revision ∧ Floor.Le lease.issuedUpperBound lease'.issuedUpperBound

def RuntimeLeaseNeverRegresses (C : Cluster) (K : Condition) (p g : Nat) (clock : Nat →
    Nat) : Prop :=
  ∀ s l s', Run C K clock s → (K.guard C).Admits s l → step (machine C) (code C) s l = some s' →
    ∀ lease lease', (s.world.runtime p g).lease = some lease →
      (s'.world.runtime p g).lease = some lease' → lease.NotAfter lease'

/-- New tenures of the generator write bounds that fit the layout, and a lease that replaces the
entry in the runtime of the worker is still the newest version in the store. -/
def newestLease (C : Cluster) (p g : Nat) : Condition where
  effect q w e :=
    match e with
    | .commitGenerators vs => ∀ x ∈ vs, x.1 = g → BoundFits C q g w x.2
    | .setLease g' (some lease) => q = p → g' = g → (w.runtime p g).lease.isSome →
        w.generatorRevisionIs g lease.revision = true
    | _ => True

structure BoundsRise (g : Nat) (w : World) : Prop where
  bounded : ∀ v ∈ w.generators g, v.record.issuedUpperBound ≠ none
  rising : Floor.Rising (fun v => v.record.issuedUpperBound) (w.generators g)

lemma BoundsRise.apply (h : BoundsRise g w) (hpermit : Permit C q w e)
    (hK : e.isLoss = true ∨ (newestLease C p g).effect q w e) : BoundsRise g (w.apply q e) := by
  rcases hpermit.generators g with heq | ⟨v, heq, -, ⟨vs, rfl, hv⟩, -, hcommit⟩
  · exact ⟨heq ▸ h.bounded, heq ▸ h.rising⟩
  have hfits : BoundFits C q g w v := (hK.resolve_left nofun) (g, v) hv rfl
  obtain ⟨hbound, hle⟩ := hcommit.bound hfits h.bounded
  exact ⟨heq ▸ List.forall_mem_cons.mpr ⟨hbound, h.bounded⟩, heq ▸ h.rising.cons hle⟩

lemma Run.boundsRise (h : Run C (newestLease C p g) clock s) : BoundsRise g s.world :=
  h.invariant ⟨nofun, .nil⟩ (fun _ _ _ _ hI hpermit hK => hI.apply hpermit hK)
    fun _ _ _ _ hI _ _ => { hI with }

lemma BoundsRise.notAfter (h : BoundsRise g w) (hbase : Base C w) (hlease : LeaseFact C p g lease w)
    (hlease' : LeaseFact C p g lease' w)
      (hnewest : w.generatorRevisionIs g lease'.revision = true) :
    lease.NotAfter lease' := by
  obtain ⟨v, hv⟩ := hlease
  obtain ⟨v', hv'⟩ := hlease'
  obtain ⟨newest, hhead, hrev⟩ := World.generatorRevisionIs_iff.mp hnewest
  obtain rfl : newest = v' := KeyValue.eq_of_pairwise_lt (hbase.generatorOrder g)
    (List.mem_of_mem_head? hhead) hv'.mem (hrev.trans hv'.revision.symm)
  refine ⟨?_, ?_⟩
  · obtain ⟨old, hlist⟩ := List.head?_eq_some_iff.mp hhead
    have horder := hbase.generatorOrder g
    have hmem := hv.mem
    rw [hlist] at horder hmem
    rw [← hv.revision, ← hv'.revision]
    rcases List.mem_cons.mp hmem with rfl | hold
    · exact le_rfl
    · exact ((List.pairwise_cons.mp horder).1 v hold).le
  · have hle := h.rising.le_latest hv.mem
    rw [Floor.latest_of_head hhead] at hle
    rwa [← hv.bound, ← hv'.bound]

/-- While every lease that replaces the entry is still the newest version in the store, the entry
never goes back. -/
theorem runtime_lease_never_regresses (C : Cluster) (p g : Nat) (clock : Nat → Nat) :
    RuntimeLeaseNeverRegresses C (newestLease C p g) p g clock := by
  intro s l s' hrun hG hstep lease lease' hheld hheld'
  have hrefl : lease.NotAfter lease := ⟨le_rfl, Floor.Le.refl⟩
  rcases step_effect (Run.holds hrun) hG hstep with
    heq | ⟨q, now, -, -, heq⟩ | ⟨q, e, hpermit, hK, heq⟩ <;> rw [heq] at hheld'
  · exact some.inj (hheld.symm.trans hheld') ▸ hrefl
  · exact some.inj (hheld.symm.trans hheld') ▸ hrefl
  rcases World.lease_apply hheld' with hkept | ⟨rfl, rfl⟩
  · exact some.inj (hheld.symm.trans hkept) ▸ hrefl
  have hbase : Base C s.world := Run.base hrun
  have hnewest := (hK.resolve_left nofun) rfl rfl (by rw [hheld]; rfl)
  exact hrun.boundsRise.notAfter hbase (hbase.leases _ g lease hheld) hpermit hnewest

instance : (newestLease C p g).Checked where
  effect q w e := by
    apply Effect.casesOn (motive := fun e => Decidable ((newestLease C p g).effect q w e)) e
    case setLease =>
      intro g' lease
      cases lease <;> dsimp only [newestLease] <;> infer_instance
    all_goals intros; dsimp only [newestLease]; infer_instance

def heldRevision (s : State) : Option Nat := (s.world.runtime 0 0).lease.map (·.revision)

lemma exists_lease_of_revision {s : State} {n : Nat} (h : heldRevision s = some n) :
    ∃ lease, (s.world.runtime 0 0).lease = some lease ∧ lease.revision = n :=
  map_eq_some_iff.mp h

def agedLease : List (Command Nat Entry Choice Event) :=
  perform 0 0 (.ensureGeneratorLease 0 5) 40 ++ [.label (.env (.tick 0 105))]

theorem runtime_lease_never_regresses_sample :
    ∃ s l s' lease lease', Run sampleCluster (newestLease sampleCluster 0 0) (fun _ => 10) s ∧
      step (machine sampleCluster) (code sampleCluster) s l = some s' ∧
      (s.world.runtime 0 0).lease = some lease ∧ (s'.world.runtime 0 0).lease = some lease' ∧
      lease.revision = 1 ∧ lease'.revision = 2 ∧ lease.NotAfter lease' := by
  obtain ⟨s, hrun, hs⟩ := Run.of_play (C := sampleCluster) (K := newestLease sampleCluster 0 0)
    (fun _ => 10) (agedLease ++ perform 1 0 (.refreshGeneratorLease 0 5) 9)
    (fun s => heldRevision s = some 1 ∧
      ((newestLease sampleCluster 0 0).guard sampleCluster).Admits s (.call 1 .go) ∧
      (step (machine sampleCluster) (code sampleCluster) s (.call 1 .go)).any
        (fun s' => heldRevision s' = some 2)) (by decide +kernel)
  obtain ⟨hheld, hG, hany⟩ := of_decide_eq_true hs
  obtain ⟨s', hstep, hheld'⟩ := (Option.any_eq_true ..).mp hany
  obtain ⟨lease, hlease, hrev⟩ := exists_lease_of_revision hheld
  obtain ⟨lease', hlease', hrev'⟩ := exists_lease_of_revision (of_decide_eq_true hheld')
  exact ⟨s, .call 1 .go, s', lease, lease', hrun, hstep, hlease, hlease', hrev, hrev',
    runtime_lease_never_regresses sampleCluster 0 0 (fun _ => 10) s (.call 1 .go) s' hrun hG hstep
      lease lease' hlease hlease'⟩

/-- A batch has committed and not yet updated the runtime. A single refresh meets the conflict,
reads the record again and installs it, and another one installs the next version; then the batch
puts its own version back. -/
theorem runtime_lease_regresses :
    ¬ RuntimeLeaseNeverRegresses sampleCluster unconditional 0 0 (fun _ => 10) := by
  obtain ⟨s, hrun, hs⟩ := Run.of_play (C := sampleCluster) (K := unconditional) (fun _ => 10)
    (agedLease ++ perform 1 0 (.refreshGeneratorLeasesBatch [0] 5 5) 4 ++
      perform 2 0 (.refreshGeneratorLease 0 5) 40 ++ [.label (.env (.tick 0 160))] ++
      perform 3 0 (.refreshGeneratorLease 0 5) 40 ++ [.drive 1 1])
    (fun s => heldRevision s = some 3 ∧
      (step (machine sampleCluster) (code sampleCluster) s (.call 1 .go)).any
        (fun s' => heldRevision s' = some 2)) (by decide +kernel)
  obtain ⟨hheld, hany⟩ := of_decide_eq_true hs
  obtain ⟨s', hstep, hheld'⟩ := (any_eq_true ..).mp hany
  obtain ⟨lease, hlease, hrev⟩ := exists_lease_of_revision hheld
  obtain ⟨lease', hlease', hrev'⟩ := exists_lease_of_revision (of_decide_eq_true hheld')
  intro hnever
  have hle := (hnever s (.call 1 .go) s' hrun (fun _ _ _ _ _ _ => trivial) hstep lease lease' hlease
    hlease').1
  omega

end Chronos
