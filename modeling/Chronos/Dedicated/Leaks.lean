import Chronos.Dedicated.Ensure

/-! Between two calls of a worker every dedicated claim is for the generator that the claiming
timeline has in metadata. -/

namespace Chronos

open Interleaving Claims

def World.Pending (C : Cluster) (p : Nat) (key : String) (w : World) : Prop :=
  w.route key = none ∧ ∃ g, (w.ledger C p).claim g = some key

structure Undisturbed (C : Cluster) (p : Nat) (e : WorkerCall) (o : Op) (c : Choice) (w : World) :
    Prop where
  /-- A free generator is not claimed for a timeline that another worker has on that generator. -/
  claim : ∀ g key, o = .claimDedicated g key → (w.ledger C p).claim g = none →
    ∀ route, w.route key = some route → route.resourceTier = .dedicated → route.generatorId = g →
      C.isLocalEndpoint p route.ownerWorkerEndpoint = true
  /-- When a timeline is handed to another worker, the record of a generator claimed for it can be
  read. -/
  load : ∀ g out, o = .loadGenerator g → c = .store out → e.leaves C p →
    ∀ key, (w.ledger C p).claim g = some key → (w.ledger C p).seat key ≠ some g → out = .done
  /-- A transfer that is written is also acknowledged. -/
  exchange : ∀ write key revision record err,
    o = .compareExchangeTimeline write key revision record → c = .store (.lost err) →
      write = .activate

structure LeakFreeTurn (C : Cluster) (p : Nat) (s : WorkerState) (t : WorkerTurn) : Prop where
  undisturbed : ∀ c e o k, t = .call c → s.running = some (e, .call o k) →
    Undisturbed C p e o c s.world
  /-- A dedicated ensure does not fail between its claim and the creation of its record. -/
  completed : ∀ c key fuel o k r w, t = .call c →
    s.running = some (.ensureTimeline key .dedicated fuel, .call o k) →
      (workerMachine C p).exec p o c s.world = some (r, w) → w.Pending C p key →
        ∀ err, k r ≠ .fail err
  /-- No other worker creates a timeline during a dedicated ensure of it. -/
  alone : ∀ key record fuel prog, t = .env (.timelineCreated key record) →
    s.running ≠ some (.ensureTimeline key .dedicated fuel, prog)

variable {C : Cluster} {p : Nat} {key : String} {w w' : World} {s s' : WorkerState} {t : WorkerTurn}

def WorkerCall.ensures (e : WorkerCall) (key : String) : Prop :=
  ∃ fuel, e = .ensureTimeline key .dedicated fuel

def FailsClean (C : Cluster) (p : Nat) (s : WorkerState) : Prop :=
  ∀ key fuel err, s.running = some (.ensureTimeline key .dedicated fuel, .fail err) →
    ¬ s.world.Pending C p key

lemma not_pending_of_backed (h : (w.ledger C p).Backed) : ¬ w.Pending C p key := by
  rintro ⟨hroute, g, hclaim⟩
  have hseat := h g key hclaim
  simp [World.ledger, hroute] at hseat

lemma World.Pending.of_drifts {fixed : String → Prop} (hd : Drifts C p fixed w w')
    (h : w'.Pending C p key) : w.Pending C p key := by
  obtain ⟨hroute, hclaim⟩ := h
  refine ⟨?_, by rwa [hd.ledger] at hclaim⟩
  cases hold : w.route key with
  | none => rfl
  | some route => cases (hd.kept key route hold).symm.trans hroute

lemma regime_backed (e : WorkerCall) (key : String) :
    Regime C p (Undisturbed C p e) (fun _ => True) True (e.leaves C p) key where
  release _ := trivial
  assign _ _ := trivial
  take _ _ _ := trivial
  owned {g _ _ route} _ hc hfree hroute htier hgenerator :=
    hc.claim g key rfl hfree route hroute htier hgenerator
  loaded {g out _} _ hremote hc hclaim hseat := hc.load g out rfl rfl hremote key hclaim hseat
  answered {write revision record err _} _ hc := hc.exchange write key revision record err rfl rfl

lemma keeps_backed : Keeps (workerMachine C p) p (workerCode C p) (World.restarted p)
    (fun s t => LeakFreeTurn C p s t ∧ FailsClean C p s)
    (fun e => workerSetting C p (Undisturbed C p e) e.ensures) (fun _ => True)
    (fun w => (w.ledger C p).Backed) (fun e => Ended C p e.ensures True e) where
  machine _ := rfl
  actor _ := rfl
  start e w _ _ hrest := wp_workerCode e (regime_backed e) (fun h => h)
    (fun key fuel he _ => ⟨fuel, he⟩) fun _ => hrest
  allowed e o k c w hG := hG.1.undisturbed c e o k rfl rfl
  finish e out w hG _ hQ := by
    cases e with
    | ensureTimeline key tier fuel =>
      cases out with
      | ok x => exact hQ trivial
      | error err =>
        rcases hQ with hfit | ⟨rfl, hmid⟩
        · exact hfit trivial
        have hnone : w.route key = none := hmid.route _ rfl fun _ => ⟨fuel, rfl⟩
        refine Ledger.backed_iff.mpr ⟨hmid.others trivial, fun g hg => ?_⟩
        exact absurd ⟨hnone, g, hg⟩ (hG.2 key fuel err rfl)
    | _ => exact hQ trivial
  drift e prog ev w w' hG henv := by
    refine drifts_of_around henv ?_
    rintro key record rfl ⟨fuel, rfl⟩
    exact hG.1.alone key record fuel prog rfl rfl
  env _ _ _ _ _ _ := trivial
  env_rest ev w w' _ henv _ hrest := by
    have hd := drifts_of_around henv fun _ _ _ => id
    rwa [hd.ledger]
  restart s _ _ := by
    rw [World.ledger_restarted]
    exact ⟨trivial, Ledger.backed_clear⟩

lemma FailsClean.turn (h : FailsClean C p s)
    (hrest : s.running = none → (s.world.ledger C p).Backed) (hG : LeakFreeTurn C p s t)
    (hstep : turn (workerMachine C p) p (workerCode C p) (World.restarted p) s t = some s') :
    FailsClean C p s' := by
  intro key fuel err hrun
  rcases turn_cases hstep with ⟨e, rfl, hidle, rfl⟩ | ⟨c, e, o, k, r, w', rfl, hbusy, hexec, rfl⟩ |
    ⟨e, out, rfl, -, -, rfl⟩ | ⟨ev, w', rfl, henv, rfl⟩ | ⟨rfl, rfl⟩
  · exact not_pending_of_backed (hrest hidle)
  · obtain ⟨rfl, hfail⟩ := Prod.mk.inj (Option.some.inj hrun)
    intro hpending
    exact hG.completed c key fuel o k r w' rfl hbusy hexec hpending err hfail
  · cases hrun
  · have hd : Drifts C p (fun _ => False) s.world w' := drifts_of_around henv fun _ _ _ => id
    exact fun hpending => h key fuel err hrun (hpending.of_drifts hd)
  · cases hrun

def smoothTurn (C : Cluster) (p : Nat) (s : WorkerState) (t : WorkerTurn) : Bool :=
  match t, s.running with
  | .call c, some (_, .call o k) =>
    c = o.usual &&
      (match o with
        | .claimDedicated g key => (s.world.route key).all fun route =>
            route.generatorId ≠ g || C.isLocalEndpoint p route.ownerWorkerEndpoint
        | _ => true) &&
      ((workerMachine C p).exec p o c s.world).all fun x =>
        match k x.1 with
        | .fail _ => false
        | _ => true
  | .env _, _ => false
  | _, _ => true

lemma leakFreeTurn_of_smoothTurn (h : smoothTurn C p s t = true) : LeakFreeTurn C p s t := by
  obtain ⟨w, running⟩ := s
  have hcall : ∀ c e o k, t = .call c → running = some (e, .call o k) → c = o.usual ∧
      (∀ g key, o = .claimDedicated g key → ∀ route, w.route key = some route →
        route.generatorId = g → C.isLocalEndpoint p route.ownerWorkerEndpoint = true) ∧
      ∀ r w', (workerMachine C p).exec p o c w = some (r, w') → ∀ err, k r ≠ .fail err := by
    rintro c e o k rfl rfl
    simp only [smoothTurn, Bool.and_eq_true, decide_eq_true_eq, Option.all_eq_true] at h
    refine ⟨h.1.1, ?_, fun r w' hexec err hfail => ?_⟩
    · rintro g key rfl route hroute rfl
      have howned : (w.route key).all (fun x => x.generatorId ≠ route.generatorId ||
          C.isLocalEndpoint p x.ownerWorkerEndpoint) = true := h.1.2
      rw [hroute] at howned
      simpa using howned
    · have hgoes := h.2 (r, w') hexec
      simp [hfail] at hgoes
  refine ⟨fun c e o k ht hrun => ?_, ?_, ?_⟩
  · obtain ⟨rfl, hclaim, -⟩ := hcall c e o k ht hrun
    refine ⟨fun g key ho _ route hroute _ => hclaim g key ho route hroute, ?_, ?_⟩
    · rintro g out rfl hout - - - -
      exact (Choice.store.inj hout).symm
    · rintro write key rev record err rfl hout
      cases hout
  · intro c key fuel o k r w' ht hrun hexec _
    exact (hcall c _ o k ht hrun).2.2 r w' hexec
  · rintro key record fuel prog rfl
    cases h

/-- Whenever no call is in progress, a dedicated claim belongs to a timeline whose route is
dedicated to the claimed generator and owned by the worker. -/
theorem dedicated_claims_backed (C : Cluster) (p : Nat) (clock : Nat → Nat) {s : WorkerState}
    (h : WorkerRun C p (LeakFreeTurn C p) clock s) (hidle : s.running = none) {g : Nat}
    {key : String} (hclaim : (s.world.runtime p g).dedicatedClaim = some key) :
    ∃ route, s.world.route key = some route ∧ route.resourceTier = .dedicated ∧
      route.generatorId = g ∧ C.isLocalEndpoint p route.ownerWorkerEndpoint = true := by
  have hstart : ((World.initial clock).ledger C p).Backed := by
    intro r h hclaim
    cases hclaim
  -- the program in progress and the failures of dedicated ensures are followed together
  obtain ⟨hway, -⟩ := h.invariant
    (I := fun s => OnTheWay (fun e => workerSetting C p (Undisturbed C p e) e.ensures)
      (fun _ => True) (fun w => (w.ledger C p).Backed) (fun e => Ended C p e.ensures True e) s ∧
        FailsClean C p s)
    ⟨⟨trivial, fun _ => hstart, fun _ _ hrun => by cases hrun⟩, fun _ _ _ hrun => by cases hrun⟩
    fun s t s' hs hG hstep =>
      ⟨hs.1.turn keeps_backed ⟨hG, hs.2⟩ hstep, hs.2.turn hs.1.rest hG hstep⟩
  have hseat := hway.rest hidle g key hclaim
  obtain ⟨route, hroute, hseat⟩ := Option.bind_eq_some_iff.mp hseat
  unfold Cluster.dedicatedSeat at hseat
  split_ifs at hseat with hlocal
  exact ⟨route, hroute, hlocal.1, Option.some.inj hseat, hlocal.2⟩

/-- A dedicated timeline is ensured and moved to another dedicated generator. -/
theorem dedicated_claims_backed_sample : ∃ s,
    WorkerRun dedicatedCluster 0 (LeakFreeTurn dedicatedCluster 0) (fun _ => 1000) s ∧
      s.running = none ∧ (s.world.runtime 0 4).dedicatedClaim = some "a" ∧
      ∃ route, s.world.route "a" = some route ∧ route.resourceTier = .dedicated ∧
        route.generatorId = 4 ∧
        dedicatedCluster.isLocalEndpoint 0 route.ownerWorkerEndpoint = true := by
  have hrun : (carryOutAll (workerMachine dedicatedCluster 0) 0 (workerCode dedicatedCluster 0)
      (World.restarted 0) (fun s t => smoothTurn dedicatedCluster 0 s t = true) 60
      [(.ensureTimeline "a" .dedicated 3, Op.usual),
      (.transfer "a" .dedicated "a:1" (some 4) 3, Op.usual)] ⟨.initial fun _ => 1000, none⟩).any
      (fun s => s.running.isNone && (s.world.runtime 0 4).dedicatedClaim = some "a") = true := by
    decide +kernel
  obtain ⟨s, hs, hP⟩ := exists_of_carryOutAll hrun
  simp only [Bool.and_eq_true, Option.isNone_iff_eq_none, decide_eq_true_eq] at hP
  have hrun := hs.imp trivial (fun _ _ _ _ _ _ => trivial) fun _ _ _ => leakFreeTurn_of_smoothTurn
  exact ⟨s, hrun, hP.1, hP.2,
    dedicated_claims_backed dedicatedCluster 0 (fun _ => 1000) hrun hP.1 hP.2⟩

/-- The store refuses to create the record of a new dedicated timeline: the ensure fails
and its claim stays. -/
theorem dedicated_claim_left_behind : ∃ s,
    WorkerRun dedicatedCluster 0 (fun _ _ => True) (fun _ => 1000) s ∧ s.running = none ∧
      (s.world.runtime 0 2).dedicatedClaim = some "a" ∧ s.world.route "a" = none := by
  have hrun : (carryOutAll (workerMachine dedicatedCluster 0) 0 (workerCode dedicatedCluster 0)
      (World.restarted 0) (fun _ _ => True) 60
      [(.ensureTimeline "a" .dedicated 3, fun o =>
      match o with
      | .createTimeline .. => .store (.down (.timelineLimitReached 1))
      | _ => o.usual)] ⟨.initial fun _ => 1000, none⟩).any
      (fun s => s.running.isNone && (s.world.runtime 0 2).dedicatedClaim = some "a" &&
      s.world.route "a" = none) = true := by
    decide +kernel
  obtain ⟨s, hs, hP⟩ := exists_of_carryOutAll hrun
  simp only [Bool.and_eq_true, Option.isNone_iff_eq_none, decide_eq_true_eq] at hP
  exact ⟨s, hs, hP.1.1, hP.1.2, hP.2⟩

end Chronos
