import Chronos.Dedicated.Ensure

/-! No two timelines of a worker are served by the same dedicated generator, as long as generators
are claimed only while every timeline still holds the claim on its own. -/

namespace Chronos

open Interleaving Claims Option

/-- A free generator is claimed to restore the claim of its timeline, or while every dedicated
timeline of the worker holds its claim. -/
def ClaimsComplete (C : Cluster) (p : Nat) (o : Op) (w : World) : Prop :=
  ∀ g key, o = .claimDedicated g key → (w.ledger C p).claim g = none →
    (w.ledger C p).seat key = some g ∨ (w.ledger C p).Covered

def ClaimsCompleteTurn (C : Cluster) (p : Nat) (s : WorkerState) (t : WorkerTurn) : Prop :=
  ∀ c e o k, t = .call c → s.running = some (e, .call o k) → ClaimsComplete C p o s.world

variable {C : Cluster} {p : Nat}

lemma regime_exclusive {rem : Prop} (key : String) :
    Regime C p (fun o _ w => ClaimsComplete C p o w) (fun l => l.Guarded ∧ l.Exclusive) False rem
      key where
  release h := ⟨h.1.release, fun h1 h2 r => by
    rw [Ledger.release_seat]
    exact h.2 h1 h2 r⟩
  assign h hx := ⟨h.1.assign hx, h.2.assign h.1 hx⟩
  take {g _ w} hc hfree h := by
    refine ⟨h.1.take fun key' hkey' => ?_, h.2⟩
    rcases hc g key rfl hfree with hseat | hcovered
    · exact h.2 key' key g hkey' hseat
    · exact absurd hkey' (hcovered.free hfree)
  owned hf := hf.elim
  loaded hf := hf.elim
  answered hf := hf.elim

lemma keeps_exclusive : Keeps (workerMachine C p) p (workerCode C p) (World.restarted p)
    (ClaimsCompleteTurn C p)
    (fun _ => workerSetting C p (fun o _ w => ClaimsComplete C p o w) fun _ => False)
    (fun w => (w.ledger C p).Guarded ∧ (w.ledger C p).Exclusive) (fun _ => True)
    (Ended C p (fun _ => False) False) where
  machine _ := rfl
  actor _ := rfl
  start e w _ _ _ := wp_workerCode e regime_exclusive (fun h => ⟨Ledger.guarded_clear, h.2⟩)
    (fun _ _ _ hf => hf) fun hf => hf.elim
  allowed e o k c w hG := hG c e o k rfl rfl
  finish _ _ _ _ _ _ := trivial
  drift _ _ _ _ _ _ henv := drifts_of_around henv fun _ _ _ => id
  env s ev w' _ henv h := by
    have hd := drifts_of_around henv fun _ _ _ => id
    rwa [hd.ledger]
  env_rest _ _ _ _ _ _ _ := trivial
  restart s _ h := by
    rw [World.ledger_restarted]
    exact ⟨⟨Ledger.guarded_clear, h.2⟩, trivial⟩

/-- A turn of the worker that writes no other timelines, and claims a generator to restore the claim
of one of these or while each of these holds the claim on its own generator. -/
def claimsAmong (C : Cluster) (p : Nat) (keys : List String) (s : WorkerState) : WorkerTurn → Bool
  | .call c =>
    match s.running with
    | some (_, .call o _) =>
      ((act C p s.world o c).all fun x =>
        match x.2 with
        | .commitTimeline key _ => key ∈ keys
        | _ => true) &&
      match o with
      | .claimDedicated g key => (s.world.ledger C p).seat key = some g ||
          keys.all fun key => ((s.world.ledger C p).seat key).all fun r =>
            (s.world.ledger C p).claim r = some key
      | _ => true
    | _ => true
  | .env _ => false
  | _ => true

variable {keys : List String} {s s' : WorkerState} {t : WorkerTurn}

lemma timelines_nil_turn (h : ∀ key ∉ keys, s.world.timelines key = [])
    (hG : claimsAmong C p keys s t = true)
    (hstep : turn (workerMachine C p) p (workerCode C p) (World.restarted p) s t = some s') :
    ∀ key ∉ keys, s'.world.timelines key = [] := by
  rcases turn_cases hstep with ⟨_, -, -, rfl⟩ | ⟨c, call, o, k, r, w', rfl, hrunning, hexec, rfl⟩ |
    ⟨_, _, -, -, -, rfl⟩ | ⟨ev, w', rfl, -, rfl⟩ | ⟨-, rfl⟩
  · exact h
  · obtain ⟨-, e, hact, rfl⟩ := workerExec_cases hexec
    simp only [claimsAmong, hrunning, hact, Option.all_some, Bool.and_eq_true] at hG
    intro key hkey
    by_cases hpart : e.part = .records
    · cases e <;> cases hpart
      have hne := ne_of_mem_of_not_mem (of_decide_eq_true hG.1) hkey
      exact (Function.update_of_ne hne.symm _ _).trans (h key hkey)
    · rw [World.timelines_apply hpart]
      exact h key hkey
  · exact h
  · cases hG
  · exact h

lemma workerRun_of_claimsAmong {clock : Nat → Nat}
    (h : WorkerRun C p (fun s t => claimsAmong C p keys s t = true) clock s) :
    WorkerRun C p (ClaimsCompleteTurn C p) clock s := by
  refine h.imp (I := fun s => ∀ key ∉ keys, s.world.timelines key = []) (fun _ _ => rfl)
    (fun s t s' hI hG hstep => timelines_nil_turn hI hG hstep) ?_
  rintro ⟨w, running⟩ t hI hG c e o k rfl rfl g key rfl -
  simp only [claimsAmong, Bool.and_eq_true, Bool.or_eq_true, decide_eq_true_eq,
    List.all_eq_true] at hG
  refine hG.2.imp_right fun hall key' r hseat => ?_
  by_cases hkey : key' ∈ keys
  · exact of_decide_eq_true ((Option.all_eq_true ..).mp (hall key' hkey) r hseat)
  · have hnone : w.timelines key' = [] := hI key' hkey
    simp [World.ledger, World.route, hnone] at hseat

/-- In every state of a worker whose claims are complete whenever it claims a generator, two
timelines it owns that are dedicated to the same generator are one timeline. -/
theorem dedicated_generators_exclusive (C : Cluster) (p : Nat) (clock : Nat → Nat) {s : WorkerState}
    (h : WorkerRun C p (ClaimsCompleteTurn C p) clock s) {key key' : String}
    {route route' : TimelineRoute} (hroute : s.world.route key = some route)
    (hroute' : s.world.route key' = some route')
    (htier : route.resourceTier = .dedicated) (htier' : route'.resourceTier = .dedicated)
    (hlocal : C.isLocalEndpoint p route.ownerWorkerEndpoint = true)
    (hlocal' : C.isLocalEndpoint p route'.ownerWorkerEndpoint = true)
    (hsame : route.generatorId = route'.generatorId) : key = key' := by
  have hstart : ((World.initial clock).ledger C p).Guarded ∧
      ((World.initial clock).ledger C p).Exclusive := by
    constructor
    · intro r h h' hclaim
      cases hclaim
    · intro h h' r hseat
      cases hseat
  have hinv := (keeps_exclusive.reach hstart trivial h).inv
  refine hinv.2 key key' route.generatorId ?_ ?_
  · rw [World.seat_of_route hroute, Cluster.dedicatedSeat, if_pos ⟨htier, hlocal⟩]
  · rw [World.seat_of_route hroute', Cluster.dedicatedSeat, if_pos ⟨htier', hlocal'⟩, hsame]

/-- After a reset the claim of the first timeline is restored before the second one gets its own. -/
theorem dedicated_generators_exclusive_sample : ∃ s,
    WorkerRun dedicatedCluster 0 (ClaimsCompleteTurn dedicatedCluster 0) (fun _ => 1000) s ∧
      s.world.route "a" = some ⟨"a", 2, 1, 1, .dedicated, "a:1"⟩ ∧
      s.world.route "b" = some ⟨"b", 4, 1, 1, .dedicated, "a:1"⟩ ∧
      ∀ key route', s.world.route key = some route' → route'.resourceTier = .dedicated →
        dedicatedCluster.isLocalEndpoint 0 route'.ownerWorkerEndpoint = true →
          route'.generatorId = 2 → "a" = key := by
  have hrun : (carryOutAll (workerMachine dedicatedCluster 0) 0 (workerCode dedicatedCluster 0)
      (World.restarted 0) (fun s t => claimsAmong dedicatedCluster 0 ["a", "b"] s t = true) 60
      [(.ensureTimeline "a" .dedicated 3, Op.usual), (.routeReset, Op.usual),
        (.ensureTimeline "a" .dedicated 3, Op.usual), (.ensureTimeline "b" .dedicated 3, Op.usual)]
      ⟨.initial fun _ => 1000, none⟩).any
      (fun s => s.world.route "a" = some ⟨"a", 2, 1, 1, .dedicated, "a:1"⟩ &&
        s.world.route "b" = some ⟨"b", 4, 1, 1, .dedicated, "a:1"⟩) = true := by
    decide +kernel
  obtain ⟨s, hs, hroutes⟩ := exists_of_carryOutAll hrun
  simp only [Bool.and_eq_true, decide_eq_true_eq] at hroutes
  obtain ⟨hroute, hnext⟩ := hroutes
  have hrun := workerRun_of_claimsAmong hs
  refine ⟨s, hrun, hroute, hnext, fun key route' hroute' htier' hlocal' hsame => ?_⟩
  exact dedicated_generators_exclusive dedicatedCluster 0 (fun _ => 1000) hrun hroute hroute' rfl
    htier' (by decide) hlocal' hsame.symm

/-- A reset of the route watch between two ensures: both timelines get the first dedicated
generator. -/
theorem dedicated_generator_given_twice : ∃ s,
    WorkerRun dedicatedCluster 0 (fun _ _ => True) (fun _ => 1000) s ∧ s.running = none ∧
      s.world.route "a" = some ⟨"a", 2, 1, 1, .dedicated, "a:1"⟩ ∧
      s.world.route "b" = some ⟨"b", 2, 1, 1, .dedicated, "a:1"⟩ ∧
      dedicatedCluster.isLocalEndpoint 0 "a:1" = true := by
  have hrun : (carryOutAll (workerMachine dedicatedCluster 0) 0 (workerCode dedicatedCluster 0)
      (World.restarted 0) (fun _ _ => True) 60
      [(.ensureTimeline "a" .dedicated 3, Op.usual), (.routeReset, Op.usual),
      (.ensureTimeline "b" .dedicated 3, Op.usual)] ⟨.initial fun _ => 1000, none⟩).any
      (fun s => s.running.isNone &&
      s.world.route "a" = some ⟨"a", 2, 1, 1, .dedicated, "a:1"⟩ &&
      s.world.route "b" = some ⟨"b", 2, 1, 1, .dedicated, "a:1"⟩) = true := by
    decide +kernel
  obtain ⟨s, hs, hP⟩ := exists_of_carryOutAll hrun
  simp only [Bool.and_eq_true, isNone_iff_eq_none, decide_eq_true_eq] at hP
  exact ⟨s, hs, hP.1.1, hP.1.2, hP.2, by decide⟩

end Chronos
