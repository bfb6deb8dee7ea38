import Chronos.Dedicated.Specs

/-! Ensuring a timeline, and the calls of the worker as a whole. -/

namespace Chronos

open Interleaving Claims Option

variable {C : Cluster} {p : Nat} {allowed : Op → Choice → World → Prop} {fixed : String → Prop}
  {J : Ledger Nat String → Prop} {strict rem : Prop} {key : String}
  {g : Nat} {w w' : World} {α β : Type} {tier : ResourceTier}

def Ensured (C : Cluster) (p : Nat) (fixed : String → Prop) (strict : Prop) (key : String)
    (tier : ResourceTier) : Except TsoError α → World → Prop
  | .ok _ => Fit C p strict
  | .error _ => fun w => Fit C p strict w ∨
      (tier = .dedicated ∧ Mid C p fixed strict key (some none) (fun _ => True) w)

variable {out : Except TsoError α} {now : Nat}

lemma Ensured.tied : Tied C p fixed (Ensured C p fixed strict key tier out) := by
  intro w w' hd h
  cases out with
  | ok x => exact Fit.tied w w' hd h
  | error e => exact h.imp (Fit.tied w w' hd) fun hmid => ⟨hmid.1, Mid.tied w w' hd hmid.2⟩

lemma Fit.ensured (h : Fit C p strict w) : Ensured C p fixed strict key tier out w := by
  cases out with
  | ok x => exact h
  | error e => exact .inl h

structure Picked (C : Cluster) (p : Nat) (fixed : String → Prop) (strict : Prop) (key : String)
    (tier : ResourceTier) (g : Nat) (w : World) : Prop where
  mid : Mid C p fixed strict key (some none) (fun r => tier = .dedicated ∧ r = g) w
  held : tier = .dedicated → (w.ledger C p).claim g = some key

lemma Picked.tied : Tied C p fixed (Picked C p fixed strict key tier g) := by
  intro w w' hd h
  exact ⟨Mid.tied w w' hd h.mid, by rw [hd.ledger]; exact h.held⟩

lemma Picked.fit_of_ne (h : Picked C p fixed strict key tier g w) (htier : tier ≠ .dedicated) :
    Fit C p strict w := h.mid.fit fun _ _ hg => absurd hg.1 htier

lemma Picked.ensured {e : TsoError} (h : Picked C p fixed strict key tier g w) :
    Ensured C p fixed strict key tier (.error e : Except TsoError α) w := by
  by_cases htier : tier = .dedicated
  · exact .inr ⟨htier, h.mid.mono fun _ _ _ => trivial⟩
  · exact .inl (h.fit_of_ne htier)

lemma Picked.fit_of_exists (hfixed : strict → tier = .dedicated → fixed key)
    (h : Picked C p fixed strict key tier g w) (hexists : (w.timelines key).isEmpty = false) :
    Fit C p strict w := by
  intro hstrict
  by_cases htier : tier = .dedicated
  · have hnone : w.route key = none := h.mid.route _ rfl fun _ => hfixed hstrict htier
    have hempty : w.timelines key = [] := by simpa [World.route] using hnone
    rw [hempty] at hexists
    cases hexists
  · exact h.fit_of_ne htier hstrict

lemma Cluster.dedicatedSeat_created :
    C.dedicatedSeat p (createdTimelineRecord key (C.worker p).advertiseEndpoint g tier now).route =
      if tier = .dedicated then some g else none := by
  have hlocal : C.isLocalEndpoint p (C.worker p).advertiseEndpoint = true := endpointsMatch_refl _ _
  simp only [Cluster.dedicatedSeat, createdTimelineRecord, hlocal, and_true]

section

variable {record : TimelineRecord} {rev fuel : Nat}
  (hR : Regime C p allowed J strict rem key)

include hR

lemma wp_restoreDedicatedClaim (h : Settled C p fixed strict key record.route w) :
    WorkerWp C p allowed fixed J (restoreDedicatedClaim C p key record)
      (fun _ => Settled C p fixed strict key record.route) w := by
  unfold restoreDedicatedClaim
  split
  · exact wp_return Mid.tied h
  · next hroute =>
    have hseat : C.dedicatedSeat p record.route = some record.route.generatorId := by
      rw [Cluster.dedicatedSeat, if_pos (by simpa using hroute)]
    refine (wp_claimSpecificDedicated hR h).bind (fun claimed w1 h1 => ?_) fun _ _ h1 => h1
    refine wp_return Mid.tied (h1.mid.mono ?_)
    rintro - r (hr | ⟨-, rfl⟩)
    · exact hr
    · exact hseat

lemma wp_timelineStateHandleFromRecord (h : Settled C p fixed strict key record.route w) :
    WorkerWp C p allowed fixed J (timelineStateHandleFromRecord C p key record rev)
      (fun _ => Settled C p fixed strict key record.route) w := by
  refine (wp_restoreDedicatedClaim hR h).bind (fun _ w1 h1 => ?_) fun _ _ h1 => h1
  refine wp_settled_call Mid.tied (.inr rfl) h1 fun handle w2 h2 => ?_
  refine wp_settled_call Mid.tied (.inr rfl) h2 fun _ w3 h3 => ?_
  exact wp_return Mid.tied h3

lemma wp_adoptTimeline (h : Settled C p fixed strict key record.route w) :
    WorkerWp C p allowed fixed J (adoptTimeline C p key record rev fuel)
      (fun _ => Fit C p strict) w := by
  unfold adoptTimeline
  split
  · refine Setting.Wp.attempt_bind (wp_activateLocalTimelineRecord fuel fuel h) fun out w1 h1 => ?_
    split
    · next record' rev' =>
      have hsame : record'.route = record.route := h1.2 _ rfl
      have h2 := hsame ▸ h1.1
      exact (wp_timelineStateHandleFromRecord hR h2).bind
        (fun _ w2 h2 => wp_return Fit.tied (Settled.fit h2)) fun _ w2 h2 => Settled.fit h2
    · exact (wp_restoreDedicatedClaim hR h1.1).bind
        (fun _ w2 h2 => wp_return Fit.tied (Settled.fit h2)) fun _ w2 h2 => Settled.fit h2
    · exact wp_error Fit.tied (Settled.fit h1.1)
  · exact wp_return Fit.tied (Settled.fit h)

end

section

variable {fuel : Nat} (hR : Regime C p allowed J strict rem key)
  (hfixed : strict → tier = .dedicated → fixed key)

include hR hfixed

lemma wp_create_bind {Q : Except TsoError α → World → Prop}
    {k : Except TsoError Nat → Service α} (h : Picked C p fixed strict key tier g w)
    (hdone : ∀ res w1, Fit C p strict w1 → WorkerWp C p allowed fixed J (k res) Q w1)
    (hdown : ∀ e w1, e ≠ .metadataAlreadyExists → Picked C p fixed strict key tier g w1 →
      WorkerWp C p allowed fixed J (k (.error e)) Q w1) :
    WorkerWp C p allowed fixed J (call (.createTimeline key
      (createdTimelineRecord key (C.worker p).advertiseEndpoint g tier now)) >>= k) Q w := by
  refine wp_call fun w1 hd c r e _ hturn hact => ?_
  have h1 := Picked.tied w w1 hd h
  cases c with
  | store outcome =>
    simp only [act] at hact
    have hledger : (w1.apply p (.commitTimeline key ⟨w1.revision + 1, createdTimelineRecord key
        (C.worker p).advertiseEndpoint g tier now, .create⟩)).ledger C p =
          (w1.ledger C p).assign key (if tier = .dedicated then some g else none) := by
      rw [World.ledger_commit, Cluster.dedicatedSeat_created]
    by_cases hdowned : ∃ e, outcome = .down e
    · obtain ⟨e, rfl⟩ := hdowned
      cases hact
      refine ⟨id, hdown e w1 ?_ h1⟩
      rintro rfl
      cases hturn
    · cases hempty : (w1.timelines key).isEmpty with
      | false =>
        have heffect : e = .none := by
          rcases storeWrite_cases (some.inj hact) with ⟨hholds, -⟩ | ⟨heffect, -⟩
          · cases hempty.symm.trans hholds
          · exact heffect
        subst heffect
        exact ⟨id, hdone r w1 (h1.fit_of_exists hfixed hempty)⟩
      | true =>
        have heffect : e = .commitTimeline key ⟨w1.revision + 1,
            createdTimelineRecord key (C.worker p).advertiseEndpoint g tier now, .create⟩ := by
          rw [hempty] at hact
          cases outcome with
          | done => exact (Prod.mk.inj (some.inj hact)).2.symm
          | lost e => exact (Prod.mk.inj (some.inj hact)).2.symm
          | down e => exact absurd ⟨e, rfl⟩ hdowned
        subst heffect
        refine ⟨fun hJ => ?_, hdone r _ fun hstrict => ?_⟩
        · rw [hledger]
          refine hR.assign hJ fun g' hg' => ?_
          split_ifs at hg' with htier
          exact some.inj hg' ▸ h1.held htier
        · rw [hledger]
          refine Ledger.backed_iff.mpr ⟨(h1.mid.others hstrict).assign, fun g' hg' => ?_⟩
          obtain ⟨htier, rfl⟩ := h1.mid.own hstrict g' hg'
          rw [Ledger.assign_seat, if_pos rfl, if_pos htier]
  | _ => simp [act] at hact

variable {retry : Service TimelineRoute}

lemma wp_createTimeline (h : Mid C p fixed strict key (some none) (fun _ => False) w)
    (hretry : ∀ w1, Fit C p strict w1 →
      WorkerWp C p allowed fixed J retry (Ensured C p fixed strict key tier) w1) :
    WorkerWp C p allowed fixed J (createTimeline C p key tier fuel retry)
      (Ensured C p fixed strict key tier) w := by
  refine (wp_pickGeneratorId hR tier h).bind (fun g w1 h1 => ?_)
    fun _ w1 h1 => .inl (h1.fit fun _ _ hg => hg.elim)
  have hpicked : Picked C p fixed strict key tier g w1 :=
    ⟨h1.1.mono fun _ _ hg => hg.resolve_left id, h1.2⟩
  refine (wp_leasing Picked.tied uses_ensureGeneratorLease hpicked).bind (fun _ w2 h2 => ?_)
    fun _ w2 h2 => h2.ensured
  refine wp_settled_call Picked.tied (.inl rfl) h2 fun now w3 h3 => ?_
  refine wp_create_bind hR hfixed h3 (fun res w4 h4 => ?_) fun e w4 he h4 => ?_
  · split
    · refine wp_settled_call Fit.tied (.inr rfl) h4 fun _ w5 h5 => ?_
      exact wp_return Ensured.tied h5.ensured
    · exact hretry w4 h4
    · exact wp_error Ensured.tied h4.ensured
  · split
    · next heq => cases heq
    · next heq => exact absurd (Except.error.inj heq) he
    · exact wp_error Ensured.tied h4.ensured

lemma wp_ensureTimelineFromMetadata (h : Fit C p strict w) (hretry : ∀ w1, Fit C p strict w1 →
      WorkerWp C p allowed fixed J retry (Ensured C p fixed strict key tier) w1) :
    WorkerWp C p allowed fixed J (ensureTimelineFromMetadata C p key tier fuel retry)
      (Ensured C p fixed strict key tier) w := by
  refine wp_loadTimelineWithSingleflight_bind Fit.tied h (fun x w1 h1 hx => ?_)
    (fun w1 h1 hseat hnone => ?_) fun _ w1 h1 => h1.ensured
  · exact (wp_adoptTimeline hR (h1.settled hx)).imp fun _ _ => Fit.ensured
  refine wp_createTimeline hR hfixed ⟨fun x hx hx' => ?_, fun hstrict g hg => ?_, ?_⟩ hretry
  · cases hx
    exact hnone (hx' rfl)
  · cases (h1 hstrict g key hg).symm.trans hseat
  · exact fun hstrict => (Ledger.backed_iff.mp (h1 hstrict)).1

lemma wp_ensureTimelineLoop (leaseFuel fuel : Nat) (h : Fit C p strict w) :
    WorkerWp C p allowed fixed J (ensureTimelineLoop C p key tier leaseFuel fuel)
      (Ensured C p fixed strict key tier) w := by
  induction fuel generalizing w with
  | zero => exact wp_error Ensured.tied h.ensured
  | succ fuel ih =>
    have hmetadata : ∀ w1, Fit C p strict w1 →
        WorkerWp C p allowed fixed J (ensureTimelineFromMetadata C p key tier leaseFuel
          (ensureTimelineLoop C p key tier leaseFuel fuel))
            (Ensured C p fixed strict key tier) w1 :=
      fun w1 h1 => wp_ensureTimelineFromMetadata hR hfixed h1 fun _ => ih
    have hgate : rejectNewWorkIfShuttingDown.Uses Op.leasing :=
      (uses_call (by rfl)).bind fun _ => by split <;> trivial
    refine (wp_leasing Fit.tied hgate h).bind (fun _ w1 h1 => ?_) fun _ w1 h1 => h1.ensured
    refine wp_settled_call Fit.tied (.inl rfl) h1 fun cached w2 h2 => ?_
    split
    · refine wp_settled_call Fit.tied (.inl rfl) h2 fun timeline w3 h3 => ?_
      split
      · exact wp_return Ensured.tied h3.ensured
      · exact hmetadata w3 h3
    · exact hmetadata w2 h2

lemma wp_ensureTimelineWithTier (h : Fit C p strict w) :
    WorkerWp C p allowed fixed J (ensureTimelineWithTier C p key tier fuel)
      (Ensured C p fixed strict key tier) w := by
  unfold ensureTimelineWithTier
  split
  · exact wp_error Ensured.tied h.ensured
  · exact wp_ensureTimelineLoop hR hfixed fuel fuel h

end

def WorkerCall.leaves (C : Cluster) (p : Nat) : WorkerCall → Prop
  | .transferForRpc _ endpoint .. | .transfer _ _ endpoint .. =>
      C.isLocalEndpoint p endpoint = false
  | _ => False

def Ended (C : Cluster) (p : Nat) (fixed : String → Prop) (strict : Prop) :
    WorkerCall → Except TsoError Unit → World → Prop
  | .ensureTimeline key tier _ => Ensured C p fixed strict key tier
  | _ => fun _ => Fit C p strict

lemma wp_invalidateTimelineCacheForRouteUpdate {update : TimelineRoute}
    (hrelease : ∀ {l : Ledger Nat String} {g : Nat} {h : String}, J l → J (l.release g h))
    (h : Fit C p strict w) :
    WorkerWp C p allowed fixed J (invalidateTimelineCacheForRouteUpdate C update)
      (fun _ => Fit C p strict) w := by
  have hclear : ∀ w1, Fit C p strict w1 →
      WorkerWp C p allowed fixed J (clearTimelineCache update.timelineKey)
        (fun _ => Fit C p strict) w1 :=
    fun _ h1 => wp_settled Fit.tied (Prog.uses_op (.inr rfl)) h1
  refine wp_settled_call Fit.tied (.inl rfl) h fun cached w1 h1 => ?_
  split
  · exact wp_return Fit.tied h1
  refine wp_settled_call Fit.tied (.inl rfl) h1 fun timeline w2 h2 => ?_
  split
  · refine wp_settled_call Fit.tied (.inl rfl) h2 fun timeline' w3 h3 => ?_
    split
    · refine wp_call fun w4 hd c r e _ _ hact => ?_
      have h4 := Fit.tied w3 w4 hd h3
      cases c <;> simp only [act, reduceCtorEq] at hact
      cases hact
      refine ⟨fun hJ => World.ledger_release ▸ hrelease hJ, hclear _ fun hstrict => ?_⟩
      rw [World.ledger_release]
      exact (h4 hstrict).release
    · exact hclear w3 h3
  · exact wp_return Fit.tied h2

lemma wp_resetTimelineCache (hclear : ∀ {l : Ledger Nat String}, J l → J l.clear)
    (h : Fit C p strict w) :
    WorkerWp C p allowed fixed J resetTimelineCache (fun _ => Fit C p strict) w := by
  refine wp_settled_call Fit.tied (.inr rfl) h fun _ w1 _ => ?_
  refine wp_call fun w2 _ c r e _ _ hact => ?_
  cases c <;> simp only [act, reduceCtorEq] at hact
  cases hact
  refine ⟨fun hJ => World.ledger_clear ▸ hclear hJ, wp_return Fit.tied fun _ => ?_⟩
  rw [World.ledger_clear]
  exact Ledger.backed_clear

lemma wp_workerCode (c : WorkerCall) (hR : ∀ key, Regime C p allowed J strict (c.leaves C p) key)
    (hclear : ∀ {l : Ledger Nat String}, J l → J l.clear)
    (hfixed : ∀ key fuel, c = .ensureTimeline key .dedicated fuel → strict → fixed key)
    (h : Fit C p strict w) :
    WorkerWp C p allowed fixed J (workerCode C p c) (Ended C p fixed strict c) w := by
  cases c with
  | ensureTimeline key tier fuel =>
    refine (wp_ensureTimelineWithTier (hR key) ?_ h).bind
      (fun _ w1 h1 => wp_return (Q := Ensured C p fixed strict key tier) Ensured.tied h1)
      fun _ _ h1 => h1
    intro hstrict htier
    exact hfixed key fuel (htier ▸ rfl) hstrict
  | transferForRpc key endpoint target reason fuel =>
    exact (wp_transferTimelineForRpc (hR key) id h).bind
      (fun _ w1 h1 => wp_return Fit.tied h1) fun _ _ h1 => h1
  | transfer key tier endpoint target fuel =>
    exact (wp_transferTimeline (hR key) id h).bind
      (fun _ w1 h1 => wp_return Fit.tied h1) fun _ _ h1 => h1
  | routeUpdate updated =>
    exact wp_invalidateTimelineCacheForRouteUpdate (hR updated.timelineKey).release h
  | routeReset => exact wp_resetTimelineCache hclear h

end Chronos
