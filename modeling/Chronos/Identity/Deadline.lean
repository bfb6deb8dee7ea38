import Chronos.Identity.Keepalive
import Mathlib.Algebra.Group.Nat.Defs

/-! The deadline the keepalive task lives by is never later than etcd's, because every response it
accepts answers the request it timed: a stream on which an answer may still come is never read
again. -/

namespace Chronos

open List Option Function

def LeasePhase.Fits (now expiresFrom : Nat) (grants : List LeaseGrant)
    (requests : List KeepaliveRequest) (lost : Bool) : LeasePhase → Prop
  | granting startedAt =>
    startedAt ≤ now ∧ ∀ grant ∈ grants, startedAt + ttlNanos grant.ttl ≤ grant.expiresFrom
  | sending _ startedAt => startedAt ≤ now ∧ requests = []
  | awaiting request startedAt =>
    startedAt ≤ now ∧ ∃ answer, requests = [⟨request, answer⟩] ∧
      ∀ ttl, answer = some ttl → startedAt + ttlNanos ttl ≤ expiresFrom
  | sleeping _ => requests = []
  | ended => lost = true
  | claiming | failed | reconnecting | opening => True

namespace LeasePhase.Fits

variable {now expiresFrom : Nat} {grants : List LeaseGrant} {reqs : List KeepaliveRequest}
  {lost : Bool} {phase : LeasePhase}

lemma later (h : phase.Fits now expiresFrom grants reqs lost) {now' expiresFrom' : Nat}
    (hnow : now ≤ now') (hexpires : expiresFrom ≤ expiresFrom') :
    phase.Fits now' expiresFrom' grants reqs lost := by
  cases phase with
  | granting => exact ⟨Nat.le_trans h.1 hnow, h.2⟩
  | sending => exact ⟨Nat.le_trans h.1 hnow, h.2⟩
  | awaiting req startedAt =>
    obtain ⟨hstarted, answer, hreqs, hpromise⟩ := h
    exact ⟨Nat.le_trans hstarted hnow, answer, hreqs,
      fun ttl hanswer => Nat.le_trans (hpromise ttl hanswer) hexpires⟩
  | _ => exact h

lemma grant (h : phase.Fits now expiresFrom grants reqs lost) (ttl : Int) :
    phase.Fits now expiresFrom (⟨ttl, now + ttlNanos ttl⟩ :: grants) reqs lost := by
  cases phase with
  | granting startedAt =>
    refine ⟨h.1, fun grant hgrant => ?_⟩
    rcases mem_cons.mp hgrant with rfl | hgrant
    · exact Nat.add_le_add_right h.1 (ttlNanos ttl)
    · exact h.2 grant hgrant
  | _ => exact h

lemma answer (h : phase.Fits now expiresFrom grants reqs lost) {ttl : Int}
    {reqs' : List KeepaliveRequest} (ha : answerFirst ttl reqs = some reqs')
    (hextended : now + ttlNanos ttl ≤ expiresFrom) :
    phase.Fits now expiresFrom grants reqs' lost := by
  cases phase with
  | sending =>
    rw [h.2] at ha
    cases ha
  | sleeping =>
    have hempty : reqs = [] := h
    rw [hempty] at ha
    cases ha
  | awaiting req startedAt =>
    obtain ⟨hstarted, answer, rfl, hpromise⟩ := h
    cases answer with
    | none =>
      refine ⟨hstarted, some ttl, (some.inj ha).symm, fun ttl' httl => ?_⟩
      cases httl
      exact Nat.le_trans (Nat.add_le_add_right hstarted _) hextended
    | some => cases ha
  | _ => exact h

end LeasePhase.Fits

namespace LeaseState

variable {clockRange : Nat} {s : LeaseState}

structure Inv (s : LeaseState) : Prop where
  conservative : s.leaseAliveUntil ≤ s.expiresFrom
  fresh : ∀ k, s.nextStream ≤ k → s.streams k = []
  current : s.stream < s.nextStream
  confirmed : ∀ c ∈ s.confirmations, c.answers = c.timedFrom
  fits : s.phase.Fits s.now s.expiresFrom s.grants (s.streams s.stream) s.lost

lemma Inv.initial (now : Nat) : (initial now).Inv where
  conservative := Nat.le_refl 0
  fresh _ _ := rfl
  current := Nat.zero_lt_one
  confirmed _ hc := absurd hc not_mem_nil
  fits := ⟨Nat.le_refl now, fun _ hg => absurd hg not_mem_nil⟩

lemma Inv.toPhase (h : s.Inv) {phase : LeasePhase}
    (hfits : phase.Fits s.now s.expiresFrom s.grants (s.streams s.stream) s.lost) :
    { s with phase }.Inv :=
  ⟨h.conservative, h.fresh, h.current, h.confirmed, hfits⟩

lemma Inv.lose (h : s.Inv) : s.lose.Inv := ⟨h.conservative, h.fresh, h.current, h.confirmed, rfl⟩

lemma Inv.beginRequest (h : s.Inv) (hempty : s.streams s.stream = []) : s.beginRequest.Inv :=
  ⟨h.conservative, h.fresh, h.current, h.confirmed, Nat.le_refl s.now, hempty⟩

lemma Inv.openStream (h : s.Inv) : s.openStream.Inv where
  conservative := h.conservative
  fresh k hk := h.fresh k (Nat.le_of_succ_le hk)
  current := Nat.lt_succ_self s.nextStream
  confirmed := h.confirmed
  fits := ⟨Nat.le_refl s.now, h.fresh s.nextStream (Nat.le_refl _)⟩

variable {ttl : Int} {k req startedAt : Nat} {s' : LeaseState}
  {reqs : List KeepaliveRequest}

lemma fresh_update (h : s.Inv) (hk : k < s.nextStream)
    (reqs : List KeepaliveRequest) (j : Nat) (hj : s.nextStream ≤ j) :
    update s.streams k reqs j = [] := by
  have hne : j ≠ k := Nat.ne_of_gt (Nat.lt_of_lt_of_le hk hj)
  rw [update_of_ne hne]
  exact h.fresh j hj

lemma Inv.reconnect_enqueue (h : s.Inv) (queued : Bool) (req : Nat) :
    (if queued then s.enqueue req else s).reconnect.Inv := by
  cases queued with
  | false => exact h.toPhase trivial
  | true => exact ⟨h.conservative, fresh_update h h.current _, h.current, h.confirmed, trivial⟩

lemma Inv.sent (h : s.Inv) (hphase : s.phase = .sending req startedAt) :
    { s.enqueue req with phase := .awaiting req startedAt }.Inv := by
  have hfits := h.fits
  rw [hphase] at hfits
  obtain ⟨hstarted, hempty⟩ := hfits
  refine ⟨h.conservative, fresh_update h h.current _, h.current, h.confirmed, hstarted, none, ?_,
    nofun⟩
  show update s.streams s.stream (s.streams s.stream ++ [⟨req, none⟩]) s.stream = _
  rw [update_self, hempty, nil_append]

lemma Inv.observeGrant (h : s.Inv) {attempt : Nat} {grant : LeaseGrant}
    (hphase : s.phase = .granting startedAt) (hgrant : s.grants[attempt]? = some grant) :
    (s.observeGrant clockRange startedAt grant).Inv := by
  have hfits := h.fits
  rw [hphase] at hfits
  unfold LeaseState.observeGrant
  split
  · exact h.toPhase trivial
  · next window hwindow =>
    have hdeadline := deadline_of_window hwindow ▸ hfits.2 grant (mem_of_getElem? hgrant)
    exact ⟨hdeadline, h.fresh, h.current, h.confirmed, trivial⟩

lemma Inv.observeResponse (h : s.Inv) {answers : Nat}
    {rest : List KeepaliveRequest} (hphase : s.phase = .awaiting req startedAt)
    (hstream : s.streams s.stream = ⟨answers, some ttl⟩ :: rest) :
    ({ s with streams := update s.streams s.stream rest }.observeResponse clockRange
      req startedAt answers ttl).Inv := by
  have hfits := h.fits
  rw [hphase] at hfits
  obtain ⟨_, answer, hq, hpromise⟩ := hfits
  rw [hstream] at hq
  obtain ⟨⟨hanswers, hanswer⟩, hrest⟩ : (answers = req ∧ some ttl = answer) ∧ rest = [] := by
    simpa using hq
  have hread : { s with streams := update s.streams s.stream rest, phase := .ended,
                        lost := true }.Inv :=
    ⟨h.conservative, fresh_update h h.current rest, h.current, h.confirmed, rfl⟩
  unfold LeaseState.observeResponse
  split
  · exact hread
  · next window hwindow =>
    have hdeadline := deadline_of_confirmed hwindow ▸ hpromise ttl hanswer.symm
    refine ⟨hdeadline, hread.fresh, h.current, ?_, ?_⟩
    · intro c hc
      rcases mem_cons.mp hc with rfl | hc
      · exact hanswers
      · exact h.confirmed c hc
    · show update s.streams s.stream rest s.stream = []
      rw [update_self, hrest]

lemma Inv.reconnect (h : s.Inv) : s.reconnect.Inv := h.toPhase trivial

lemma Inv.move (h : s.Inv) {move : LeaseMove}
    (hs : s.moveStep clockRange move = some s') : s'.Inv := by
  unfold moveStep at hs
  split at hs
  · next hphase =>
    obtain ⟨grant, hgrant, rfl⟩ := Option.map_eq_some_iff.mp hs
    exact h.observeGrant hphase hgrant
  -- the acquisition fails
  · exact Option.some.inj hs ▸ h.toPhase trivial
  · exact Option.some.inj hs ▸ h.toPhase trivial
  -- a stream has been opened
  · exact Option.some.inj hs ▸ h.openStream
  · exact Option.some.inj hs ▸ h.openStream
  -- the send
  · next hphase => exact Option.some.inj hs ▸ h.sent hphase
  · exact Option.some.inj hs ▸ h.reconnect_enqueue _ _
  · obtain ⟨_, hs⟩ := Option.ite_none_right_eq_some.mp hs
    exact Option.some.inj hs ▸ h.reconnect_enqueue _ _
  -- the response
  · next hphase =>
    split at hs
    · next hstream => exact Option.some.inj hs ▸ h.observeResponse hphase hstream
    · cases hs
  · exact Option.some.inj hs ▸ h.reconnect
  -- the waits that elapse
  · split_ifs at hs
    exact Option.some.inj hs ▸ h.reconnect
  · split_ifs at hs
    exact Option.some.inj hs ▸ h.reconnect
  · split_ifs at hs
    exact Option.some.inj hs ▸ h.reconnect
  · next hphase =>
    split_ifs at hs
    have hempty := h.fits
    rw [hphase] at hempty
    exact Option.some.inj hs ▸ h.beginRequest hempty
  -- the inner loop
  · split_ifs at hs
    · exact Option.some.inj hs ▸ h.lose
    · exact Option.some.inj hs ▸ h.toPhase trivial
  · exact Option.some.inj hs ▸ h.reconnect
  · cases hs

lemma nonempty_of_answerFirst {reqs' : List KeepaliveRequest}
    (h : answerFirst ttl reqs = some reqs') : reqs ≠ [] := by
  rintro rfl
  cases h

lemma Inv.extend (h : s.Inv) (ttl : Int) : (s.extend ttl).Inv where
  conservative := Nat.le_trans h.conservative (Nat.le_max_left ..)
  fresh := h.fresh
  current := h.current
  confirmed := h.confirmed
  fits := h.fits.later (Nat.le_refl _) (Nat.le_max_left ..)

lemma Inv.process (h : s.Inv) (ha : answerFirst ttl (s.streams k) = some reqs) :
    { s.extend ttl with streams := Function.update s.streams k reqs }.Inv := by
  have hk : k < s.nextStream := Nat.lt_of_not_le fun hk => nonempty_of_answerFirst ha (h.fresh k hk)
  have hextended := h.extend ttl
  refine ⟨hextended.conservative, fresh_update h hk reqs, h.current, h.confirmed, ?_⟩
  show s.phase.Fits s.now _ s.grants (Function.update s.streams k reqs s.stream) s.lost
  by_cases hstream : s.stream = k
  · subst hstream
    rw [Function.update_self]
    exact hextended.fits.answer ha (Nat.le_max_right ..)
  -- a stream that is no longer read
  rw [Function.update_of_ne hstream]
  exact hextended.fits

lemma Inv.step (h : s.Inv) {l : LeaseLabel} (hs : s.step clockRange l = some s') : s'.Inv := by
  cases l with
  | pass duration =>
    cases hs
    exact ⟨h.conservative, h.fresh, h.current, h.confirmed,
      h.fits.later (Nat.le_add_right ..) (Nat.le_refl _)⟩
  | processGrant ttl =>
    cases hs
    exact ⟨h.conservative, h.fresh, h.current, h.confirmed, h.fits.grant ttl⟩
  | process k ttl =>
    obtain ⟨reqs, ha, rfl⟩ := map_eq_some_iff.mp hs
    exact h.process ha
  | processOpening ttl => exact some.inj hs ▸ h.extend ttl
  | move => exact h.move hs

end LeaseState

abbrev LeaseRun (clockRange startedAt : Nat) : LeaseState → Prop :=
  Transition.Reach (LeaseState.step clockRange) (fun _ _ => True) (.initial startedAt)

/-- In every run the task's deadline is not later than the earliest moment at which etcd may expire
the lease. Each response it has accepted answers the request whose start it was timed from, and the
task has not ended without the signal that the lease is lost. -/
theorem identity_lease_deadline_conservative (clockRange startedAt : Nat) (s : LeaseState)
    (h : LeaseRun clockRange startedAt s) :
    s.leaseAliveUntil ≤ s.expiresFrom ∧
      (∀ c ∈ s.confirmations, c.answers = c.timedFrom) ∧ (s.phase = .ended → s.lost = true) := by
  have hinv : s.Inv := h.invariant (.initial startedAt) fun _ _ _ hinv _ hs => hinv.step hs
  refine ⟨hinv.conservative, hinv.confirmed, fun hended => ?_⟩
  have hfits := hinv.fits
  rw [hended] at hfits
  exact hfits

/-- One keepalive is confirmed before its stream closes; the first on the next stream is answered
with a lease that is gone. -/
theorem identity_lease_lost_after_reconnect :
    ∃ s, LeaseRun (10 ^ 20) 5 s ∧ (s.phase = .ended ∧ s.lost = true) ∧
      s.confirmations = [⟨0, 0⟩] ∧ s.leaseAliveUntil ≤ s.expiresFrom := by
  have hrun : (Transition.run (LeaseState.step (10 ^ 20)) (fun _ _ => True)
      [.pass 100, .processGrant 10, .pass 100, .move (.grantAnswered 0), .processOpening 10,
        .move .opened, .pass 30, .move .sent, .pass 40, .process 1 12, .pass 50, .move .answered,
        .pass 5000000000, .move .woke, .move .sent, .move .closed, .move .checkDeadline,
        .pass 70, .move .opened, .move .sent, .process 1 12, .process 2 0, .move .answered]
      (.initial 5)).any (fun s =>
        decide ((s.phase = .ended ∧ s.lost = true) ∧ s.confirmations = [⟨0, 0⟩])) = true := by
    decide +kernel
  obtain ⟨s, hs, hP⟩ := Transition.Reach.exists_of_run hrun
  obtain ⟨hended, hconfirmed⟩ := of_decide_eq_true hP
  exact ⟨s, hs, hended, hconfirmed, (identity_lease_deadline_conservative (10 ^ 20) 5 s hs).1⟩

end Chronos
