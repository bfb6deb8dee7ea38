import Chronos.Properties.Handover

/-! When the timestamps of one timeline grow: from one owner to the next, from a request that has
been answered to one that is made after it, and within one worker across transfers between its
generators. -/

namespace Chronos

open Interleaving Reservation

variable {C : Cluster} {K : Condition} {clock : Nat → Nat} {s : State}

def Allocation.Returns (C : Cluster) (a : Allocation) (t : Nat) : Prop :=
  ∃ ranges, Generator.allocatedRanges C.layout a.generatorId a.args.count a.startIndex =
    .ok ranges ∧ Generator.Covers ranges t

instance (a : Allocation) (t : Nat) : Decidable (a.Returns C t) :=
  match h : Generator.allocatedRanges C.layout a.generatorId a.args.count a.startIndex with
  | .ok ranges =>
    decidable_of_iff (Generator.Covers ranges t)
      ⟨fun ht => ⟨ranges, h, ht⟩, fun ⟨_, hranges, ht⟩ => Except.ok.inj (h.symm.trans hranges) ▸ ht⟩
  | .error _ => isFalse fun ⟨_, hranges, _⟩ => nomatch h.symm.trans hranges

lemma Run.returns_iff (h : Run C K clock s) {a : Allocation} {t : Nat} (ha : a ∈ s.world.issued)
    (ht : a.Returns C t) :
    ∃ i, a.startIndex ≤ i ∧ i < a.newIndex ∧ t = C.layout.tsoAt a.generatorId i := by
  obtain ⟨ranges, hranges, hcovers⟩ := ht
  obtain ⟨i, hlow, hhigh, rfl⟩ := (Generator.allocatedRanges_covers hranges).mp hcovers
  exact ⟨i, hlow, (h.newIndex_eq a ha).symm ▸ hhigh, rfl⟩

structure CursorOrder (w : World) : Prop where
  behind : ∀ a ∈ w.issued, a.newIndex ≤ (w.runtime a.process a.generatorId).nextIndex
  order : w.issued.Pairwise fun a b => a.process = b.process →
    a.generatorId = b.generatorId → a.newIndex ≤ b.startIndex

lemma CursorOrder.apply {p : Nat} {w : World} {e : Effect} (h : CursorOrder w)
    (hpermit : Permit C p w e) : CursorOrder (w.apply p e) := by
  obtain ⟨hcursor, horder⟩ := h
  have hadvance : ∀ a ∈ w.issued,
      a.newIndex ≤ ((w.apply p e).runtime a.process a.generatorId).nextIndex := fun a ha =>
    (hcursor a ha).trans (hpermit.grows.nextIndex a.process a.generatorId)
  rcases hpermit.issued with heq | ⟨b, rfl, heq, hissue⟩
  · exact ⟨heq ▸ hadvance, heq ▸ horder⟩
  obtain ⟨floorIdx, last, -, hreserved⟩ := hissue.reserved
  constructor
  · rw [heq, List.forall_mem_append, List.forall_mem_singleton, hissue.process]
    refine ⟨hadvance, ?_⟩
    simp [World.apply, World.setRuntime_runtime]
  rw [heq]
  refine List.pairwise_append.mpr ⟨horder, List.pairwise_singleton _ _, fun a ha c hc => ?_⟩
  obtain rfl := List.mem_singleton.mp hc
  intro hprocess hgen
  have hlast := hcursor a ha
  rw [hprocess, hgen, hissue.process] at hlast
  exact hlast.trans hreserved.old_le

lemma Run.cursorOrder (h : Run C K clock s) : CursorOrder s.world :=
  h.invariant ⟨by simp [World.initial], .nil⟩ (fun _ _ _ _ hI hpermit _ => hI.apply hpermit)
    fun _ _ _ _ hI _ _ => { hI with }

lemma Run.cursor_lt (h : Run C K clock s) {m n : Nat} {a b : Allocation} {t t' : Nat}
    (hmn : m < n) (ha : s.world.issued[m]? = some a) (hb : s.world.issued[n]? = some b)
    (hprocess : a.process = b.process) (hgen : a.generatorId = b.generatorId)
    (ht : a.Returns C t) (ht' : b.Returns C t') : t < t' := by
  obtain ⟨i, -, hi, rfl⟩ := h.returns_iff (List.mem_of_getElem? ha) ht
  obtain ⟨j, hj, -, rfl⟩ := h.returns_iff (List.mem_of_getElem? hb) ht'
  obtain ⟨hm, rfl⟩ := List.getElem?_eq_some_iff.mp ha
  obtain ⟨hn, rfl⟩ := List.getElem?_eq_some_iff.mp hb
  have horder := List.pairwise_iff_getElem.mp h.cursorOrder.order m n hm hn hmn hprocess hgen
  rw [hgen]
  exact TimestampLayout.tsoAt_lt_tsoAt.mpr (by omega)

def transfersOnly (allowed : TransferReason → Bool) : Condition where
  effect _ _ e :=
    match e with
    | .commitTimeline _ ⟨_, _, .transfer reason _ _⟩
    | .commitTimeline _ ⟨_, _, .fencedTransfer reason _ _⟩ => allowed reason = true
    | _ => True

instance (allowed : TransferReason → Bool) : (transfersOnly allowed).Checked where
  effect _ _ _ := by
    unfold transfersOnly
    dsimp only
    split <;> infer_instance

lemma Run.of_play_served [K.Checked] (clock : Nat → Nat)
    (commands : List (Command Nat Entry Choice Event)) (m n : Nat)
    (P : Allocation → Serving → Allocation → Serving → Prop) [∀ a x b y, Decidable (P a x b y)]
    (h : (C.play K clock commands).any (fun s => s.world.issued[m]?.any fun a =>
      s.world.issued[n]?.any fun b => a.serving.any fun x => b.serving.any fun y =>
        decide (P a x b y)) = true) :
    ∃ s a x b y, Run C K clock s ∧ s.world.issued[m]? = some a ∧ s.world.issued[n]? = some b ∧
      a.serving = some x ∧ b.serving = some y ∧ P a x b y := by
  obtain ⟨s, hs, hfound⟩ := Run.of_play clock commands _ h
  simp only [Option.any_eq_true, decide_eq_true_eq] at hfound
  obtain ⟨a, ha, b, hb, x, hx, y, hy, hP⟩ := hfound
  exact ⟨s, a, x, b, y, hs, ha, hb, hx, hy, hP⟩

def failoverCluster : Cluster :=
  { sampleCluster with
    worker := fun p =>
      { sampleCluster.worker p with
        sharedGenerators := 0
        warmGenerators := 8
        defaultResourceTier := .warm
        maxBatchPerRequest := 60
        generatorLeaseTtlMs := 4
        preBorrowMs := 10
        maxClockRewindMs := 100 } }

def warmRequest (epoch count : Nat) : AllocateTimestampsRequest :=
  { sampleRequest epoch epoch with count }

section

variable {a b : Allocation} {x y : Serving} {t t' : Nat}

lemma Run.mem_succession (h : Run C K clock s) (ha : a ∈ s.world.issued)
    (hx : a.serving = some x) (ht : a.Returns C t) :
    (x.state.route.epoch, t) ∈ (succession C x.request.timelineKey s.world).issued := by
  obtain ⟨i, hlow, hhigh, rfl⟩ := h.returns_iff ha ht
  exact ⟨a, ha, x, hx, rfl, rfl, i, hlow, hhigh, rfl⟩

lemma Run.route_eq (h : Run C K clock s) (ha : a ∈ s.world.issued) (hb : b ∈ s.world.issued)
    (hx : a.serving = some x) (hy : b.serving = some y)
    (hkey : x.request.timelineKey = y.request.timelineKey)
    (hepoch : x.state.route.epoch = y.state.route.epoch) : x.state.route = y.state.route := by
  obtain ⟨v, hv, hroute, -⟩ := (h.base.issued a ha x hx).handle
  obtain ⟨v', hv', hroute', -⟩ := (h.base.issued b hb y hy).handle
  rw [← hroute, ← hroute'] at hepoch ⊢
  exact h.base.route_eq hv (hkey ▸ hv') hepoch

lemma Run.lt_of_epoch_lt (h : Run C (handedOver C) clock s)
    (ha : a ∈ s.world.issued) (hb : b ∈ s.world.issued) (hx : a.serving = some x)
    (hy : b.serving = some y) (hkey : x.request.timelineKey = y.request.timelineKey)
    (hepoch : x.state.route.epoch < y.state.route.epoch) (ht : a.Returns C t)
    (ht' : b.Returns C t') : t < t' := by
  have hearlier := h.mem_succession ha hx ht
  rw [hkey] at hearlier
  exact (h.handover.sound _).lt hearlier (h.mem_succession hb hy ht') hepoch

/-- Whatever is served for a timeline in a later epoch is greater than everything that was or will
be served for it in an earlier one. -/
theorem later_epoch_later_timestamps (h : Run C (handedOver C) clock s)
    (ha : a ∈ s.world.issued) (hb : b ∈ s.world.issued) (hx : a.serving = some x)
    (hy : b.serving = some y) (hkey : x.request.timelineKey = y.request.timelineKey)
    (hepoch : x.state.route.epoch < y.state.route.epoch) (ht : a.Returns C t)
    (ht' : b.Returns C t') : t < t' :=
  h.lt_of_epoch_lt ha hb hx hy hkey hepoch ht ht'

/-- The lease of the first worker has expired when the second one takes the timeline over. -/
theorem later_epoch_later_timestamps_sample :
    ∃ s a x b y, Run failoverCluster (handedOver failoverCluster) (fun _ => 10) s ∧
      s.world.issued[0]? = some a ∧ s.world.issued[1]? = some b ∧ a.serving = some x ∧
      b.serving = some y ∧ x.state.route.epoch < y.state.route.epoch ∧
      a.Returns failoverCluster 305 ∧ b.Returns failoverCluster 322 ∧ 305 < 322 := by
  obtain ⟨s, a, x, b, y, hs, ha, hb, hx, hy, hkey, hepoch, ht, ht'⟩ :=
    Run.of_play_served (C := failoverCluster) (K := handedOver failoverCluster) (fun _ => 10)
      (perform 0 0 (.ensureTimeline "k" .warm 5) 60 ++
        perform 1 0 (.allocate (warmRequest 1 20) false 5) 60 ++ tickBoth 15 ++ tickBoth 20 ++
        perform 2 1 (.transferForRpc "k" "b:1" (some 1) .failover 5) 60 ++
        perform 3 1 (.allocate (warmRequest 2 1) false 5) 60) 0 1
      (fun a x b y => x.request.timelineKey = y.request.timelineKey ∧
        x.state.route.epoch < y.state.route.epoch ∧ a.Returns failoverCluster 305 ∧
        b.Returns failoverCluster 322) (by decide +kernel)
  exact ⟨s, a, x, b, y, hs, ha, hb, hx, hy, hepoch, ht, ht', later_epoch_later_timestamps hs
    (List.mem_of_getElem? ha) (List.mem_of_getElem? hb) hx hy hkey hepoch ht ht'⟩

/-- The first worker borrows ahead with one request and fails over to the second, which issues
nothing; the next failover takes its floor from the second worker's generator alone. -/
theorem later_epoch_earlier_timestamp : ∃ s a x b y, Run failoverCluster ((closeClocks [0, 1] 5).and
        ((transfersOnly (· = .failover)).and boundedAllocations)) (fun _ => 10) s ∧
      s.world.issued[0]? = some a ∧ s.world.issued[1]? = some b ∧ a.serving = some x ∧
      b.serving = some y ∧ x.request.timelineKey = y.request.timelineKey ∧
      x.state.route.epoch < y.state.route.epoch ∧ a.Returns failoverCluster 625 ∧
      b.Returns failoverCluster 484 :=
  Run.of_play_served (fun _ => 10) (perform 0 0 (.ensureTimeline "k" .warm 5) 60 ++
      perform 1 0 (.allocate (warmRequest 1 60) false 5) 100 ++ tickBoth 15 ++ tickBoth 20 ++
      perform 2 1 (.transferForRpc "k" "b:1" (some 1) .failover 5) 60 ++
      tickBoth 25 ++ tickBoth 30 ++
      perform 3 0 (.transferForRpc "k" "a:1" (some 2) .failover 5) 60 ++
      perform 4 0 (.allocate (warmRequest 3 1) false 5) 60) 0 1
    (fun a x b y => x.request.timelineKey = y.request.timelineKey ∧
      x.state.route.epoch < y.state.route.epoch ∧ a.Returns failoverCluster 625 ∧
      b.Returns failoverCluster 484) (by decide +kernel)

/-- Requests are served in the epoch that was committed when they were made, or in a later one. -/
def notSuperseded : Condition where
  effect _ _ e :=
    match e with
    | .issue a => ∀ s ∈ a.serving, s.invokedEpoch ≤ s.state.route.epoch
    | _ => True

instance : notSuperseded.Checked where
  effect p w e := by
    apply Effect.casesOn (motive := fun e => Decidable (notSuperseded.effect p w e)) e <;>
      intros <;> dsimp only [notSuperseded] <;> infer_instance

lemma Run.seen_le (h : Run C K clock s) {n : Nat} (hb : s.world.issued[n]? = some b)
    (hy : b.serving = some y) : y.seen ≤ n := by
  refine h.invariant (I := fun w : World => ∀ (n : Nat) (b : Allocation) (y : Serving),
      w.issued[n]? = some b → b.serving = some y → y.seen ≤ n) (by simp [World.initial])
    (fun p w e _ hI hpermit _ => ?_) (fun _ _ _ _ hI _ _ => hI) n b y hb hy
  rcases hpermit.issued with heq | ⟨c, rfl, heq, hissue⟩
  · exact heq ▸ hI
  intro n b y hb hy
  rw [heq] at hb
  rcases Nat.lt_or_ge n w.issued.length with hn | hn
  · rw [List.getElem?_append_left hn] at hb
    exact hI n b y hb hy
  rw [List.getElem?_append_right hn] at hb
  obtain rfl := List.mem_singleton.mp (List.mem_of_getElem? hb)
  exact (hissue.serving y hy).invoked.1.trans hn

/-- A timestamp given to a request is greater than those of every allocation that was committed
before the request was made, if no two live workers share an endpoint. -/
theorem later_request_later_timestamps
    (h : Run C ((handedOver C).and notSuperseded) clock s) {m n : Nat}
    (ha : s.world.issued[m]? = some a) (hb : s.world.issued[n]? = some b)
    (hx : a.serving = some x) (hy : b.serving = some y)
    (hkey : x.request.timelineKey = y.request.timelineKey) (hbefore : m < y.seen)
    (hworkers : ∀ endpoint, C.isLocalEndpoint a.process endpoint = true →
      C.isLocalEndpoint b.process endpoint = true → a.process = b.process)
    (ht : a.Returns C t) (ht' : b.Returns C t') : t < t' := by
  have hmemA := List.mem_of_getElem? ha
  have hmemB := List.mem_of_getElem? hb
  have hservedA := h.base.issued a hmemA x hx
  have hservedB := h.base.issued b hmemB y hy
  have hcurrent := h.issued (fun _ _ _ _ hK => hK.2) b hmemB y hy
  have hepoch := (hservedB.invoked.2 m hbefore a x ha hx hkey).trans hcurrent
  rcases hepoch.lt_or_eq with hlt | heq
  · exact h.left.lt_of_epoch_lt hmemA hmemB hx hy hkey hlt ht ht'
  -- one route, hence one generator and one endpoint
  have hroute := h.route_eq hmemA hmemB hx hy hkey heq
  have hhanded := h.left.handover
  have hgen : a.generatorId = b.generatorId := by
    rw [← hhanded.served_generator h.base hmemA hx, hroute,
      hhanded.served_generator h.base hmemB hy]
  have hcheckedA := hhanded.checked _ hservedA.locked _ rfl
  have hcheckedB := hhanded.checked _ hservedB.locked _ rfl
  have hprocess : a.process = b.process := by
    refine hworkers x.state.route.ownerWorkerEndpoint ?_ ?_
    · rw [hcheckedA]
      exact hservedA.owner
    · rw [hroute, hcheckedB]
      exact hservedB.owner
  exact h.cursor_lt (hbefore.trans_le (h.seen_le hb hy)) ha hb hprocess hgen ht ht'

/-- The first worker serves a request, hands the timeline to the second one, and that one serves
the next request above the floor it was given. -/
theorem later_request_later_timestamps_sample :
    ∃ s a x b y, Run sampleCluster ((handedOver sampleCluster).and notSuperseded) (fun _ => 10) s ∧
      s.world.issued[0]? = some a ∧ s.world.issued[1]? = some b ∧ a.serving = some x ∧
      b.serving = some y ∧ a.process = 0 ∧ b.process = 1 ∧ 0 < y.seen ∧
      a.Returns sampleCluster 160 ∧ b.Returns sampleCluster 962 ∧ 160 < 962 := by
  obtain ⟨s, a, x, b, y, hs, ha, hb, hx, hy, hpa, hpb, hkey, hseen, ht, ht'⟩ :=
    Run.of_play_served (C := sampleCluster) (K := (handedOver sampleCluster).and notSuperseded)
      (fun _ => 10)
      (perform 0 0 (.ensureTimeline "k" .shared 5) 60 ++
        perform 1 0 (.allocate (sampleRequest 1 1) false 5) 60 ++
        perform 2 1 (.transferForRpc "k" "b:1" (some 1) .manual 5) 60 ++
        perform 3 1 (.allocate (sampleRequest 2 2) false 5) 60) 0 1
      (fun a x b y => a.process = 0 ∧ b.process = 1 ∧
        x.request.timelineKey = y.request.timelineKey ∧ 0 < y.seen ∧
        a.Returns sampleCluster 160 ∧ b.Returns sampleCluster 962) (by decide +kernel)
  refine ⟨s, a, x, b, y, hs, ha, hb, hx, hy, hpa, hpb, hseen, ht, ht', ?_⟩
  refine later_request_later_timestamps hs ha hb hx hy hkey hseen (fun endpoint hA hB => ?_) ht ht'
  rw [hpa] at hA
  rw [hpb] at hB
  exact absurd ((endpointsMatch_lower hA).symm.trans (endpointsMatch_lower hB)) (by decide)

/-- The first worker goes on serving its cached route after the second one has taken the timeline
over and served a request. -/
theorem later_request_earlier_timestamp :
    ∃ s a x b y, Run sampleCluster ((closeClocks [0, 1] 5).and (transfersOnly (· ≠ .failover)))
        (fun _ => 10) s ∧
      s.world.issued[0]? = some a ∧ s.world.issued[1]? = some b ∧ a.serving = some x ∧
      b.serving = some y ∧ x.request.timelineKey = y.request.timelineKey ∧ 0 < y.seen ∧
      a.Returns sampleCluster 962 ∧ b.Returns sampleCluster 160 :=
  Run.of_play_served (fun _ => 10) (perform 0 0 (.ensureTimeline "k" .shared 5) 60 ++
      perform 1 1 (.transferForRpc "k" "b:1" (some 1) .manual 5) 60 ++
      perform 2 1 (.allocate (sampleRequest 2 2) false 5) 60 ++
      perform 3 0 (.allocate (sampleRequest 1 1) false 5) 60) 0 1
    (fun a x b y => x.request.timelineKey = y.request.timelineKey ∧ 0 < y.seen ∧
      a.Returns sampleCluster 962 ∧ b.Returns sampleCluster 160) (by decide +kernel)

def latestEpoch : Condition where
  effect _ w e :=
    match e with
    | .issue a => ∀ s ∈ a.serving,
        w.committedEpoch s.request.timelineKey ≤ s.state.route.epoch
    | _ => True

instance : latestEpoch.Checked where
  effect p w e := by
    apply Effect.casesOn (motive := fun e => Decidable (latestEpoch.effect p w e)) e <;>
      intros <;> dsimp only [latestEpoch] <;> infer_instance

lemma Run.epoch_order (h : Run C (K.and latestEpoch) clock s) :
    s.world.issued.Pairwise fun a b => ∀ x y, a.serving = some x → b.serving = some y →
      x.request.timelineKey = y.request.timelineKey →
      x.state.route.epoch ≤ y.state.route.epoch := by
  refine h.invariant (I := fun w : World => w.issued.Pairwise fun a b : Allocation =>
    ∀ x y : Serving, a.serving = some x → b.serving = some y →
      x.request.timelineKey = y.request.timelineKey →
    x.state.route.epoch ≤ y.state.route.epoch) .nil
    (fun p w e hbase hI hpermit hK => ?_) fun _ _ _ _ hI _ _ => hI
  rcases hpermit.issued with heq | ⟨c, rfl, heq, hissue⟩
  · exact heq ▸ hI
  rw [heq]
  refine List.pairwise_append.mpr ⟨hI, List.pairwise_singleton _ _, fun a ha b hb => ?_⟩
  obtain rfl := List.mem_singleton.mp hb
  intro x y hx hy hkey
  obtain ⟨v, hv, hroute, -⟩ := (hbase.issued a ha x hx).handle
  have hlatest := (hK.resolve_left nofun).2 y hy
  rw [← hroute]
  exact (hbase.epoch_le (hkey ▸ hv)).trans hlatest

/-- Within one worker, each allocation for a timeline is greater than all those before it. -/
theorem next_allocation_later_timestamps
    (h : Run C ((handedOver C).and latestEpoch) clock s) {m n : Nat} (hmn : m < n)
    (ha : s.world.issued[m]? = some a) (hb : s.world.issued[n]? = some b)
    (hx : a.serving = some x) (hy : b.serving = some y)
    (hkey : x.request.timelineKey = y.request.timelineKey) (hprocess : a.process = b.process)
    (ht : a.Returns C t) (ht' : b.Returns C t') : t < t' := by
  have hmemA := List.mem_of_getElem? ha
  have hmemB := List.mem_of_getElem? hb
  have hepoch : x.state.route.epoch ≤ y.state.route.epoch := by
    obtain ⟨hm, rfl⟩ := List.getElem?_eq_some_iff.mp ha
    obtain ⟨hn, rfl⟩ := List.getElem?_eq_some_iff.mp hb
    exact List.pairwise_iff_getElem.mp h.epoch_order m n hm hn hmn x y hx hy hkey
  rcases hepoch.lt_or_eq with hlt | heq
  · exact h.left.lt_of_epoch_lt hmemA hmemB hx hy hkey hlt ht ht'
  have hroute := h.route_eq hmemA hmemB hx hy hkey heq
  have hhanded := h.left.handover
  have hgen : a.generatorId = b.generatorId := by
    rw [← hhanded.served_generator h.base hmemA hx, hroute,
      hhanded.served_generator h.base hmemB hy]
  exact h.cursor_lt hmn ha hb hprocess hgen ht ht'

/-- The worker keeps its cached state, so the transfer to its other generator knows what has been
issued. -/
theorem next_allocation_later_timestamps_sample :
    ∃ s a x b y, Run sampleCluster ((handedOver sampleCluster).and latestEpoch) (fun _ => 10) s ∧
      s.world.issued[0]? = some a ∧ s.world.issued[1]? = some b ∧ a.serving = some x ∧
      b.serving = some y ∧ a.generatorId = 2 ∧ b.generatorId = 0 ∧
      a.Returns sampleCluster 164 ∧ b.Returns sampleCluster 176 ∧ 164 < 176 := by
  obtain ⟨s, a, x, b, y, hs, ha, hb, hx, hy, hga, hgb, hkey, hprocess, ht, ht'⟩ :=
    Run.of_play_served (C := sampleCluster) (K := (handedOver sampleCluster).and latestEpoch)
      (fun _ => 10)
      (perform 0 0 (.ensureTimeline "k" .shared 5) 60 ++
        perform 1 0 (.transferForRpc "k" "a:1" (some 2) .manual 5) 60 ++
        perform 2 0 (.allocate (sampleRequest 2 2) false 5) 60 ++
        perform 3 0 (.transferForRpc "k" "a:1" (some 0) .manual 5) 60 ++
        perform 4 0 (.allocate (sampleRequest 3 3) false 5) 60) 0 1
      (fun a x b y => a.generatorId = 2 ∧ b.generatorId = 0 ∧
        x.request.timelineKey = y.request.timelineKey ∧ a.process = b.process ∧
        a.Returns sampleCluster 164 ∧ b.Returns sampleCluster 176) (by decide +kernel)
  exact ⟨s, a, x, b, y, hs, ha, hb, hx, hy, hga, hgb, ht, ht',
    next_allocation_later_timestamps hs (by decide) ha hb hx hy hkey hprocess ht ht'⟩

/-- In one worker with a steady clock: an allocation, an eviction, a reload of the record, a
transfer to another generator of the worker, and an allocation there. -/
theorem next_allocation_earlier_timestamp :
    ∃ s a x b y, Run sampleCluster ((closeClocks [0] 0).and (transfersOnly (· ≠ .failover)))
        (fun _ => 10) s ∧
      s.world.issued[0]? = some a ∧ s.world.issued[1]? = some b ∧ a.serving = some x ∧
      b.serving = some y ∧ x.request.timelineKey = y.request.timelineKey ∧
      a.Returns sampleCluster 164 ∧ b.Returns sampleCluster 160 :=
  Run.of_play_served (fun _ => 10) (perform 0 0 (.ensureTimeline "k" .shared 5) 60 ++
      perform 1 0 (.transferForRpc "k" "a:1" (some 2) .manual 5) 60 ++
      perform 2 0 (.allocate (sampleRequest 2 2) false 5) 60 ++
      [.label (.env (.evict 0 "k"))] ++
      perform 3 0 (.ensureTimeline "k" .shared 5) 60 ++
      perform 4 0 (.transferForRpc "k" "a:1" (some 0) .manual 5) 60 ++
      perform 5 0 (.allocate (sampleRequest 3 3) false 5) 60) 0 1
    (fun a x b y => x.request.timelineKey = y.request.timelineKey ∧
      a.Returns sampleCluster 164 ∧ b.Returns sampleCluster 160) (by decide +kernel)

end

end Chronos
