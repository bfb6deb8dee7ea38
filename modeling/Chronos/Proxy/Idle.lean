import Chronos.Proxy.Sequential

/-! The queue of idle lanes. A lane is queued whenever its last lease is dropped and taken out only
by a prune, so a lane that is leased and dropped again is queued once more. -/

namespace Chronos

open TimelineScopedAllocator List

namespace LeaseWorld

def Unleased (w : LeaseWorld) (key : String) (x : SerializerId) : Prop :=
  w.allocator.timelineSerializers.lookup key = some x ∧ (key, x) ∉ w.leases

structure Sound (maxSerializers : Nat) (w : LeaseWorld) : Prop where
  capacity : w.allocator.maxSerializers = maxSerializers
  slots : w.allocator.serializerSlots = w.allocator.laneCount
  room : w.allocator.serializerSlots ≤ w.allocator.maxSerializers
  fresh : ∀ key x, w.allocator.timelineSerializers.lookup key = some x →
    x < w.allocator.nextSerializer
  lane : ∀ key x, (key, x) ∈ w.leases → w.allocator.timelineSerializers.lookup key = some x
  idle : ∀ key x, w.allocator.timelineSerializers.lookup key = some x →
    (w.allocator.references x = 0 ↔ (key, x) ∉ w.leases)

variable {w w' : LeaseWorld} {maxSerializers : Nat}

lemma Reachable.sound (h : w.Reachable maxSerializers) : w.Sound maxSerializers := by
  obtain ⟨s, hs, hw⟩ := h.replayed
  have hinv := hs.inv
  have hslots := hinv.slots_of_quiet hw.quiet
  have hcap := hinv.capacity
  have hroom := hinv.room
  have hfresh := hinv.lanes
  have hseparate := hinv.separate
  have hreferences := hinv.references
  have hfits := hinv.fits
  rw [hw.allocator] at hslots hcap hroom hfresh hseparate hreferences hfits
  have hlive : ∀ task ∈ s.tasks, ∀ key x, task.footing.lease = some (key, x) →
      w.allocator.timelineSerializers.lookup key = some x := by
    intro task htask key x hlease
    obtain ⟨i, hi⟩ := mem_iff_getElem?.mp htask
    exact (hfits i task hi).lane (Footing.lane_of_lease hlease)
  have hmem : ∀ key x, (key, x) ∈ w.leases ↔
      ∃ task ∈ s.tasks, task.footing.lease = some (key, x) := by
    intro key x
    rw [← count_pos_iff, hw.leases, countP_pos_iff]
    simp
  refine ⟨hcap, hslots, hroom, hfresh, fun key x hlease => ?_, fun key x hlook => ?_⟩
  · obtain ⟨task, htask, hlease⟩ := (hmem key x).mp hlease
    exact hlive task htask key x hlease
  rw [hreferences, countP_eq_zero, hmem]
  constructor
  · rintro hnone ⟨task, htask, hlease⟩
    exact hnone task htask (by simp [Footing.leases, hlease])
  intro hnone task htask hleases
  obtain ⟨⟨other, y⟩, hlease, heq⟩ := (Option.any_eq_true ..).mp hleases
  obtain rfl : y = x := of_decide_eq_true heq
  obtain rfl := hseparate other key y (hlive task htask other y hlease) hlook
  exact hnone ⟨task, htask, hlease⟩

lemma Sound.idleLane_iff (h : w.Sound maxSerializers) {key : String} :
    w.allocator.IdleLane key ↔ ∃ x, w.Unleased key x :=
  exists_congr fun x => and_congr_right fun hlook => h.idle key x hlook

end LeaseWorld

/-- A timeline without a lane is refused only if there are as many lanes as there may be and each of
them is leased, exactly if, whenever one of so many lanes is not leased, one of the entries that a
prune looks at names such a lane. -/
theorem ingress_saturation_iff (maxSerializers : Nat) (hpos : 1 ≤ maxSerializers) (w : LeaseWorld)
    (hw : w.Reachable maxSerializers) (key : String)
    (hnew : w.allocator.timelineSerializers.lookup key = none) :
    ∃ result a', w.allocator.serializerFor key = some (result, a') ∧
      ((result = .error (.timelineIngressSaturated key maxSerializers) →
        w.allocator.laneCount = maxSerializers ∧
        ∀ k x, w.allocator.timelineSerializers.lookup k = some x → (k, x) ∈ w.leases) ↔
      (w.allocator.laneCount = maxSerializers → (∃ k x, w.Unleased k x) →
        ∃ k ∈ w.allocator.idleSerializers.take maxSerializers, ∃ x, w.Unleased k x)) := by
  have h := hw.sound
  obtain ⟨result, a', heq, houtcome⟩ := serializerFor_outcome h.slots h.room key
  refine ⟨result, a', heq, ?_⟩
  have hlanes := h.slots
  have hroom := h.room
  have hcapacity := h.capacity
  cases houtcome with
  | existing hlookup => cases hnew.symm.trans hlookup
  | created _ hlt =>
    have hne : w.allocator.laneCount ≠ maxSerializers := by omega
    simp [hne]
  | saturated _ hfull hnone _ =>
    have hcount : w.allocator.laneCount = maxSerializers := by omega
    have hnone : ∀ k ∈ w.allocator.idleSerializers.take maxSerializers, ¬∃ x, w.Unleased k x := by
      rw [hcount, max_eq_left hpos] at hnone
      exact fun k hk hidle => hnone k hk (h.idleLane_iff.mpr hidle)
    rw [hcapacity]
    constructor
    · rintro hall - ⟨k, x, hlookup, hnot⟩
      exact absurd ((hall rfl).2 k x hlookup) hnot
    intro hcond _
    refine ⟨hcount, fun k x hlookup => ?_⟩
    by_contra hnot
    obtain ⟨k', hk', hidle⟩ := hcond hcount ⟨k, x, hlookup, hnot⟩
    exact hnone k' hk' hidle
  | @replaced _ other _ hfull _ hpruned hmem =>
    have hcount : w.allocator.laneCount = maxSerializers := by omega
    rw [hcount, max_eq_left hpos] at hmem
    have hfound : ∃ k ∈ w.allocator.idleSerializers.take maxSerializers, ∃ x, w.Unleased k x :=
      ⟨other, hmem, h.idleLane_iff.mp hpruned.idle⟩
    simp [hfound]

theorem ingress_saturation_of_dropped_lease :
    ∃ w result a', LeaseWorld.Reachable 2 w ∧ w.allocator.laneCount = 2 ∧
      w.allocator.serializerFor "c" = some (result, a') ∧
      (result = .error (.timelineIngressSaturated "c" 2) →
        ∀ k x, w.allocator.timelineSerializers.lookup k = some x → (k, x) ∈ w.leases) := by
  have hrun : (Transition.run LeaseWorld.step (fun _ _ => True)
      [.serializerFor "a", .serializerFor "b", .dropLease "b" 1] (.initial 2)).any
      (fun w => w.allocator.timelineSerializers.lookup "c" = none ∧ w.allocator.laneCount = 2 ∧
        w.allocator.idleSerializers = ["b"] ∧ w.leases = [("a", 0)] ∧
        w.allocator.timelineSerializers.lookup "b" = some 1) = true := by
    decide +kernel
  obtain ⟨w, hw, hend⟩ := Transition.Reach.exists_of_run hrun
  obtain ⟨hnew, hcount, hq, hleases, hlane⟩ := of_decide_eq_true hend
  obtain ⟨result, a', heq, hiff⟩ := ingress_saturation_iff 2 (by decide) w hw "c" hnew
  have hfound : ∃ k ∈ w.allocator.idleSerializers.take 2, ∃ x, w.Unleased k x :=
    ⟨"b", by simp [hq], 1, hlane, by simp [hleases]⟩
  exact ⟨w, result, a', hw, hcount, heq, fun hsat => (hiff.mpr (fun _ _ => hfound) hsat).2⟩

/-- Two outdated entries for a lane that is leased again use up the attempts of a prune, which never
gets to the idle lane behind them. -/
theorem saturated_beside_idle_lane :
    ∃ w a', LeaseWorld.Reachable 2 w ∧ w.allocator.timelineSerializers.lookup "c" = none ∧
      w.allocator.serializerFor "c" = some (.error (.timelineIngressSaturated "c" 2), a') ∧
      w.Unleased "b" 1 := by
  have hrun : (Transition.run LeaseWorld.step (fun _ _ => True)
      [.serializerFor "a", .dropLease "a" 0, .serializerFor "a", .dropLease "a" 0,
        .serializerFor "a", .serializerFor "b", .dropLease "b" 1] (.initial 2)).any
      (fun w => w.allocator.timelineSerializers.lookup "c" = none ∧
        (w.allocator.serializerFor "c").map (·.1) =
          some (.error (.timelineIngressSaturated "c" 2)) ∧
        w.allocator.timelineSerializers.lookup "b" = some 1 ∧ ("b", 1) ∉ w.leases) = true := by
    decide +kernel
  obtain ⟨w, hw, hend⟩ := Transition.Reach.exists_of_run hrun
  obtain ⟨hnew, hsaturated, hlane, hnot⟩ := of_decide_eq_true hend
  obtain ⟨⟨_, a'⟩, heq, rfl⟩ := Option.map_eq_some_iff.mp hsaturated
  exact ⟨w, a', hw, hnew, heq, hlane, hnot⟩

section

/-- A lane that `serializer_for` finds is in use. -/
def leasesBusyLanes (w : LeaseWorld) : LeaseCall → Prop
  | .serializerFor key =>
    (w.allocator.timelineSerializers.lookup key).all fun x => w.allocator.references x ≠ 0
  | _ => True

instance (w : LeaseWorld) (call : LeaseCall) : Decidable (leasesBusyLanes w call) := by
  cases call <;> unfold leasesBusyLanes <;> infer_instance

structure QueueOfIdle (a : TimelineScopedAllocator) : Prop where
  nodup : a.idleSerializers.Nodup
  idle : ∀ key ∈ a.idleSerializers, a.IdleLane key

variable {a a' : TimelineScopedAllocator} {key : String} {x : SerializerId}

lemma QueueOfIdle.length_le (h : QueueOfIdle a) : a.idleSerializers.length ≤ a.laneCount := by
  refine (subperm_of_subset h.nodup fun key hkey => ?_).length_le
  obtain ⟨x, hlook, -⟩ := h.idle key hkey
  exact AList.mem_keys.mp (AList.lookup_isSome.mp (Option.isSome_iff_exists.mpr ⟨x, hlook⟩))

lemma QueueOfIdle.sublist {q : List String} (h : QueueOfIdle a)
    (hsub : q.Sublist a.idleSerializers) : QueueOfIdle (a.setIdle q) :=
  ⟨h.nodup.sublist hsub, fun key hkey => h.idle key (hsub.subset hkey)⟩

lemma QueueOfIdle.pruned (h : QueueOfIdle a) (hpruned : Pruned a a' key) : QueueOfIdle a' := by
  obtain ⟨before, hsplit⟩ := hpruned.queue
  have hnodup := h.nodup
  rw [hsplit] at hnodup
  have hrest := (nodup_append.mp hnodup).2.1
  refine ⟨(nodup_cons.mp hrest).2, fun other hother => ?_⟩
  have hne : other ≠ key := by
    rintro rfl
    exact (nodup_cons.mp hrest).1 hother
  obtain ⟨y, hlook, hzero⟩ := h.idle other (by rw [hsplit]; simp [hother])
  rw [hpruned.eq]
  exact ⟨y, (AList.lookup_erase_ne hne).trans hlook, hzero⟩

lemma QueueOfIdle.inserted (h : QueueOfIdle a) (slots : Nat)
    (hnew : a.timelineSerializers.lookup key = none)
    (hfresh : ∀ key x, a.timelineSerializers.lookup key = some x → x < a.nextSerializer) :
    QueueOfIdle ((a.setSlots slots).insertSerializer key) := by
  refine ⟨h.nodup, fun other hother => ?_⟩
  obtain ⟨y, hlook, hzero⟩ := h.idle other hother
  have hne : other ≠ key := by
    rintro rfl
    cases hnew.symm.trans hlook
  refine ⟨y, (AList.lookup_insert_ne hne).trans hlook, ?_⟩
  rw [references, serializers_insertSerializer (a := a.setSlots slots) (hfresh other y hlook)]
  exact hzero

lemma QueueOfIdle.setReferences (h : QueueOfIdle a) (hx : a.references x ≠ 0) (n : Nat) :
    QueueOfIdle (a.setReferences x n) := by
  refine ⟨h.nodup, fun other hother => ?_⟩
  obtain ⟨y, hlook, hzero⟩ := h.idle other hother
  refine ⟨y, hlook, ?_⟩
  have hne : y ≠ x := by
    rintro rfl
    exact hx hzero
  rw [references_setReferences, if_neg hne, hzero]

lemma QueueOfIdle.pruneOneIdleSerializer (h : QueueOfIdle a) :
    QueueOfIdle a.pruneOneIdleSerializer.2 := by
  rcases pruneOneIdleSerializer_cases a with ⟨heq, -⟩ | ⟨a', key, heq, hpruned, -⟩
  · rw [heq]
    exact h.sublist (drop_sublist ..)
  · rw [heq]
    exact h.pruned hpruned

lemma QueueOfIdle.dropLease (h : QueueOfIdle a)
    (hlook : a.timelineSerializers.lookup key = some x) (hx : a.references x ≠ 0) :
    QueueOfIdle (a.dropLease key x) := by
  have hset := h.setReferences hx (a.references x - 1)
  unfold TimelineScopedAllocator.dropLease
  dsimp only
  split_ifs with hlast
  · have hnot : key ∉ a.idleSerializers := by
      intro hkey
      obtain ⟨y, hy, hzero⟩ := h.idle key hkey
      cases hlook.symm.trans hy
      exact hx hzero
    have hidle : (a.setReferences x (a.references x - 1)).references x = 0 := by
      rw [references_setReferences, if_pos rfl, hlast]
    refine ⟨nodup_append.mpr ⟨h.nodup, nodup_singleton key, ?_⟩, fun other hother => ?_⟩
    · rintro other hother _ hkey rfl
      exact hnot (mem_singleton.mp hkey ▸ hother)
    rcases mem_append.mp hother with hold | hkey
    · exact hset.idle other hold
    · rw [mem_singleton.mp hkey]
      exact ⟨x, hlook, hidle⟩
  · exact hset

lemma QueueOfIdle.step {w w' : LeaseWorld} {call : LeaseCall} {maxSerializers : Nat}
    (h : QueueOfIdle w.allocator) (hw : w.Sound maxSerializers) (hbusy : leasesBusyLanes w call)
    (hstep : w.step call = some w') : QueueOfIdle w'.allocator := by
  cases call with
  | serializerFor key =>
    obtain ⟨result, a', heq, houtcome⟩ := serializerFor_outcome hw.slots hw.room key
    have hstep : (w.allocator.serializerFor key).map (w.acquired key) = some w' := hstep
    have hnext : w'.allocator = a' := by
      rw [heq] at hstep
      cases hstep
      cases result <;> rfl
    rw [hnext]
    cases houtcome with
    | @existing x hlookup =>
      have hx : w.allocator.references x ≠ 0 := by simpa [leasesBusyLanes, hlookup] using hbusy
      exact h.setReferences hx _
    | created hnew => exact h.inserted _ hnew hw.fresh
    | saturated => exact h.sublist (drop_sublist ..)
    | @replaced b other _ _ _ hpruned _ hnew =>
      refine (h.pruned hpruned).inserted _ hnew fun key x hlookup => ?_
      rw [hpruned.eq] at hlookup ⊢
      exact hw.fresh key x (KeyValue.lookup_erase_eq_some hlookup).2
  | dropLease key x =>
    obtain ⟨hlease, hstep⟩ := Option.ite_none_right_eq_some.mp hstep
    cases hstep
    have hlookup := hw.lane key x hlease
    exact h.dropLease hlookup fun hzero => (hw.idle key x hlookup).mp hzero hlease
  | pruneOneIdleSerializer =>
    cases hstep
    exact h.pruneOneIdleSerializer

end

/-- As long as no lane is leased again once it is idle, the queue is no longer than there are
lanes. -/
theorem idle_queue_bounded (maxSerializers : Nat) (w : LeaseWorld)
    (hw : w.ReachableBy leasesBusyLanes maxSerializers) :
    w.allocator.idleSerializers.length ≤ w.allocator.laneCount ∧
      w.allocator.laneCount ≤ maxSerializers := by
  have h : w.Reachable maxSerializers ∧ QueueOfIdle w.allocator := by
    refine Transition.Reach.invariant
      (I := fun w => w.Reachable maxSerializers ∧ QueueOfIdle w.allocator) hw
      ⟨.refl, nodup_nil, by simp [LeaseWorld.initial, TimelineScopedAllocator.new]⟩ ?_
    rintro w call w' ⟨hreach, hq⟩ hbusy hstep
    exact ⟨hreach.tail trivial hstep, hq.step hreach.sound hbusy hstep⟩
  have hsound := h.1.sound
  refine ⟨h.2.length_le, ?_⟩
  rw [← hsound.slots, ← hsound.capacity]
  exact hsound.room

/-- Two lanes, one of which is leased again while it is in use. -/
theorem idle_queue_bounded_of_dropped_lease :
    ∃ w, LeaseWorld.ReachableBy leasesBusyLanes 2 w ∧ w.allocator.idleSerializers = ["a", "b"] ∧
      2 ≤ w.allocator.laneCount ∧ w.allocator.laneCount ≤ 2 := by
  have hrun : (Transition.run LeaseWorld.step leasesBusyLanes
      [.serializerFor "a", .serializerFor "b", .serializerFor "b", .dropLease "b" 1,
        .dropLease "a" 0, .dropLease "b" 1] (.initial 2)).any
      (fun w => w.allocator.idleSerializers = ["a", "b"]) = true := by
    decide +kernel
  obtain ⟨w, hw, hend⟩ := Transition.Reach.exists_of_run hrun
  have hqueue := of_decide_eq_true hend
  have h := idle_queue_bounded 2 w hw
  rw [hqueue] at h
  exact ⟨w, hw, hqueue, h⟩

/-- One lane, leased and dropped twice, is queued twice. -/
theorem idle_queue_exceeds_lanes : ∃ w, LeaseWorld.Reachable 1 w ∧
      ¬w.allocator.idleSerializers.length ≤ w.allocator.laneCount := by
  have hrun : (Transition.run LeaseWorld.step (fun _ _ => True)
      [.serializerFor "a", .dropLease "a" 0, .serializerFor "a", .dropLease "a" 0]
      (.initial 1)).any
      (fun w => ¬w.allocator.idleSerializers.length ≤ w.allocator.laneCount) = true := by
    decide +kernel
  obtain ⟨w, hw, hend⟩ := Transition.Reach.exists_of_run hrun
  exact ⟨w, hw, of_decide_eq_true hend⟩

end Chronos
