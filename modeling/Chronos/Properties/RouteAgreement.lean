import Chronos.Service.System

/-! A response speaks of the route its request asked for. The guard checks the cached route before
the admission wait, and the response is made from the route found under the lock after it. -/

namespace Chronos

open Interleaving

variable {C : Cluster} {K : Condition} {p : Nat} {key : String} {w : World} {e : Effect}
  {v : TimelineVersion} {clock : Nat → Nat} {s : State}
  {request : AllocateTimestampsRequest} {response : AllocateTimestampsResponse}

def LocksChecked (w : World) : Prop :=
  ∀ lock ∈ w.locks, ∀ route, lock.checked = some route → lock.state.route = route

lemma LocksChecked.apply (h : LocksChecked w)
    (hlock : ∀ key i checked state, e = .lock key i (some checked) state → state.route = checked) :
    LocksChecked (w.apply p e) := by
  intro lock hmem route hchecked
  rcases World.locks_apply (w := w) (p := p) (e := e) with heq | ⟨key, i, checked, state, rfl, heq⟩
  · exact h lock (heq ▸ hmem) route hchecked
  rw [heq] at hmem
  rcases List.mem_cons.mp hmem with rfl | hmem
  · obtain rfl : checked = some route := hchecked
    exact hlock key i route state rfl
  · exact h lock hmem route hchecked

def sameRoute : Condition where
  effect _ _ e :=
    match e with
    | .lock _ _ (some checked) state => state.route = checked
    | _ => True

instance : sameRoute.Checked where
  effect _ _ _ := by
    unfold sameRoute
    dsimp only
    split <;> infer_instance

lemma Run.locksChecked (h : Run C sameRoute clock s) : LocksChecked s.world := by
  refine h.invariant (by simp [LocksChecked, World.initial]) (fun p w e _ hI _ hK => ?_)
    fun _ _ _ _ hI _ _ => hI
  refine hI.apply fun key i checked state he => ?_
  subst he
  exact hK.resolve_left Bool.false_ne_true

lemma TimelineCommit.timelineKey (h : TimelineCommit C p key w v)
    (hkeys : ∀ v0 ∈ w.timelines key, v0.record.route.timelineKey = key) :
    v.record.route.timelineKey = key := by
  have hhead : ∀ v0, (w.timelines key).head? = some v0 → v0.record.route.timelineKey = key :=
    fun v0 hv0 => hkeys v0 (List.mem_of_mem_head? hv0)
  unfold TimelineCommit at h
  split at h
  · obtain ⟨-, g, tier, now, hrecord⟩ := h
    rw [hrecord]
    rfl
  · obtain ⟨v0, hv0, now, hrecord⟩ := h
    rw [hrecord]
    exact hhead v0 hv0
  · obtain ⟨v0, hv0, target, state, now, hrecord⟩ := h
    rw [hrecord]
    exact hhead v0 hv0
  · obtain ⟨v0, hv0, -, -, -, target, now, hrecord⟩ := h
    rw [hrecord]
    exact hhead v0 hv0
  obtain ⟨v0, hv0, now, hrecord⟩ := h
  rw [hrecord]
  exact hhead v0 hv0

lemma Run.route_timelineKey (h : Run C K clock s) :
    ∀ key, ∀ v ∈ s.world.timelines key, v.record.route.timelineKey = key := by
  refine h.invariant
    (I := fun w : World => ∀ key, ∀ v ∈ w.timelines key, v.record.route.timelineKey = key)
    (by simp [World.initial]) (fun p w e _ hI hpermit _ key => ?_) fun _ _ _ _ hI _ _ => hI
  rcases hpermit.timelines key with heq | ⟨v, -, heq, -, hcommit⟩
  · rw [heq]
    exact hI key
  · rw [heq, List.forall_mem_cons]
    exact ⟨hcommit.timelineKey (hI key), hI key⟩

/-- A response carries the epoch and the route version its request expected, and the generator of
the committed route that has them; so do its timestamps. -/
structure Agrees (C : Cluster) (w : World) (request : AllocateTimestampsRequest)
    (response : AllocateTimestampsResponse) : Prop where
  timelineKey : response.timelineKey = request.timelineKey
  epoch : response.epoch = request.expectedEpoch
  routeVersion : response.routeVersion = request.expectedRouteVersion
  committed : ∃ v ∈ w.timelines request.timelineKey, v.record.route.epoch = response.epoch ∧
    v.record.route.routeVersion = response.routeVersion
  generator : ∀ v ∈ w.timelines request.timelineKey, v.record.route.epoch = response.epoch →
    v.record.route.routeVersion = response.routeVersion →
    v.record.route.generatorId = response.generatorId
  encoded : ∀ t, Generator.Covers response.ranges t →
    (C.layout.decode t).generatorId = response.generatorId

/-- While cached routes do not change between check and lock, every response that was returned
agrees with the route of its request. -/
theorem response_agrees_with_route (h : Run C sameRoute clock s)
    (ht : ⟨p, .ret (some (request, response))⟩ ∈ s.threads) :
    Agrees C s.world request response := by
  obtain ⟨a, ha, x, hx, rfl, hgen, hkey, hepoch, hversion, hranges⟩ := h.answered ht
  have hserving := h.base.issued a ha x hx
  obtain ⟨v0, hv0, hroute0, -⟩ := hserving.handle
  have hroute := h.locksChecked _ hserving.locked x.checkedRoute rfl
  refine ⟨?_, ?_, ?_, ⟨v0, hv0, ?_, ?_⟩, fun v hv hv_epoch _ => ?_, fun t htime => ?_⟩
  · rw [← hkey, ← hroute0]
    exact h.route_timelineKey _ v0 hv0
  · rw [← hepoch, hroute]
    exact hserving.epoch
  · rw [← hversion, hroute]
    exact hserving.routeVersion
  · rw [hroute0, hepoch]
  · rw [hroute0, hversion]
  · have hsame := h.base.route_eq hv hv0 (by rw [hv_epoch, hroute0, hepoch])
    rw [hsame, hroute0, hroute, hserving.generator, hgen]
  · obtain ⟨j, -, -, rfl⟩ := (Generator.allocatedRanges_covers hranges).mp htime
    rw [TimestampLayout.decode_tsoAt_generatorId hserving.range, hgen]

/-- The second of two requests is served from the cached route. -/
theorem response_agrees_with_route_sample :
    ∃ s p response, Run sampleCluster sameRoute (fun _ => 10) s ∧
      ⟨p, .ret (some (sampleRequest 1 1, response))⟩ ∈ s.threads ∧
      response.ranges = [⟨161, 161⟩] ∧ Agrees sampleCluster s.world
        (sampleRequest 1 1) response := by
  obtain ⟨s, hs, hserved⟩ := Run.of_play (C := sampleCluster) (K := sameRoute) (fun _ => 10)
    (perform 0 0 (.ensureTimeline "k" .shared 5) 60 ++
      perform 1 0 (.allocate (sampleRequest 1 1) true 5) 60 ++
      perform 2 0 (.allocate (sampleRequest 1 1) true 5) 60)
    (fun s => s.result 2 = some (some (sampleRequest 1 1, ⟨"k", 0, 1, 1, [⟨161, 161⟩]⟩)))
    (by decide +kernel)
  obtain ⟨p, hmem⟩ := Sys.mem_threads_of_result (of_decide_eq_true hserved)
  exact ⟨s, p, _, hs, hmem, rfl, response_agrees_with_route hs hmem⟩

/-- A request passes the guard on generator 0; before its lock is taken, a local transfer moves the
cached route to generator 2. -/
theorem response_disagrees_with_route :
    ∃ s p response, Run sampleCluster unconditional (fun _ => 10) s ∧
      ⟨p, .ret (some (sampleRequest 1 1, response))⟩ ∈ s.threads ∧
      response.epoch = 2 ∧ response.routeVersion = 2 ∧ response.generatorId = 0 ∧
      (s.world.timelines "k").map (fun v => (v.record.route.epoch, v.record.route.generatorId)) =
        [(2, 2), (1, 0)] := by
  obtain ⟨s, hs, hfound⟩ := Run.of_play (C := sampleCluster) (K := unconditional) (fun _ => 10)
    (perform 0 0 (.ensureTimeline "k" .shared 5) 60 ++
      perform 1 0 (.allocate (sampleRequest 1 1) true 5) 60 ++
      perform 2 0 (.allocate (sampleRequest 1 1) true 5) 12 ++
      perform 3 0 (.transferForRpc "k" "a:1" (some 2) .manual 5) 60 ++ [.drive 2 60])
    (fun s => s.result 2 = some (some (sampleRequest 1 1, ⟨"k", 0, 2, 2, [⟨161, 161⟩]⟩)) ∧
      (s.world.timelines "k").map (fun v => (v.record.route.epoch, v.record.route.generatorId)) =
        [(2, 2), (1, 0)]) (by decide +kernel)
  obtain ⟨hserved, hroutes⟩ := of_decide_eq_true hfound
  obtain ⟨p, hmem⟩ := Sys.mem_threads_of_result hserved
  exact ⟨s, p, _, hs, hmem, rfl, rfl, rfl, hroutes⟩

end Chronos
