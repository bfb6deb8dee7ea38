import Chronos.Dedicated.Worker

/-! The hand-off of a worker that shuts down. It lists every timeline, and moves each of its own to
a generator on which another worker serves a timeline of the same tier, taking these in turn; the
transfers run side by side. -/

namespace Chronos

open Interleaving List Option

structure ShutdownTransferCandidates where
  shared : List (String × Nat) := []
  warm : List (String × Nat) := []
  dedicated : List (String × Nat) := []
  deriving DecidableEq

structure ShutdownTransferState where
  shared : Nat := 0
  warm : Nat := 0
  dedicated : Nat := 0
  deriving DecidableEq

namespace ShutdownTransferCandidates

def pool (candidates : ShutdownTransferCandidates) : ResourceTier → List (String × Nat)
  | .shared => candidates.shared
  | .warm => candidates.warm
  | .dedicated => candidates.dedicated

def push (candidates : ShutdownTransferCandidates) (candidate : String × Nat) :
    ResourceTier → ShutdownTransferCandidates
  | .shared => { candidates with shared := candidates.shared ++ [candidate] }
  | .warm => { candidates with warm := candidates.warm ++ [candidate] }
  | .dedicated => { candidates with dedicated := candidates.dedicated ++ [candidate] }

lemma mem_pool_push {candidates : ShutdownTransferCandidates} {candidate x : String × Nat}
    {tier tier' : ResourceTier} (h : x ∈ (candidates.push candidate tier).pool tier') :
    x ∈ candidates.pool tier' ∨ x = candidate ∧ tier' = tier := by
  cases tier <;> cases tier' <;> simp_all [push, pool]

end ShutdownTransferCandidates

structure ShutdownInventory where
  localTimelines : List TimelineRoute := []
  candidates : ShutdownTransferCandidates := {}
  seenCandidates : List (String × Nat) := []

structure ShutdownTransfer where
  timelineKey : String
  targetEndpoint : String
  targetGeneratorId : Nat
  deriving DecidableEq

def shutdownTransferTarget (candidates : ShutdownTransferCandidates)
    (resourceTier : ResourceTier) (state : ShutdownTransferState) :
    Option ((String × Nat) × ShutdownTransferState) :=
  let select (pool : List (String × Nat)) (cursor : Nat) := pool[cursor % pool.length]?
  match resourceTier with
  | .shared => (select candidates.shared state.shared).map fun selected =>
    (selected, { state with shared := U64.saturatingAdd state.shared 1 })
  | .warm => (select candidates.warm state.warm).map fun selected =>
    (selected, { state with warm := U64.saturatingAdd state.warm 1 })
  | .dedicated => (select candidates.dedicated state.dedicated).map fun selected =>
    (selected, { state with dedicated := U64.saturatingAdd state.dedicated 1 })

section

variable (C : Cluster) (p : Nat)

/-- One listed timeline: one of the worker's own, or a candidate unless it has been seen. -/
def ShutdownInventory.add (inventory : ShutdownInventory) (route : TimelineRoute) :
    ShutdownInventory :=
  if C.isLocalEndpoint p route.ownerWorkerEndpoint then
    { inventory with localTimelines := inventory.localTimelines ++ [route] }
  else
    let candidate := (route.ownerWorkerEndpoint, route.generatorId)
    if candidate ∈ inventory.seenCandidates then inventory
    else
      { inventory with
        candidates := inventory.candidates.push candidate route.resourceTier
        seenCandidates := candidate :: inventory.seenCandidates }

def collectShutdownInventory (timelines : List TimelineRoute) : ShutdownInventory :=
  timelines.foldl (ShutdownInventory.add C p) {}

def shutdownTransfers (candidates : ShutdownTransferCandidates) :
    ShutdownTransferState → List TimelineRoute → List ShutdownTransfer
  | _, [] => []
  | state, timeline :: rest =>
    if !C.isLocalEndpoint p timeline.ownerWorkerEndpoint then
      shutdownTransfers candidates state rest
    else
      match shutdownTransferTarget candidates timeline.resourceTier state with
      | none => shutdownTransfers candidates state rest
      | some ((endpoint, generatorId), state) =>
        ⟨timeline.timelineKey, endpoint, generatorId⟩ :: shutdownTransfers candidates state rest

def bestEffortTransferLocalTimelinesBeforeShutdown (timelines : List TimelineRoute)
    (candidates : ShutdownTransferCandidates) : List ShutdownTransfer :=
  if candidates.shared.isEmpty && candidates.warm.isEmpty && candidates.dedicated.isEmpty then []
  else shutdownTransfers C p candidates {} timelines

def shutdownHandoff (timelines : List TimelineRoute) : List ShutdownTransfer :=
  let inventory := collectShutdownInventory C p timelines
  bestEffortTransferLocalTimelinesBeforeShutdown C p inventory.localTimelines inventory.candidates

end

section

variable {C : Cluster} {p : Nat} {candidates : ShutdownTransferCandidates}
  {listed timelines : List TimelineRoute} {transfer : ShutdownTransfer}

structure ShutdownInventory.From (C : Cluster) (p : Nat) (listed : List TimelineRoute)
    (inventory : ShutdownInventory) : Prop where
  timelines : ∀ route ∈ inventory.localTimelines,
    route ∈ listed ∧ C.isLocalEndpoint p route.ownerWorkerEndpoint = true
  candidates : ∀ tier, ∀ candidate ∈ inventory.candidates.pool tier, ∃ route ∈ listed,
    C.isLocalEndpoint p route.ownerWorkerEndpoint = false ∧ route.resourceTier = tier ∧
      candidate = (route.ownerWorkerEndpoint, route.generatorId)

lemma ShutdownInventory.From.add {inventory : ShutdownInventory} {route : TimelineRoute}
    (h : inventory.From C p listed) (hroute : route ∈ listed) :
    (inventory.add C p route).From C p listed := by
  unfold ShutdownInventory.add
  dsimp only
  split_ifs with hlocal
  · refine ⟨fun r hr => ?_, h.candidates⟩
    rcases mem_append.mp hr with hr | hr
    · exact h.timelines r hr
    · rw [mem_singleton.mp hr]
      exact ⟨hroute, hlocal⟩
  · exact h
  · refine ⟨h.timelines, fun tier candidate hc => ?_⟩
    rcases ShutdownTransferCandidates.mem_pool_push hc with hc | ⟨rfl, rfl⟩
    · exact h.candidates tier candidate hc
    · exact ⟨route, hroute, Bool.eq_false_of_not_eq_true hlocal, rfl, rfl⟩

lemma collectShutdownInventory_from : (collectShutdownInventory C p listed).From C p listed := by
  -- the fold goes over a part of what was listed
  suffices h : ∀ (rest : List TimelineRoute) (inventory : ShutdownInventory), rest ⊆ listed →
      inventory.From C p listed →
      (rest.foldl (ShutdownInventory.add C p) inventory).From C p listed by
    refine h listed {} (List.Subset.refl _) ⟨fun _ hr => absurd hr List.not_mem_nil, ?_⟩
    intro tier candidate hc
    cases tier <;> exact absurd hc List.not_mem_nil
  intro rest
  induction rest with
  | nil => exact fun _ _ h => h
  | cons route rest ih =>
    intro inventory hsub h
    obtain ⟨hroute, hrest⟩ := List.cons_subset.mp hsub
    exact ih _ hrest (h.add hroute)

lemma shutdownTransferTarget_mem {tier : ResourceTier} {state state' : ShutdownTransferState}
    {target : String × Nat}
    (h : shutdownTransferTarget candidates tier state = some (target, state')) :
    target ∈ candidates.pool tier := by
  cases tier <;>
    (obtain ⟨selected, hselected, heq⟩ := map_eq_some_iff.mp h
     obtain ⟨rfl, -⟩ := Prod.mk.inj heq
     exact mem_of_getElem? hselected)

lemma mem_shutdownTransfers {state : ShutdownTransferState}
    (h : transfer ∈ shutdownTransfers C p candidates state timelines) :
    ∃ timeline ∈ timelines, (transfer.targetEndpoint, transfer.targetGeneratorId) ∈ candidates.pool
      timeline.resourceTier := by
  induction timelines generalizing state with
  | nil => exact absurd h not_mem_nil
  | cons timeline rest ih =>
    have hlater {state : ShutdownTransferState}
        (h : transfer ∈ shutdownTransfers C p candidates state rest) :
        ∃ t ∈ timeline :: rest, (transfer.targetEndpoint, transfer.targetGeneratorId) ∈
          candidates.pool t.resourceTier := by
      obtain ⟨t, ht, hpool⟩ := ih h
      exact ⟨t, mem_cons_of_mem _ ht, hpool⟩
    rw [shutdownTransfers] at h
    split at h
    · exact hlater h
    split at h
    · exact hlater h
    · next endpoint gid state' htarget =>
      rcases mem_cons.mp h with rfl | h
      · exact ⟨timeline, mem_cons_self, shutdownTransferTarget_mem htarget⟩
      · exact hlater h

lemma mem_shutdownHandoff (h : transfer ∈ shutdownHandoff C p listed) :
    ∃ own ∈ listed, ∃ other ∈ listed, C.isLocalEndpoint p own.ownerWorkerEndpoint = true ∧
      C.isLocalEndpoint p other.ownerWorkerEndpoint = false ∧
      other.resourceTier = own.resourceTier ∧
      transfer.targetEndpoint = other.ownerWorkerEndpoint ∧
      transfer.targetGeneratorId = other.generatorId := by
  have hfrom : (collectShutdownInventory C p listed).From C p listed :=
    collectShutdownInventory_from
  simp only [shutdownHandoff, bestEffortTransferLocalTimelinesBeforeShutdown] at h
  split at h
  · exact absurd h not_mem_nil
  obtain ⟨own, hown, hpool⟩ := mem_shutdownTransfers h
  obtain ⟨hlisted, hlocal⟩ := hfrom.timelines own hown
  obtain ⟨other, hother, hrem, htier, heq⟩ := hfrom.candidates _ _ hpool
  obtain ⟨hendpoint, hgen⟩ := Prod.mk.inj heq
  exact ⟨own, hlisted, other, hother, hlocal, hrem, htier, hendpoint, hgen⟩

end

section

variable {C : Cluster} {p g : Nat} {key : String} {route : TimelineRoute} {plan : TransferPlan}
  {floor : Option Nat} {selection : TransferTargetSelection} {record : TimelineRecord}
  {rev fuel : Nat} {α : Type} {prog : Service α}

def Op.sparing : Op → Prop
  | .createTimeline .. => False
  | .compareExchangeTimeline _ _ _ record => record.route.resourceTier ≠ .dedicated
  | _ => True

lemma sparing_of_part {o : Op} (h : o.part ≠ .records) : o.sparing := by
  cases o with
  | createTimeline | compareExchangeTimeline => exact absurd rfl h
  | _ => trivial

lemma uses_sparing_call {o : Op} (h : o.part ≠ .records) : (call o).Uses Op.sparing :=
  Prog.uses_op (sparing_of_part h)

lemma sparing_of_choosing (h : prog.Uses Op.choosing) : prog.Uses Op.sparing := by
  refine h.imp fun o ho => sparing_of_part fun hpart => ?_
  rcases ho with ho | ho <;> rw [ho] at hpart <;> cases hpart

abbrev Returns (Q : α → Prop) (prog : Service α) : Prop :=
  prog.Ends (fun _ _ => True) (fun _ => True) Q

lemma returns_firstTransferTarget : Returns (fun x => x.targetResourceTier = plan.resourceTier)
      (firstTransferTarget C p key plan) := by
  unfold firstTransferTarget
  split
  · split
    · trivial
    split
    · exact (Prog.ends_true _).bind fun _ _ => rfl
    · exact rfl
  · split
    · exact (Prog.ends_true _).bind fun _ _ => rfl
    · exact (Prog.ends_true _).bind fun _ _ => rfl

lemma returns_isolateJumpAhead (h : plan.generatorId.isSome) :
    Returns (· = selection) (isolateJumpAhead C p key plan floor selection) := by
  unfold isolateJumpAhead
  split
  · exact rfl
  split
  · exact rfl
  refine (Prog.ends_true _).bind fun jump _ => ?_
  split
  · trivial
  · exact rfl

lemma returns_rejectTransfer {Q : α → Prop} {err : TsoError} :
    Returns Q (rejectTransfer key route selection err) :=
  (Prog.ends_true _).bind fun _ _ => trivial

lemma returns_checkTransferTarget :
    Returns (· = selection) (checkTransferTarget C p key route plan selection) := by
  unfold checkTransferTarget
  dsimp only
  split
  · split
    · exact rfl
    · exact returns_rejectTransfer
  split
  · exact rfl
  split
  · exact returns_rejectTransfer
  refine (Prog.ends_true _).bind fun found _ => ?_
  split
  · trivial
  · exact rfl
  refine (Prog.ends_true _).bind fun now _ => ?_
  split
  · exact returns_rejectTransfer
  · exact rfl

lemma returns_selectTransferTarget (h : plan.generatorId.isSome) :
    Returns (fun x => x.targetResourceTier = plan.resourceTier)
      (selectTransferTarget C p key route plan floor) := by
  refine returns_firstTransferTarget.bind fun first hfirst => ?_
  refine (returns_isolateJumpAhead h).bind fun selection hselection => ?_
  refine (Prog.ends_true _).bind fun budget _ => ?_
  split
  · exact returns_rejectTransfer
  · refine returns_checkTransferTarget.imp fun x hx => ?_
    rw [hx, hselection, hfirst]

lemma uses_clearTimelineCache : (clearTimelineCache key).Uses Op.sparing :=
  uses_sparing_call (by simp [Op.part])

lemma uses_synchronizeTransferCompletion (hrem : C.isLocalEndpoint p plan.ownerEndpoint = false) :
    (synchronizeTransferCompletion C p key route plan selection record rev floor fuel).Uses
      Op.sparing := by
  refine (sparing_of_choosing uses_releasePreviousDedicated).bind fun _ => ?_
  simp only [cacheTransferredTimeline, hrem, Bool.false_and, Bool.false_eq_true, if_false]
  refine uses_clearTimelineCache.bind fun _ => ?_
  split
  · exact (uses_sparing_call (by simp [Op.part])).bind fun _ => trivial
  · trivial

lemma uses_commitTransfer {prep : TransferPreparation} {state : TimelineLifecycleState}
    (hrem : C.isLocalEndpoint p plan.ownerEndpoint = false)
    (htier : selection.targetResourceTier ≠ .dedicated) :
    (commitTransfer C p key record rev plan prep selection state fuel).Uses Op.sparing := by
  have hwrite := htier
  refine (Prog.uses_op hwrite).bind fun res => ?_
  split
  · exact sparing_of_choosing uses_rejectTransfer
  · refine uses_clearTimelineCache.bind fun _ => ?_
    exact (uses_synchronizeTransferCompletion hrem).bind fun _ => trivial

lemma uses_applyTransferPlan (hrem : C.isLocalEndpoint p plan.ownerEndpoint = false)
    (hgen : plan.generatorId.isSome) (htier : plan.resourceTier ≠ .dedicated) :
    (applyTransferPlan C p key record rev plan fuel).Uses Op.sparing := by
  refine (sparing_of_choosing
    (choosing_of_leasing uses_prepareTransferApplication)).bind fun prep => ?_
  simp only [hrem, Bool.and_false, Bool.false_eq_true, if_false]
  refine (sparing_of_choosing uses_selectTransferTarget).bind_of_ends
    (returns_selectTransferTarget hgen) fun selection hselection => ?_
  simp only [hrem, Bool.false_and, Bool.false_eq_true, if_false]
  exact uses_commitTransfer hrem (hselection ▸ htier)

def Cluster.inDedicatedRange (C : Cluster) (p generatorId : Nat) : Prop :=
  resourceTierForGeneratorId generatorId (C.worker p).sharedGenerators
    (C.worker p).warmGenerators C.layout.maxGenerators = .ok .dedicated

instance (C : Cluster) (p generatorId : Nat) : Decidable (C.inDedicatedRange p generatorId) :=
  inferInstanceAs (Decidable (_ = _))

lemma uses_transferTimelineForRpc {endpoint : String} {reason : TransferReason}
    (hrem : C.isLocalEndpoint p endpoint = false) (hrange : ¬ C.inDedicatedRange p g) :
    (transferTimelineForRpc C p key endpoint (some g) reason fuel).Uses Op.sparing := by
  unfold transferTimelineForRpc
  split
  · trivial
  · trivial
  refine (uses_sparing_call (by simp [Op.part])).bind fun found => ?_
  split
  · trivial
  · trivial
  dsimp only
  split
  · trivial
  · next tier htier =>
    refine uses_applyTransferPlan hrem rfl fun hdedicated => hrange ?_
    rw [Cluster.inDedicatedRange, htier]
    exact congrArg _ hdedicated

end

section

def Entry.shutdownTransfer : Entry → Option ShutdownTransfer
  | .transferForRpc key endpoint (some generatorId) .rebalance _ =>
    some ⟨key, endpoint, generatorId⟩
  | _ => none

def shutdownGuard (C : Cluster) (p : Nat) (listed : List TimelineRoute) :
    Guard sig Nat Choice Event World Entry where
  entry q entry := q = p ∧ ∃ t ∈ shutdownHandoff C p listed, entry.shutdownTransfer = some t

abbrev ShutdownRun (C : Cluster) (p : Nat) (listed : List TimelineRoute) (w : World) :
    State → Prop :=
  Reach (machine C) (code C) (shutdownGuard C p listed) ⟨w, []⟩

namespace World

def Lists (w : World) (listed : List TimelineRoute) : Prop :=
  ∀ route, route ∈ listed ↔ ∃ key, w.route key = some route

def DedicatedExclusive (w : World) : Prop :=
  ∀ key key' route route', w.route key = some route → w.route key' = some route' →
    route.resourceTier = .dedicated → route'.resourceTier = .dedicated →
    route.generatorId = route'.generatorId → key = key'

def HandoffApart (C : Cluster) (p : Nat) (w : World) : Prop :=
  ∀ key key' own other, w.route key = some own → w.route key' = some other →
    C.isLocalEndpoint p own.ownerWorkerEndpoint = true →
    C.isLocalEndpoint p other.ownerWorkerEndpoint = false →
    other.resourceTier = own.resourceTier → ¬ C.inDedicatedRange p other.generatorId

end World

variable {C : Cluster} {p : Nat} {w0 w w' : World} {key : String} {route : TimelineRoute}

lemma route_of_sparing {o : Op} {c : Choice} {r : o.Reply} (hspare : o.sparing)
    (hexec : (machine C).exec p o c w = some (r, w')) (hroute : w'.route key = some route)
    (htier : route.resourceTier = .dedicated) : w.route key = some route := by
  obtain ⟨e, hact, rfl⟩ := exec_cases hexec
  by_cases hpart : o.part = .records
  · cases o with
    | createTimeline => exact hspare.elim
    | compareExchangeTimeline write key' revision record =>
      cases c <;> simp only [act, reduceCtorEq] at hact
      obtain ⟨-, rfl, -⟩ | ⟨rfl, -⟩ := storeWrite_cases (some.inj hact)
      · rw [World.route_commit] at hroute
        split_ifs at hroute
        · rw [← some.inj hroute] at htier
          exact absurd htier hspare
        · exact hroute
      · exact hroute
    | _ => cases hpart
  · rwa [World.route_apply (part_ne_of_act hact hpart (by decide))] at hroute

lemma route_of_environment {ev : Event} (h : environment w ev = some w') :
    w'.route key = w.route key := by
  cases ev with
  | tick q now =>
    simp only [environment] at h
    split_ifs at h
    rw [← some.inj h]
    rfl
  | evict | dropFlight | dropLock =>
    rw [← some.inj h]
    exact World.route_apply (by simp [Effect.part])

lemma uses_shutdownTransfer {q : Nat} {entry : Entry} {listed : List TimelineRoute}
    (hlists : w.Lists listed) (hapart : w.HandoffApart C p)
    (h : (shutdownGuard C p listed).entry q entry) : (code C q entry).Uses Op.sparing := by
  obtain ⟨rfl, transfer, htransfer, hentry⟩ := h
  obtain ⟨own, hown, other, hother, hlocal, hrem, htier, hendpoint, hgen⟩ :=
    mem_shutdownHandoff htransfer
  obtain ⟨key, hkey⟩ := (hlists own).mp hown
  obtain ⟨key', hkey'⟩ := (hlists other).mp hother
  have hrange := hapart key key' own other hkey hkey' hlocal hrem htier
  unfold Entry.shutdownTransfer at hentry
  split at hentry
  · next key endpoint g fuel =>
    cases hentry
    obtain rfl : endpoint = other.ownerWorkerEndpoint := hendpoint
    obtain rfl : g = other.generatorId := hgen
    exact (uses_transferTimelineForRpc hrem hrange).bind fun _ => trivial
  · cases hentry

/-- While a worker hands off its timelines, dedicated generators stay exclusive if no timeline of
its own has the tier of another worker's timeline on a dedicated generator. -/
theorem shutdown_keeps_dedicated_exclusive {listed : List TimelineRoute} {s : State}
    (hlists : w.Lists listed) (hexclusive : w.DedicatedExclusive) (hapart : w.HandoffApart C p)
    (hrun : ShutdownRun C p listed w s) : s.world.DedicatedExclusive := by
  -- the dedicated timelines of a later state are among those at the start, on the same routes
  have hkept : ∀ key route, s.world.route key = some route → route.resourceTier = .dedicated →
      w.route key = some route := by
    refine Reach.invariant_of_uses
      (I := fun w1 => ∀ key route, w1.route key = some route → route.resourceTier = .dedicated →
        w.route key = some route) hrun (fun _ _ => uses_shutdownTransfer hlists hapart)
      (fun _ ht => absurd ht List.not_mem_nil) (fun _ _ h _ => h) ?_ ?_
    · intro q o c w1 r w2 hspare hI hexec key route hroute htier
      exact hI key route (route_of_sparing hspare hexec hroute htier) htier
    · intro ev w1 w2 hI henv key route hroute htier
      exact hI key route ((route_of_environment henv).symm.trans hroute) htier
  intro key key' route route' hroute hroute' htier htier' hgen
  exact hexclusive key key' route route' (hkept key route hroute htier)
    (hkept key' route' hroute' htier') htier htier' hgen

section

instance (C : Cluster) (p : Nat) (listed : List TimelineRoute) :
    (shutdownGuard C p listed).Checked where
  entry q entry := inferInstanceAs (Decidable (q = p ∧ ∃ t ∈ shutdownHandoff C p listed,
    entry.shutdownTransfer = some t))

def listedRoute (key endpoint : String) (tier : ResourceTier) (generatorId : Nat) :
    TimelineRoute where
  timelineKey := key
  generatorId := generatorId
  epoch := 1
  routeVersion := 1
  resourceTier := tier
  ownerWorkerEndpoint := endpoint

def World.holding (listed : List TimelineRoute) : World :=
  { World.initial (fun _ => 0) with
    revision := 1
    timelines := fun key => (listed.find? (·.timelineKey = key)).toList.map fun route =>
      ⟨1, { sampleTimeline key .active with route }, .create⟩ }

variable {listed : List TimelineRoute}

lemma World.route_holding : (World.holding listed).route key = listed.find?
    (·.timelineKey = key) := by
  simp only [World.route, World.holding]
  cases listed.find? (·.timelineKey = key) <;> rfl

lemma World.lists_holding (h : (listed.map (·.timelineKey)).Nodup) :
    (World.holding listed).Lists listed := by
  intro route
  simp only [World.route_holding]
  constructor
  · intro hroute
    refine ⟨route.timelineKey, ?_⟩
    induction listed with
    | nil => cases hroute
    | cons first rest ih =>
      obtain ⟨hfirst, hrest⟩ := nodup_cons.mp h
      rcases mem_cons.mp hroute with rfl | hroute
      · simp
      have hne : first.timelineKey ≠ route.timelineKey := fun heq =>
        hfirst (mem_map.mpr ⟨route, hroute, heq.symm⟩)
      rw [find?_cons_of_neg (by simpa using hne)]
      exact ih hrest hroute
  · rintro ⟨key, hkey⟩
    exact mem_of_find?_eq_some hkey

lemma World.dedicatedExclusive_holding
    (h : ∀ r ∈ listed, ∀ r' ∈ listed, r.resourceTier = .dedicated → r'.resourceTier = .dedicated →
      r.generatorId = r'.generatorId → r.timelineKey = r'.timelineKey) :
    (World.holding listed).DedicatedExclusive := by
  intro key key' r r' hr hr' htier htier' hgen
  rw [World.route_holding] at hr hr'
  have hkey := h r (mem_of_find?_eq_some hr) r' (mem_of_find?_eq_some hr') htier htier'
    hgen
  have hfound : r.timelineKey = key := by simpa using find?_some hr
  have hfound' : r'.timelineKey = key' := by simpa using find?_some hr'
  rw [← hfound, ← hfound', hkey]

lemma World.handoffApart_holding
    (h : ∀ own ∈ listed, ∀ other ∈ listed, C.isLocalEndpoint p own.ownerWorkerEndpoint = true →
      C.isLocalEndpoint p other.ownerWorkerEndpoint = false →
      other.resourceTier = own.resourceTier → ¬ C.inDedicatedRange p other.generatorId) :
    (World.holding listed).HandoffApart C p := by
  intro key key' own other hown hother
  rw [World.route_holding] at hown hother
  exact h own (mem_of_find?_eq_some hown) other (mem_of_find?_eq_some hother)

def oneDedicated : List TimelineRoute :=
  [listedRoute "d" "a:1" .dedicated 2, listedRoute "k" "a:1" .shared 0,
    listedRoute "o" "b:1" .shared 1]

def twoDedicated : List TimelineRoute :=
  [listedRoute "d" "a:1" .dedicated 2, listedRoute "e" "b:1" .dedicated 3]

end

/-- A worker that hands a shared timeline to the other one, and keeps its dedicated timeline. -/
theorem shutdown_keeps_dedicated_exclusive_sample :
    ∃ s, ShutdownRun dedicatedCluster 0 oneDedicated (.holding oneDedicated) s ∧
      (s.world.route "k").map (·.ownerWorkerEndpoint) = some "b:1" ∧
      s.world.DedicatedExclusive := by
  have hscript : (script (machine dedicatedCluster) (code dedicatedCluster)
      (shutdownGuard dedicatedCluster 0 oneDedicated) Op.usual
      (perform 0 0 (.transferForRpc "k" "b:1" (some 1) .rebalance 3) 30)
      ⟨.holding oneDedicated, []⟩).any
      (fun s => (s.world.route "k").map (·.ownerWorkerEndpoint) = some "b:1") = true := by
    decide +kernel
  obtain ⟨s, hrun, hroute⟩ := Reach.exists_of_script hscript
  refine ⟨s, hrun, of_decide_eq_true hroute, shutdown_keeps_dedicated_exclusive
    (World.lists_holding (by decide)) (World.dedicatedExclusive_holding (by decide))
    (World.handoffApart_holding (by decide)) hrun⟩

/-- With a dedicated timeline on each of two workers, the one that shuts down puts its own on the
generator of the other. -/
theorem shutdown_shares_dedicated_generator :
    ∃ (w : World) (listed : List TimelineRoute) (s : State), w.Lists listed ∧
      w.DedicatedExclusive ∧ ShutdownRun dedicatedCluster 0 listed w s ∧
      ¬ s.world.DedicatedExclusive := by
  have hscript : (script (machine dedicatedCluster) (code dedicatedCluster)
      (shutdownGuard dedicatedCluster 0 twoDedicated) Op.usual
      (perform 0 0 (.transferForRpc "d" "b:1" (some 3) .rebalance 3) 30)
      ⟨.holding twoDedicated, []⟩).any
      (fun s => (s.world.route "d").map (fun r => (r.resourceTier, r.generatorId)) =
          some (.dedicated, 3) ∧
        (s.world.route "e").map (fun r => (r.resourceTier, r.generatorId)) =
          some (.dedicated, 3)) = true := by
    decide +kernel
  obtain ⟨s, hrun, hroutes⟩ := Reach.exists_of_script hscript
  obtain ⟨hd, he⟩ := of_decide_eq_true hroutes
  obtain ⟨r, hr, hd⟩ := map_eq_some_iff.mp hd
  obtain ⟨r', hr', he⟩ := map_eq_some_iff.mp he
  obtain ⟨htier, hgen⟩ := Prod.mk.inj hd
  obtain ⟨htier', hgen'⟩ := Prod.mk.inj he
  refine ⟨_, _, s, World.lists_holding (by decide), World.dedicatedExclusive_holding (by decide),
    hrun, fun hexclusive => ?_⟩
  have hsame := hexclusive "d" "e" r r' hr hr' htier htier' (hgen.trans hgen'.symm)
  exact absurd hsame (by decide)

end

end Chronos
