import Chronos.Iteration.Loop
import Chronos.Proxy.Serialization

/-! The calls of the proxy when they do not overlap. Each of them does what one thread of the lanes
does when the others stand still, so that a history of calls is one of the interleavings. -/

namespace Chronos

namespace TimelineScopedAllocator

variable (a : TimelineScopedAllocator)

def leaseExistingSerializer (timelineKey : String) :
    Option SerializerId × TimelineScopedAllocator :=
  match a.timelineSerializers.lookup timelineKey with
  | none => (none, a)
  | some serializer =>
    if a.serializerStillCurrent timelineKey serializer then
      (some serializer, a.setReferences serializer (a.references serializer + 1))
    else (none, a)

/-- Nothing happens between the two looks at the references, nor before the removal. -/
def tryPruneIdleCandidates : Nat → TimelineScopedAllocator → Bool × TimelineScopedAllocator
  | 0, a => (false, a)
  | attempts + 1, a =>
    match a.idleSerializers with
    | [] => (false, a)
    | timelineKey :: rest =>
      match a.timelineSerializers.lookup timelineKey with
      | none => tryPruneIdleCandidates attempts (a.setIdle rest)
      | some serializer =>
        if a.references serializer ≠ 0 then tryPruneIdleCandidates attempts (a.setIdle rest)
        else (true, ((a.setIdle rest).removeSerializer timelineKey).setSlots
          (a.serializerSlots - 1))

def pruneOneIdleSerializer : Bool × TimelineScopedAllocator :=
  tryPruneIdleCandidates (max a.laneCount 1) a

/-- One round of the loop of `serializer_for`; the compare-exchange finds what was loaded. -/
def serializerForRound (timelineKey : String) :
    TimelineScopedAllocator ⊕ (Except TsoError SerializerId × TimelineScopedAllocator) :=
  if a.maxSerializers ≤ a.serializerSlots then
    match a.leaseExistingSerializer timelineKey with
    | (some serializer, a) => .inr (.ok serializer, a)
    | (none, a) =>
      let a := a.pruneOneIdleSerializer.2
      match a.leaseExistingSerializer timelineKey with
      | (some serializer, a) => .inr (.ok serializer, a)
      | (none, a) =>
        if a.maxSerializers ≤ a.serializerSlots then
          .inr (.error (.timelineIngressSaturated timelineKey a.maxSerializers), a)
        else .inl a
  else
    let a := a.setSlots (a.serializerSlots + 1)
    match a.timelineSerializers.lookup timelineKey with
    | some _ =>
      let a := a.setSlots (a.serializerSlots - 1)
      match a.leaseExistingSerializer timelineKey with
      | (some serializer, a) => .inr (.ok serializer, a)
      | (none, a) => .inl a
    | none => .inr (.ok a.nextSerializer, a.insertSerializer timelineKey)

/-- The loop has no bound; it never needs a third round. -/
def serializerFor (timelineKey : String) :
    Option (Except TsoError SerializerId × TimelineScopedAllocator) :=
  match a.leaseExistingSerializer timelineKey with
  | (some serializer, a) => some (.ok serializer, a)
  | (none, a) => Iteration.rounds (fun a => some (a.serializerForRound timelineKey)) 2 a

def dropLease (timelineKey : String) (serializer : SerializerId) : TimelineScopedAllocator :=
  let previous := a.references serializer
  let a := a.setReferences serializer (previous - 1)
  if previous = 1 then a.setIdle (a.idleSerializers ++ [timelineKey]) else a

end TimelineScopedAllocator

structure LeaseWorld where
  allocator : TimelineScopedAllocator
  leases : List (String × SerializerId)

inductive LeaseCall where
  | serializerFor (timelineKey : String)
  | dropLease (timelineKey : String) (serializer : SerializerId)
  | pruneOneIdleSerializer
  deriving DecidableEq

namespace LeaseWorld

def initial (maxSerializers : Nat) : LeaseWorld := ⟨.new maxSerializers, []⟩

def acquired (w : LeaseWorld) (timelineKey : String) :
    Except TsoError SerializerId × TimelineScopedAllocator → LeaseWorld
  | (.ok serializer, allocator) => ⟨allocator, (timelineKey, serializer) :: w.leases⟩
  | (.error _, allocator) => ⟨allocator, w.leases⟩

def step (w : LeaseWorld) : LeaseCall → Option LeaseWorld
  | .serializerFor timelineKey =>
    (w.allocator.serializerFor timelineKey).map (w.acquired timelineKey)
  | .dropLease timelineKey serializer =>
    if (timelineKey, serializer) ∈ w.leases then
      some ⟨w.allocator.dropLease timelineKey serializer, w.leases.erase (timelineKey, serializer)⟩
    else none
  | .pruneOneIdleSerializer =>
    some { w with allocator := w.allocator.pruneOneIdleSerializer.2 }

def ReachableBy (G : LeaseWorld → LeaseCall → Prop) (maxSerializers : Nat) : LeaseWorld → Prop :=
  Transition.Reach step G (initial maxSerializers)

def Reachable : Nat → LeaseWorld → Prop := ReachableBy fun _ _ => True

end LeaseWorld

section

variable {a : TimelineScopedAllocator}

open TimelineScopedAllocator

def TimelineScopedAllocator.IdleLane (a : TimelineScopedAllocator) (timelineKey : String) : Prop :=
  ∃ serializer, a.timelineSerializers.lookup timelineKey = some serializer ∧
    a.references serializer = 0

lemma tryPruneIdleCandidates_cases (attempts : Nat) (a : TimelineScopedAllocator) :
    (tryPruneIdleCandidates attempts a = (false, a.setIdle (a.idleSerializers.drop attempts)) ∧
      ∀ key ∈ a.idleSerializers.take attempts, ¬a.IdleLane key) ∨
    ∃ before key after, a.idleSerializers = before ++ key :: after ∧ before.length < attempts ∧
      a.IdleLane key ∧ tryPruneIdleCandidates attempts a =
        (true, ((a.setIdle after).removeSerializer key).setSlots (a.serializerSlots - 1)) := by
  induction attempts generalizing a with
  | zero => exact .inl ⟨rfl, by simp⟩
  | succ attempts ih =>
    rcases hq : a.idleSerializers with _ | ⟨key, rest⟩
    · have hself : a.setIdle [] = a := by
        rw [← hq]
        rfl
      left
      rw [tryPruneIdleCandidates, hq, List.drop_nil, hself]
      exact ⟨rfl, by simp⟩
    · by_cases hidle : a.IdleLane key
      · obtain ⟨serializer, hlook, hzero⟩ := hidle
        refine .inr ⟨[], key, rest, rfl, Nat.succ_pos _, ⟨serializer, hlook, hzero⟩, ?_⟩
        rw [tryPruneIdleCandidates, hq]
        simp [hlook, hzero]
      · have hskip : tryPruneIdleCandidates (attempts + 1) a =
            tryPruneIdleCandidates attempts (a.setIdle rest) := by
          rw [tryPruneIdleCandidates, hq]
          dsimp only
          rcases hlook : a.timelineSerializers.lookup key with _ | serializer
          · rfl
          · exact if_pos fun hzero => hidle ⟨serializer, hlook, hzero⟩
        rw [hskip]
        rcases ih (a.setIdle rest) with ⟨heq, hnone⟩ | ⟨before, k, after, hsplit, hlt, hk, heq⟩
        · refine .inl ⟨heq, fun k hk => ?_⟩
          rcases List.mem_cons.mp hk with rfl | hk
          · exact hidle
          · exact hnone k hk
        · refine .inr ⟨key :: before, k, after, ?_, Nat.succ_lt_succ hlt, hk, heq⟩
          rw [List.cons_append, ← hsplit]
          rfl

structure Pruned (a a' : TimelineScopedAllocator) (key : String) : Prop where
  idle : a.IdleLane key
  queue : ∃ before, a.idleSerializers = before ++ key :: a'.idleSerializers
  eq : a' = ((a.setIdle a'.idleSerializers).removeSerializer key).setSlots (a.serializerSlots - 1)

lemma pruneOneIdleSerializer_cases (a : TimelineScopedAllocator) : (a.pruneOneIdleSerializer =
        (false, a.setIdle (a.idleSerializers.drop (max a.laneCount 1))) ∧
      ∀ key ∈ a.idleSerializers.take (max a.laneCount 1), ¬a.IdleLane key) ∨
    ∃ a' key, a.pruneOneIdleSerializer = (true, a') ∧ Pruned a a' key ∧
      key ∈ a.idleSerializers.take (max a.laneCount 1) := by
  rcases tryPruneIdleCandidates_cases (max a.laneCount 1) a with
    hnone | ⟨before, key, after, hsplit, hlt, hidle, heq⟩
  · exact .inl hnone
  refine .inr ⟨_, key, heq, ⟨hidle, ⟨before, hsplit⟩, rfl⟩, ?_⟩
  rw [hsplit, List.take_append, List.mem_append]
  right
  rw [← Nat.succ_pred (Nat.sub_ne_zero_of_lt hlt), List.take_succ_cons]
  exact List.mem_cons_self

end

section

open TimelineScopedAllocator

inductive LeaseOutcome (a : TimelineScopedAllocator) (key : String) :
    Except TsoError SerializerId → TimelineScopedAllocator → Prop where
  | existing {x : SerializerId} : a.timelineSerializers.lookup key = some x →
      LeaseOutcome a key (.ok x) (a.setReferences x (a.references x + 1))
  | created : a.timelineSerializers.lookup key = none → a.serializerSlots < a.maxSerializers →
      LeaseOutcome a key (.ok a.nextSerializer)
        ((a.setSlots (a.serializerSlots + 1)).insertSerializer key)
  | saturated : a.timelineSerializers.lookup key = none → a.maxSerializers ≤ a.serializerSlots →
      (∀ k ∈ a.idleSerializers.take (max a.laneCount 1), ¬a.IdleLane k) →
      a.pruneOneIdleSerializer =
        (false, a.setIdle (a.idleSerializers.drop (max a.laneCount 1))) →
      LeaseOutcome a key (.error (.timelineIngressSaturated key a.maxSerializers))
        (a.setIdle (a.idleSerializers.drop (max a.laneCount 1)))
  | replaced {a' : TimelineScopedAllocator} {other : String} :
      a.timelineSerializers.lookup key = none → a.maxSerializers ≤ a.serializerSlots →
      a.pruneOneIdleSerializer = (true, a') → Pruned a a' other →
      other ∈ a.idleSerializers.take (max a.laneCount 1) →
      a'.timelineSerializers.lookup key = none → a'.serializerSlots < a'.maxSerializers →
      LeaseOutcome a key (.ok a'.nextSerializer)
        ((a'.setSlots (a'.serializerSlots + 1)).insertSerializer key)

variable {a a' : TimelineScopedAllocator} {key other : String} {x : SerializerId}

lemma leaseExistingSerializer_of_some (h : a.timelineSerializers.lookup key = some x) :
    a.leaseExistingSerializer key = (some x, a.setReferences x (a.references x + 1)) := by
  simp [leaseExistingSerializer, serializerStillCurrent, h]

lemma leaseExistingSerializer_of_none (h : a.timelineSerializers.lookup key = none) :
    a.leaseExistingSerializer key = (none, a) := by
  simp [leaseExistingSerializer, h]

lemma Pruned.laneCount (h : Pruned a a' other) : a'.laneCount + 1 = a.laneCount := by
  obtain ⟨x, hlook, -⟩ := h.idle
  rw [h.eq]
  exact KeyValue.length_keys_erase hlook

lemma Pruned.lookup (h : Pruned a a' other) (hkey : a.timelineSerializers.lookup key = none) :
    a'.timelineSerializers.lookup key = none := by
  rw [h.eq]
  show (a.timelineSerializers.erase other).lookup key = none
  by_cases hne : key = other
  · rw [hne, AList.lookup_erase]
  · rw [AList.lookup_erase_ne hne, hkey]

lemma serializerFor_outcome (hslots : a.serializerSlots = a.laneCount)
    (hroom : a.serializerSlots ≤ a.maxSerializers) (key : String) :
    ∃ res a', a.serializerFor key = some (res, a') ∧ LeaseOutcome a key res a' := by
  rcases hkey : a.timelineSerializers.lookup key with _ | x
  · have hloop : a.serializerFor key =
        Iteration.rounds (fun a => some (a.serializerForRound key)) 2 a := by
      rw [serializerFor, leaseExistingSerializer_of_none hkey]
    -- a round that finds room makes the lane
    have hcreate : ∀ b : TimelineScopedAllocator, b.timelineSerializers.lookup key = none →
        b.serializerSlots < b.maxSerializers → b.serializerForRound key =
          .inr (.ok b.nextSerializer, (b.setSlots (b.serializerSlots + 1)).insertSerializer
            key) := by
      intro b hb hlt
      have hb' : (b.setSlots (b.serializerSlots + 1)).timelineSerializers.lookup key = none := hb
      rw [serializerForRound, if_neg (Nat.not_le.mpr hlt)]
      dsimp only
      rw [hb']
      rfl
    by_cases hlt : a.serializerSlots < a.maxSerializers
    · refine ⟨_, _, ?_, .created hkey hlt⟩
      rw [hloop]
      exact Iteration.rounds_of_inr (congrArg some (hcreate a hkey hlt))
    have hfull := Nat.not_lt.mp hlt
    rcases pruneOneIdleSerializer_cases a with ⟨hprune, hnone⟩ | ⟨a', other, hprune, hpruned, hmem⟩
    · refine ⟨_, _, ?_, .saturated hkey hfull hnone hprune⟩
      rw [hloop]
      refine Iteration.rounds_of_inr (congrArg some ?_)
      rw [serializerForRound, if_pos hfull, leaseExistingSerializer_of_none hkey]
      dsimp only
      rw [hprune]
      rw [leaseExistingSerializer_of_none
        (a := a.setIdle (a.idleSerializers.drop (max a.laneCount 1))) hkey]
      exact if_pos hfull
    · have hkey' := hpruned.lookup hkey
      have hslots' : a'.serializerSlots = a.serializerSlots - 1 := by rw [hpruned.eq]; rfl
      have hmax' : a'.maxSerializers = a.maxSerializers := by rw [hpruned.eq]; rfl
      have hlanes := hpruned.laneCount
      have hlt' : a'.serializerSlots < a'.maxSerializers := by omega
      have hround : a.serializerForRound key = .inl a' := by
        rw [serializerForRound, if_pos hfull, leaseExistingSerializer_of_none hkey]
        dsimp only
        rw [hprune]
        rw [leaseExistingSerializer_of_none hkey']
        exact if_neg (Nat.not_le.mpr hlt')
      refine ⟨_, _, ?_, .replaced hkey hfull hprune hpruned hmem hkey' hlt'⟩
      rw [hloop, Iteration.rounds_of_inl (congrArg some hround)]
      exact Iteration.rounds_of_inr (congrArg some (hcreate a' hkey' hlt'))
  · refine ⟨_, _, ?_, .existing hkey⟩
    rw [serializerFor, leaseExistingSerializer_of_some hkey]

end

section

open TimelineScopedAllocator

def Uninterrupted (i : Nat) : TimelineScopedAllocator × ProxyTask →
    TimelineScopedAllocator × ProxyTask →
    Prop :=
  Transition.Reach (fun now len => now.1.advance i len now.2) fun _ _ => True

variable {i len : Nat} {a a' a1 : TimelineScopedAllocator} {task task' task1 : ProxyTask}
  {key : String} {x : SerializerId} {now : TimelineScopedAllocator × ProxyTask}

lemma Uninterrupted.next (len : Nat) (hstep : a.advance i len task = some (a1, task1))
    (h : Uninterrupted i (a1, task1) now) : Uninterrupted i (a, task) now :=
  Transition.Reach.head trivial hstep h

lemma Uninterrupted.reach (h : Uninterrupted i (a, task) (a', task')) {tasks : List ProxyTask}
    (htask : tasks[i]? = some task) :
    Transition.Reach ProxyState.step (fun _ _ => True) ⟨a, tasks⟩ ⟨a', tasks.set i task'⟩ := by
  have hreach : ∀ now, Uninterrupted i (a, task) now →
      Transition.Reach ProxyState.step (fun _ _ => True) ⟨a, tasks⟩ ⟨now.1, tasks.set i now.2⟩ := by
    intro now h
    induction h with
    | refl =>
      have hsame : tasks.set i task = tasks := by
        obtain ⟨hi, rfl⟩ := List.getElem?_eq_some_iff.mp htask
        exact List.set_getElem_self hi
      rw [hsame]
      exact .refl
    | @tail before after len _ _ hstep ih =>
      refine ih.tail (l := .advance i len) trivial ?_
      have hi : i < tasks.length := (List.getElem?_eq_some_iff.mp htask).1
      simp only [ProxyState.step, List.getElem?_set_self hi, Option.bind_some]
      rw [hstep, Option.map_some, List.set_set]
  exact hreach _ h

def TimelineScopedAllocator.Unlocked (a : TimelineScopedAllocator) : Prop :=
  ∀ x, (a.serializers x).lifecycle = none ∧ (a.serializers x).serialize = none

lemma advance_lease {site : LeaseSite} {phase next : LaneLeasePhase}
    (h : a.leaseExistingSerializerStep i key phase = some (a1, .inl next)) :
    a.advance i len (.request key (.leasing site phase)) =
      some (a1, .request key (.leasing site next)) := by
  simp [advance, advanceRequest, h]

lemma alone_lease_none (h : a.timelineSerializers.lookup key = none) (site : LeaseSite)
    (hrest : Uninterrupted i (a, .request key site.otherwise) now) :
    Uninterrupted i (a, .request key (.leasing site .get)) now := by
  refine .next 0 ?_ hrest
  simp [advance, advanceRequest, leaseExistingSerializerStep, h]

lemma setReferences_under_lock {n : Nat} (h : (a.serializers x).lifecycle = none) :
    ((a.setLifecycle x (some i)).setReferences x n).setLifecycle x none = a.setReferences x n := by
  simp [setLifecycle, setReferences, ← h]

lemma alone_lease_some (h : a.timelineSerializers.lookup key = some x) (ha : a.Unlocked)
    (site : LeaseSite) :
    Uninterrupted i (a, .request key (.leasing site .get))
      (a.setReferences x (a.references x + 1), .request key (.leased x)) := by
  have hget : a.leaseExistingSerializerStep i key .get = some (a, .inl (.lock x)) := by
    rw [leaseExistingSerializerStep, h]
  have hadded := setReferences_under_lock (i := i) (n := a.references x + 1) (ha x).1
  refine .next 0 (advance_lease hget) ?_
  refine .next 0 (advance_lease (if_pos (ha x).1)) ?_
  refine .next 0 (advance_lease (if_pos (decide_eq_true h))) ?_
  refine .next 0 (advance_lease rfl) ?_
  refine .next 0 rfl ?_
  rw [references_setLifecycle, hadded]
  exact .refl

def Runs (i : Nat) (wrap : PrunePhase ⊕ Bool → ProxyTask) : Prop :=
  ∀ (a : TimelineScopedAllocator) len phase, a.advance i len (wrap (.inl phase)) =
    (a.pruneOneIdleSerializerStep i len phase).map fun next => (next.1, wrap next.2)

variable {wrap : PrunePhase ⊕ Bool → ProxyTask}

lemma Runs.advance (hwrap : Runs i wrap) {phase : PrunePhase} {next : PrunePhase ⊕ Bool}
    (h : a.pruneOneIdleSerializerStep i len phase = some (a1, next)) :
    a.advance i len (wrap (.inl phase)) = some (a1, wrap next) := by
  rw [hwrap, h, Option.map_some]

lemma removeSerializer_under_lock (h : (a.serializers x).lifecycle = none) :
    (((a.setLifecycle x (some i)).removeSerializer key).setSlots
      (a.serializerSlots - 1)).setLifecycle x none =
      (a.removeSerializer key).setSlots (a.serializerSlots - 1) := by
  simp [setLifecycle, removeSerializer, setSlots, ← h]

lemma alone_prune (hwrap : Runs i wrap)
    (attempts : Nat) (a : TimelineScopedAllocator) (ha : a.Unlocked) :
    Uninterrupted i (a, wrap (.inl (.pop attempts)))
      ((tryPruneIdleCandidates attempts a).2,
        wrap (.inr (tryPruneIdleCandidates attempts a).1)) := by
  induction attempts generalizing a with
  | zero => exact .next 0 (hwrap.advance rfl) .refl
  | succ attempts ih =>
    rw [tryPruneIdleCandidates]
    rcases hq : a.idleSerializers with _ | ⟨key, rest⟩
    · have hpop : a.pruneOneIdleSerializerStep i 0 (.pop (attempts + 1)) = some
        (a, .inr false) := by
        rw [pruneOneIdleSerializerStep, hq]
      exact .next 0 (hwrap.advance hpop) .refl
    have hpop : a.pruneOneIdleSerializerStep i 0 (.pop (attempts + 1)) =
        some (a.setIdle rest, .inl (.get attempts key)) := by
      rw [pruneOneIdleSerializerStep, hq]
    refine .next 0 (hwrap.advance hpop) ?_
    dsimp only
    rcases hlook : a.timelineSerializers.lookup key with _ | x
    · have hlook : (a.setIdle rest).timelineSerializers.lookup key = none := hlook
      have hget : (a.setIdle rest).pruneOneIdleSerializerStep i 0 (.get attempts key) =
          some (a.setIdle rest, .inl (.pop attempts)) := by
        rw [pruneOneIdleSerializerStep, hlook]
      exact .next 0 (hwrap.advance hget) (ih (a.setIdle rest) ha)
    have hlook : (a.setIdle rest).timelineSerializers.lookup key = some x := hlook
    have hget : (a.setIdle rest).pruneOneIdleSerializerStep i 0 (.get attempts key) =
        some (a.setIdle rest, .inl (.load attempts key x)) := by
      rw [pruneOneIdleSerializerStep, hlook]
    refine .next 0 (hwrap.advance hget) ?_
    dsimp only
    by_cases hzero : a.references x = 0
    · have hreload : ((a.setIdle rest).setLifecycle x (some i)).references x = 0 :=
        references_setLifecycle.trans hzero
      have hremoved : _ = ((a.setIdle rest).removeSerializer key).setSlots
          (a.serializerSlots - 1) :=
        removeSerializer_under_lock (i := i) (ha x).1
      rw [if_neg (not_not.mpr hzero), ← hremoved]
      refine .next 0 (hwrap.advance (if_neg (not_not.mpr hzero))) ?_
      refine .next 0 (hwrap.advance (if_pos (ha x).1)) ?_
      refine .next 0 (hwrap.advance (if_neg (not_not.mpr hreload))) ?_
      refine .next 0 (hwrap.advance (if_pos hlook)) ?_
      refine .next 0 (hwrap.advance rfl) ?_
      exact .next 0 (hwrap.advance rfl) .refl
    · rw [if_pos hzero]
      exact .next 0 (hwrap.advance (if_pos hzero)) (ih (a.setIdle rest) ha)

lemma advance_request {phase phase1 : RequestPhase}
    (h : a.advanceRequest i len key phase = some (a1, phase1)) :
    a.advance i len (.request key phase) = some (a1, .request key phase1) := by
  simp [advance, h]

lemma alone_create (hkey : a.timelineSerializers.lookup key = none)
    (hlt : a.serializerSlots < a.maxSerializers) :
    Uninterrupted i (a, .request key .loadSlots)
      ((a.setSlots (a.serializerSlots + 1)).insertSerializer key,
        .request key (.leased a.nextSerializer)) := by
  have hkey : (a.setSlots (a.serializerSlots + 1)).timelineSerializers.lookup key = none := hkey
  have hentry : (a.setSlots (a.serializerSlots + 1)).advanceRequest i 0 key .entry =
      some ((a.setSlots (a.serializerSlots + 1)).insertSerializer key,
        .leased a.nextSerializer) := by
    rw [advanceRequest, hkey]
    rfl
  refine .next 0 (advance_request (if_neg (Nat.not_le.mpr hlt))) ?_
  refine .next 0 (advance_request (if_pos rfl)) ?_
  exact .next 0 (advance_request hentry) .refl

def pruneWithin (key : String) : PrunePhase ⊕ Bool → ProxyTask
  | .inl phase => .request key (.pruning phase)
  | .inr _ => .request key (.leasing .pruned .get)

lemma runs_pruneWithin (i : Nat) (key : String) : Runs i (pruneWithin key) := by
  intro a len phase
  rw [pruneWithin, advance, advanceRequest, Option.map_map]
  congr 1
  funext next
  rcases next with ⟨a', phase | res⟩ <;> rfl

lemma runs_prune (i : Nat) : Runs i ProxyTask.prune := fun _ _ _ => rfl

lemma alone_full (ha : a.Unlocked) (hkey : a.timelineSerializers.lookup key = none)
    (hfull : a.maxSerializers ≤ a.serializerSlots) {res : Bool}
    (hprune : a.pruneOneIdleSerializer = (res, a'))
    (hkey' : a'.timelineSerializers.lookup key = none)
    (hrest : Uninterrupted i (a', .request key .reloadSlots) now) :
    Uninterrupted i (a, .request key (.leasing .first .get)) now := by
  have hpruned := alone_prune (runs_pruneWithin i key) (max a.laneCount 1) a ha
  have heq : tryPruneIdleCandidates (max a.laneCount 1) a = (res, a') := hprune
  rw [heq] at hpruned
  refine alone_lease_none hkey .first (.next 0 (advance_request (if_pos hfull)) ?_)
  refine alone_lease_none hkey .saturated (.next a.laneCount (advance_request rfl) ?_)
  exact hpruned.trans (alone_lease_none hkey' .pruned hrest)

def returned : Except TsoError SerializerId → RequestPhase
  | .ok serializer => .leased serializer
  | .error error => .failed error

lemma alone_serializerFor {result : Except TsoError SerializerId} (ha : a.Unlocked)
    (h : LeaseOutcome a key result a') :
    Uninterrupted i (a, .request key (.leasing .first .get))
      (a', .request key (returned result)) := by
  cases h with
  | existing hkey => exact alone_lease_some hkey ha .first
  | created hkey hlt => exact alone_lease_none hkey .first (alone_create hkey hlt)
  | saturated hkey hfull hnone hprune =>
    exact alone_full ha hkey hfull hprune hkey (.next 0 (advance_request (if_pos hfull)) .refl)
  | replaced hkey hfull hprune hpruned hmem hkey' hlt =>
    exact alone_full ha hkey hfull hprune hkey'
      (.next 0 (advance_request (if_neg (Nat.not_le.mpr hlt))) (alone_create hkey' hlt))

lemma setSerialize_cancel (h : (a.serializers x).serialize = none) :
    (a.setSerialize x (some i)).setSerialize x none = a := by
  simp [setSerialize, ← h]

lemma alone_dropLease (ha : a.Unlocked) :
    Uninterrupted i (a, .request key (.leased x)) (a.dropLease key x, .request key .finished) := by
  refine .next 0 (advance_request (if_pos (ha x).2)) ?_
  refine .next 0 (advance_request rfl) ?_
  rw [setSerialize_cancel (ha x).2, dropLease]
  by_cases hlast : a.references x = 1
  · have hdrop : a.advanceRequest i 0 key (.dropping x) =
        some (a.setReferences x (a.references x - 1), .pushing) := by
      simp [advanceRequest, hlast]
    rw [if_pos hlast]
    exact .next 0 (advance_request hdrop) (.next 0 (advance_request rfl) .refl)
  · have hdrop : a.advanceRequest i 0 key (.dropping x) =
        some (a.setReferences x (a.references x - 1), .finished) := by
      simp [advanceRequest, hlast]
    rw [if_neg hlast]
    exact .next 0 (advance_request hdrop) .refl

lemma alone_pruneOneIdleSerializer (ha : a.Unlocked) : Uninterrupted i (a, .prune (.inl .count))
      (a.pruneOneIdleSerializer.2, .prune (.inr a.pruneOneIdleSerializer.1)) :=
  .next a.laneCount rfl (alone_prune (runs_prune i) (max a.laneCount 1) a ha)

end

section

open TimelineScopedAllocator Threads

structure Replays (w : LeaseWorld) (s : ProxyState) : Prop where
  allocator : s.allocator = w.allocator
  unlocked : w.allocator.Unlocked
  quiet : ∀ task ∈ s.tasks, task.inCall = false
  leased : ∀ task ∈ s.tasks, ∀ key x, task.footing.lease = some (key, x) →
    task = .request key (.leased x)
  leases : ∀ lease,
    w.leases.count lease = s.tasks.countP fun task => task.footing.lease = some lease

variable {w w' : LeaseWorld} {s : ProxyState} {a a' : TimelineScopedAllocator} {key : String}
  {x : SerializerId} {maxSerializers : Nat} {task task' : ProxyTask}

lemma TimelineScopedAllocator.Unlocked.setReferences (h : a.Unlocked) (x : SerializerId) (n : Nat) :
    (a.setReferences x n).Unlocked := fun y =>
  ⟨lifecycle_setReferences.trans (h y).1, serialize_setReferences.trans (h y).2⟩

lemma TimelineScopedAllocator.Unlocked.insertSerializer (h : a.Unlocked) (key : String) :
    (a.insertSerializer key).Unlocked := by
  intro y
  by_cases hy : y = a.nextSerializer
  · subst hy
    simp [TimelineScopedAllocator.insertSerializer]
  · simpa [TimelineScopedAllocator.insertSerializer, hy] using h y

lemma Pruned.unlocked {other : String} (h : Pruned a a' other) (ha : a.Unlocked) : a'.Unlocked := by
  rw [h.eq]
  exact ha

lemma LeaseOutcome.unlocked {result : Except TsoError SerializerId}
    (h : LeaseOutcome a key result a') (ha : a.Unlocked) : a'.Unlocked := by
  cases h with
  | existing => exact ha.setReferences _ _
  | created => exact Unlocked.insertSerializer ha key
  | saturated => exact ha
  | @replaced b _ _ _ _ hpruned => exact Unlocked.insertSerializer (hpruned.unlocked ha) key

lemma pruneOneIdleSerializer_unlocked (ha : a.Unlocked) : a.pruneOneIdleSerializer.2.Unlocked := by
  rcases pruneOneIdleSerializer_cases a with ⟨hprune, -⟩ | ⟨a', key, hprune, hpruned, -⟩
  · rw [hprune]
    exact ha
  · rw [hprune]
    exact hpruned.unlocked ha

lemma dropLease_unlocked (ha : a.Unlocked) : (a.dropLease key x).Unlocked := by
  unfold TimelineScopedAllocator.dropLease
  dsimp only
  split_ifs
  · exact ha.setReferences x _
  · exact ha.setReferences x _

lemma Replays.spawn (h : Replays w s) (label : ProxyLabel)
    (hlabel : s.step label = some { s with tasks := s.tasks ++ [task] })
    (halone : Uninterrupted s.tasks.length (w.allocator, task) (a', task')) :
    Transition.Reach ProxyState.step (fun _ _ => True) s ⟨a', s.tasks ++ [task']⟩ := by
  have htask : (s.tasks ++ [task])[s.tasks.length]? = some task := List.getElem?_concat_length
  have hreach := halone.reach htask
  rw [← h.allocator, List.set_append_right _ _ (Nat.le_refl _), Nat.sub_self] at hreach
  exact .head trivial hlabel hreach

lemma Replays.append (h : Replays w s) (task : ProxyTask) (ha : a'.Unlocked)
    (hquiet : task.inCall = false)
    (hleased : ∀ key x, task.footing.lease = some (key, x) → task = .request key (.leased x)) :
    Replays ⟨a', task.footing.lease.toList ++ w.leases⟩ ⟨a', s.tasks ++ [task]⟩ where
  allocator := rfl
  unlocked := ha
  quiet other hother := by
    rcases List.mem_append.mp hother with hold | hnew
    · exact h.quiet other hold
    · exact List.mem_singleton.mp hnew ▸ hquiet
  leased other hother := by
    rcases List.mem_append.mp hother with hold | hnew
    · exact h.leased other hold
    · exact List.mem_singleton.mp hnew ▸ hleased
  leases lease := by
    rw [List.count_append, List.countP_append, h.leases lease, Nat.add_comm]
    rcases hlease : task.footing.lease with _ | found
    · simp [hlease]
    · simp [hlease, List.count_singleton]

lemma Replays.serializerFor (h : Replays w s) (hs : s.Reachable maxSerializers) (key : String) :
    ∃ result a', w.allocator.serializerFor key = some (result, a') ∧
      LeaseOutcome w.allocator key result a' ∧
      ∃ s' : ProxyState, s'.Reachable maxSerializers ∧
      Replays (w.acquired key (result, a')) s' := by
  have hslots := hs.inv.slots_of_quiet h.quiet
  have hroom := hs.inv.room
  rw [h.allocator] at hslots hroom
  obtain ⟨result, a', heq, houtcome⟩ := serializerFor_outcome hslots hroom key
  have hreach := h.spawn (.request key) rfl (alone_serializerFor h.unlocked houtcome)
  refine ⟨result, a', heq, houtcome, _, Transition.Reach.trans hs hreach, ?_⟩
  have ha' := houtcome.unlocked h.unlocked
  cases result with
  | error error => exact h.append (.request key (.failed error)) ha' rfl nofun
  | ok x =>
    refine h.append (.request key (.leased x)) ha' rfl fun key x hlease => ?_
    cases hlease
    rfl

lemma Replays.pruneOneIdleSerializer (h : Replays w s) (hs : s.Reachable maxSerializers) :
    ∃ s' : ProxyState, s'.Reachable maxSerializers ∧
      Replays ⟨w.allocator.pruneOneIdleSerializer.2, w.leases⟩ s' := by
  have hreach := h.spawn .prune rfl (alone_pruneOneIdleSerializer h.unlocked)
  refine ⟨_, Transition.Reach.trans hs hreach, ?_⟩
  exact h.append (.prune (.inr _)) (pruneOneIdleSerializer_unlocked h.unlocked) rfl nofun

lemma Replays.dropLease (h : Replays w s) (hs : s.Reachable maxSerializers)
    (hlease : (key, x) ∈ w.leases) :
    ∃ s' : ProxyState, s'.Reachable maxSerializers ∧
      Replays ⟨w.allocator.dropLease key x, w.leases.erase (key, x)⟩ s' := by
  have hpos : 0 < s.tasks.countP fun task => task.footing.lease = some (key, x) := by
    rw [← h.leases]
    exact List.count_pos_iff.mpr hlease
  obtain ⟨task, htask, hfound⟩ := List.countP_pos_iff.mp hpos
  obtain rfl := h.leased task htask key x (of_decide_eq_true hfound)
  obtain ⟨i, hi⟩ := List.mem_iff_getElem?.mp htask
  have hreach := (alone_dropLease h.unlocked).reach hi
  rw [← h.allocator] at hreach
  refine ⟨_, Transition.Reach.trans hs hreach, ?_⟩
  refine ⟨congrArg (TimelineScopedAllocator.dropLease · key x) h.allocator,
    dropLease_unlocked h.unlocked, fun other hother => ?_, fun other hother => ?_, fun lease => ?_⟩
  · rcases List.mem_or_eq_of_mem_set hother with hold | rfl
    · exact h.quiet other hold
    · rfl
  · rcases List.mem_or_eq_of_mem_set hother with hold | rfl
    · exact h.leased other hold
    · exact nofun
  have hcount := countP_set_add hi (.request key .finished)
    fun task => decide (task.footing.lease = some lease)
  have hold : ((ProxyTask.request key (.leased x)).footing.lease = some lease) =
      ((key, x) = lease) := propext Option.some_inj
  have hnew : (ProxyTask.request key .finished).footing.lease ≠ some lease := by rintro ⟨⟩
  simp only [hold, decide_eq_true_eq, hnew, if_false, Nat.add_zero] at hcount
  rw [List.count_erase, h.leases lease, beq_eq_decide]
  simp only [decide_eq_true_eq]
  omega

lemma LeaseWorld.Reachable.replayed (h : w.Reachable maxSerializers) :
    ∃ s : ProxyState, s.Reachable maxSerializers ∧ Replays w s := by
  induction h with
  | refl => exact ⟨.initial maxSerializers, .refl, rfl, fun _ =>
      ⟨rfl, rfl⟩, by simp [ProxyState.initial],
      by simp [ProxyState.initial], fun _ => rfl⟩
  | @tail w w' call _ _ hstep ih =>
    obtain ⟨s, hs, hw⟩ := ih
    cases call with
    | serializerFor key =>
      obtain ⟨res, a', heq, -, hnext⟩ := hw.serializerFor hs key
      have hstep : (w.allocator.serializerFor key).map (w.acquired key) = some w' := hstep
      rw [heq] at hstep
      cases hstep
      exact hnext
    | dropLease key x =>
      obtain ⟨hlease, hstep⟩ := Option.ite_none_right_eq_some.mp hstep
      cases hstep
      exact hw.dropLease hs hlease
    | pruneOneIdleSerializer =>
      cases hstep
      exact hw.pruneOneIdleSerializer hs

end

end Chronos
