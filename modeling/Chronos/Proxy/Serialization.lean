import Chronos.KeyValue.Assoc
import Chronos.Proxy.Lanes
import Chronos.Threads.Pool

/-! The leases of one timeline all have the same serializer. A lane is removed only by a thread that
has the lifecycle lock of its serializer and has seen that nobody leases it, and it is leased only
under the same lock by a thread that has seen that it is still there. -/

namespace Chronos

open TimelineScopedAllocator Threads List

inductive Footing where
  | free
  /-- It has a reference to the serializer. -/
  | refers (serializer : SerializerId)
  /-- It has the lifecycle lock, -/
  | locked (serializer : SerializerId)
  /-- and has seen that the lane is still there, -/
  | checked (timelineKey : String) (serializer : SerializerId)
  /-- and has leased it, -/
  | counted (timelineKey : String) (serializer : SerializerId)
  /-- or has seen that nobody leases it, -/
  | removing (serializer : SerializerId)
  /-- and has removed the lane, whose slot it still has. -/
  | releasing (serializer : SerializerId)
  /-- It has seen a number of slots that leaves room for one more, -/
  | trying (current : Nat)
  /-- and has taken one for a lane that is not there yet. -/
  | reserving
  | leasing (timelineKey : String) (serializer : SerializerId)
  /-- It has a lease and the lock of the allocations. -/
  | allocating (timelineKey : String) (serializer : SerializerId)
  deriving DecidableEq

namespace Footing

/-- The timeline and the serializer of a live lease: one that has been counted and whose drop has
not. -/
def lease : Footing → Option (String × SerializerId)
  | counted timelineKey serializer | leasing timelineKey serializer
  | allocating timelineKey serializer => some (timelineKey, serializer)
  | _ => none

def leases (serializer : SerializerId) (f : Footing) : Bool :=
  f.lease.any fun lease => lease.2 = serializer

def reserves : Footing → Bool
  | releasing _ | reserving => true
  | _ => false

def locks : Footing → Option SerializerId
  | locked serializer | checked _ serializer | counted _ serializer | removing serializer
  | releasing serializer => some serializer
  | _ => none

def removes : Footing → Option SerializerId
  | removing serializer => some serializer
  | _ => none

def allocates : Footing → Option SerializerId
  | allocating _ serializer => some serializer
  | _ => none

def lane : Footing → Option (String × SerializerId)
  | checked timelineKey serializer | counted timelineKey serializer
  | leasing timelineKey serializer | allocating timelineKey serializer =>
    some (timelineKey, serializer)
  | _ => none

def Fits (a : TimelineScopedAllocator) (i : Nat) : Footing → Prop
  | free | reserving => True
  | trying current => current < a.maxSerializers
  | refers serializer => serializer < a.nextSerializer
  | locked serializer | releasing serializer =>
    serializer < a.nextSerializer ∧ (a.serializers serializer).lifecycle = some i
  | checked timelineKey serializer | counted timelineKey serializer =>
    serializer < a.nextSerializer ∧ (a.serializers serializer).lifecycle = some i ∧
      a.timelineSerializers.lookup timelineKey = some serializer
  | removing serializer =>
    serializer < a.nextSerializer ∧ (a.serializers serializer).lifecycle = some i ∧
      a.references serializer = 0
  | leasing timelineKey serializer =>
    serializer < a.nextSerializer ∧ a.timelineSerializers.lookup timelineKey = some serializer
  | allocating timelineKey serializer =>
    serializer < a.nextSerializer ∧ a.timelineSerializers.lookup timelineKey = some serializer ∧
      (a.serializers serializer).serialize = some i

inductive Move (a : TimelineScopedAllocator) (i : Nat) :
    Footing → TimelineScopedAllocator → Footing → Prop where
  | stay {f : Footing} (queue : List String) : Move a i f (a.setIdle queue) f
  | refer {timelineKey : String} {serializer : SerializerId} :
      a.timelineSerializers.lookup timelineKey = some serializer →
      Move a i free a (refers serializer)
  | forget {serializer : SerializerId} : Move a i (refers serializer) a free
  | lock {serializer : SerializerId} : (a.serializers serializer).lifecycle = none →
      Move a i (refers serializer) (a.setLifecycle serializer (some i)) (locked serializer)
  | unlock {serializer : SerializerId} :
      Move a i (locked serializer) (a.setLifecycle serializer none) free
  | check {timelineKey : String} {serializer : SerializerId} :
      a.timelineSerializers.lookup timelineKey = some serializer →
      Move a i (locked serializer) a (checked timelineKey serializer)
  | count {timelineKey : String} {serializer : SerializerId} :
      Move a i (checked timelineKey serializer)
        (a.setReferences serializer (a.references serializer + 1)) (counted timelineKey serializer)
  | unlockCounted {timelineKey : String} {serializer : SerializerId} :
      Move a i (counted timelineKey serializer) (a.setLifecycle serializer none)
        (leasing timelineKey serializer)
  | seeIdle {serializer : SerializerId} : a.references serializer = 0 →
      Move a i (locked serializer) a (removing serializer)
  | leave {serializer : SerializerId} : Move a i (removing serializer) a (locked serializer)
  | remove {timelineKey : String} {serializer : SerializerId} :
      a.timelineSerializers.lookup timelineKey = some serializer →
      Move a i (removing serializer) (a.removeSerializer timelineKey) (releasing serializer)
  | release {serializer : SerializerId} :
      Move a i (releasing serializer) (a.setSlots (a.serializerSlots - 1)) (locked serializer)
  | tryNext : a.serializerSlots < a.maxSerializers → Move a i free a (trying a.serializerSlots)
  | retry {current : Nat} : Move a i (trying current) a free
  | reserve : Move a i (trying a.serializerSlots) (a.setSlots (a.serializerSlots + 1)) reserving
  | giveBack : Move a i reserving (a.setSlots (a.serializerSlots - 1)) free
  | insert {timelineKey : String} : a.timelineSerializers.lookup timelineKey = none →
      Move a i reserving (a.insertSerializer timelineKey) (leasing timelineKey a.nextSerializer)
  | enter {timelineKey : String} {serializer : SerializerId} :
      (a.serializers serializer).serialize = none →
      Move a i (leasing timelineKey serializer) (a.setSerialize serializer (some i))
        (allocating timelineKey serializer)
  | exit {timelineKey : String} {serializer : SerializerId} :
      Move a i (allocating timelineKey serializer) (a.setSerialize serializer none)
        (leasing timelineKey serializer)
  | drop {timelineKey : String} {serializer : SerializerId} :
      Move a i (leasing timelineKey serializer)
        (a.setReferences serializer (a.references serializer - 1)) free

end Footing

section

open Footing

def LaneLeasePhase.footing (timelineKey : String) : LaneLeasePhase → Footing
  | get => .free
  | lock serializer => .refers serializer
  | check serializer | unlock serializer false => .locked serializer
  | add serializer => .checked timelineKey serializer
  | unlock serializer true => .counted timelineKey serializer

def PrunePhase.footing : PrunePhase → Footing
  | count | pop _ | get _ _ => .free
  | load _ _ serializer | lock _ _ serializer => .refers serializer
  | reload _ _ serializer | unlock serializer _ => .locked serializer
  | remove _ _ serializer => .removing serializer
  | releaseSlot serializer => .releasing serializer

def RequestPhase.footing (timelineKey : String) : RequestPhase → Footing
  | leasing _ phase => phase.footing timelineKey
  | pruning phase => phase.footing
  | compareExchange current => .trying current
  | entry | releaseSlot => .reserving
  | leased serializer | waiting serializer | dropping serializer =>
    .leasing timelineKey serializer
  | allocating serializer => .allocating timelineKey serializer
  | _ => .free

def ProxyTask.footing : ProxyTask → Footing
  | request timelineKey phase => phase.footing timelineKey
  | prune (.inl phase) => phase.footing
  | prune (.inr _) => .free

variable {a a' : TimelineScopedAllocator} {i len : Nat} {tk : String}

lemma Footing.Move.idle {f : Footing} : Move a i f a f := .stay a.idleSerializers

def leaseFooting (timelineKey : String) : LaneLeasePhase ⊕ Option SerializerId → Footing
  | .inl phase => phase.footing timelineKey
  | .inr (some serializer) => .leasing timelineKey serializer
  | .inr none => .free

lemma lease_move {phase : LaneLeasePhase} {next : LaneLeasePhase ⊕ Option SerializerId}
    (h : a.leaseExistingSerializerStep i tk phase = some (a', next)) :
    Move a i (phase.footing tk) a' (leaseFooting tk next) := by
  cases phase with
  | get =>
    rw [leaseExistingSerializerStep] at h
    split at h <;> cases h
    · exact .idle
    · next hlook => exact .refer hlook
  | lock serializer =>
    obtain ⟨hfree, h⟩ := Option.ite_none_right_eq_some.mp h
    cases h
    exact .lock hfree
  | check serializer =>
    rw [leaseExistingSerializerStep] at h
    split at h <;> cases h
    · next hcurrent => exact .check (of_decide_eq_true hcurrent)
    · exact .idle
  | add serializer =>
    cases h
    exact .count
  | unlock serializer leased =>
    cases h
    cases leased
    · exact .unlock
    · exact .unlockCounted

def pruneFooting : PrunePhase ⊕ Bool → Footing
  | .inl phase => phase.footing
  | .inr _ => .free

lemma prune_move {phase : PrunePhase} {next : PrunePhase ⊕ Bool}
    (h : a.pruneOneIdleSerializerStep i len phase = some (a', next)) :
    Move a i phase.footing a' (pruneFooting next) := by
  cases phase with
  | count =>
    cases h
    exact .idle
  | pop attempts =>
    cases attempts with
    | zero =>
      cases h
      exact .idle
    | succ attempts =>
      rw [pruneOneIdleSerializerStep] at h
      split at h <;> cases h
      · exact .idle
      · exact .stay _
  | get attempts key =>
    rw [pruneOneIdleSerializerStep] at h
    split at h <;> cases h
    · exact .idle
    · next hlookup => exact .refer hlookup
  | load attempts key serializer =>
    rw [pruneOneIdleSerializerStep] at h
    split at h <;> cases h
    · exact .forget
    · exact .idle
  | lock attempts key serializer =>
    obtain ⟨hfree, h⟩ := Option.ite_none_right_eq_some.mp h
    cases h
    exact .lock hfree
  | reload attempts key serializer =>
    rw [pruneOneIdleSerializerStep] at h
    split at h <;> cases h
    · exact .idle
    · next hzero => exact .seeIdle (not_not.mp hzero)
  | remove attempts key serializer =>
    rw [pruneOneIdleSerializerStep] at h
    split at h <;> cases h
    · next hlookup => exact .remove hlookup
    · exact .leave
  | releaseSlot serializer =>
    cases h
    exact .release
  | unlock serializer attempts =>
    cases h
    cases attempts
    · exact .unlock
    · exact .unlock

lemma request_move {phase phase' : RequestPhase}
    (h : a.advanceRequest i len tk phase = some (a', phase')) :
    Move a i (phase.footing tk) a' (phase'.footing tk) := by
  cases phase with
  | leasing site phase =>
    obtain ⟨⟨a1, next⟩, hlease, heq⟩ := Option.map_eq_some_iff.mp h
    cases heq
    have hmove := lease_move hlease
    rcases next with next | _ | serializer
    · exact hmove
    · cases site <;> exact hmove
    · exact hmove
  | loadSlots =>
    rw [advanceRequest] at h
    split at h <;> cases h
    · exact .idle
    · next hroom => exact .tryNext (Nat.not_le.mp hroom)
  | compareExchange current =>
    rw [advanceRequest] at h
    split at h <;> cases h
    · next hslots => exact hslots ▸ .reserve
    · exact .retry
  | entry =>
    rw [advanceRequest] at h
    split at h <;> cases h
    · exact .idle
    · next hlookup => exact .insert hlookup
  | releaseSlot =>
    cases h
    exact .giveBack
  | pruning phase =>
    obtain ⟨⟨a1, next⟩, hprune, heq⟩ := Option.map_eq_some_iff.mp h
    cases heq
    have hmove := prune_move hprune
    cases next <;> exact hmove
  | reloadSlots =>
    rw [advanceRequest] at h
    split at h <;> cases h <;> exact .idle
  | leased serializer =>
    rw [advanceRequest] at h
    split at h <;> cases h
    · next hfree => exact .enter hfree
    · exact .idle
  | waiting serializer =>
    obtain ⟨hfree, h⟩ := Option.ite_none_right_eq_some.mp h
    cases h
    exact .enter hfree
  | allocating serializer =>
    cases h
    exact .exit
  | dropping serializer =>
    cases h
    split <;> exact .drop
  | pushing =>
    cases h
    exact .stay _
  | finished => cases h
  | failed error => cases h

variable {task task' : ProxyTask}

lemma task_move (h : a.advance i len task = some (a', task')) :
    Move a i task.footing a' task'.footing := by
  rcases task with ⟨key, phase⟩ | phase | res
  · obtain ⟨⟨a1, next⟩, hreq, heq⟩ := Option.map_eq_some_iff.mp h
    cases heq
    exact request_move hreq
  · obtain ⟨⟨a1, next⟩, hprune, heq⟩ := Option.map_eq_some_iff.mp h
    cases heq
    have hmove := prune_move hprune
    cases next <;> exact hmove
  · cases h

lemma abandon_footing (h : task.abandon = some task') : task'.footing = task.footing := by
  unfold ProxyTask.abandon at h
  split at h <;> cases h
  rfl

end

section

open Footing

variable {a a' : TimelineScopedAllocator} {i j : Nat} {x y : SerializerId} {f f' g : Footing}
  {tk : String}

variable {holder : Option Nat} {n : Nat}

@[simp] lemma references_setLifecycle :
    (a.setLifecycle x holder).references y = a.references y := by
  by_cases h : y = x <;> simp [references, setLifecycle, h]

@[simp] lemma serialize_setLifecycle :
    ((a.setLifecycle x holder).serializers y).serialize = (a.serializers y).serialize := by
  by_cases h : y = x <;> simp [setLifecycle, h]

@[simp] lemma references_setSerialize :
    (a.setSerialize x holder).references y = a.references y := by
  by_cases h : y = x <;> simp [references, setSerialize, h]

@[simp] lemma lifecycle_setSerialize :
    ((a.setSerialize x holder).serializers y).lifecycle = (a.serializers y).lifecycle := by
  by_cases h : y = x <;> simp [setSerialize, h]

@[simp] lemma lifecycle_setReferences :
    ((a.setReferences x n).serializers y).lifecycle = (a.serializers y).lifecycle := by
  by_cases h : y = x <;> simp [setReferences, h]

@[simp] lemma serialize_setReferences :
    ((a.setReferences x n).serializers y).serialize = (a.serializers y).serialize := by
  by_cases h : y = x <;> simp [setReferences, h]

lemma references_setReferences :
    (a.setReferences x n).references y = if y = x then n else a.references y := by
  by_cases h : y = x <;> simp [references, setReferences, h]

lemma lifecycle_setLifecycle_of_ne (h : y ≠ x) :
    ((a.setLifecycle x holder).serializers y).lifecycle = (a.serializers y).lifecycle := by
  simp [setLifecycle, h]

lemma serialize_setSerialize_of_ne (h : y ≠ x) :
    ((a.setSerialize x holder).serializers y).serialize = (a.serializers y).serialize := by
  simp [setSerialize, h]

lemma serializers_insertSerializer (h : y < a.nextSerializer) :
    (a.insertSerializer tk).serializers y = a.serializers y := by
  simp [insertSerializer, Nat.ne_of_lt h]

lemma Footing.Fits.lifecycle (h : Fits a j g) (hlocks : g.locks = some x) :
    (a.serializers x).lifecycle = some j := by
  cases g <;> cases hlocks
  case locked | releasing => exact h.2
  case checked | counted | removing => exact h.2.1

lemma Footing.Fits.serialize (h : Fits a j g) (hallocates : g.allocates = some x) :
    (a.serializers x).serialize = some j := by
  cases g <;> cases hallocates
  exact h.2.2

lemma Footing.Fits.lane (h : Fits a j g) (hlane : g.lane = some (tk, x)) :
    a.timelineSerializers.lookup tk = some x := by
  cases g <;> cases hlane
  case checked | counted => exact h.2.2
  case leasing => exact h.2
  case allocating => exact h.2.1

lemma Footing.lane_of_lease {lease : String × SerializerId} (h : g.lease = some lease) :
    g.lane = some lease := by
  cases g <;> cases h <;> rfl

lemma Footing.lease_or_locks (h : g.lane = some (tk, x)) :
    g.lease = some (tk, x) ∨ g.locks = some x := by
  cases g <;> cases h
  case checked | counted => exact .inr rfl
  case leasing | allocating => exact .inl rfl

lemma Footing.locks_of_removes (h : g.removes = some x) : g.locks = some x := by
  cases g <;> cases h
  rfl

lemma Footing.Fits.frame (h : Fits a j g) (hnext : a.nextSerializer ≤ a'.nextSerializer)
    (hmax : a'.maxSerializers = a.maxSerializers)
    (hlifecycle : ∀ x < a.nextSerializer, g.locks = some x →
      (a'.serializers x).lifecycle = (a.serializers x).lifecycle)
    (hlane : ∀ key x, g.lane = some (key, x) →
      a'.timelineSerializers.lookup key = a.timelineSerializers.lookup key)
    (hidle : ∀ x < a.nextSerializer, g.removes = some x → a.references x = 0 → a'.references x = 0)
    (hserialize : ∀ x < a.nextSerializer, g.allocates = some x →
      (a'.serializers x).serialize = (a.serializers x).serialize) : Fits a' j g := by
  cases g with
  | free | reserving => trivial
  | trying current =>
    show current < a'.maxSerializers
    rw [hmax]
    exact h
  | refers x => exact Nat.lt_of_lt_of_le h hnext
  | locked x | releasing x => exact ⟨Nat.lt_of_lt_of_le h.1 hnext, (hlifecycle x h.1 rfl).trans h.2⟩
  | checked key x | counted key x =>
    exact ⟨Nat.lt_of_lt_of_le h.1 hnext, (hlifecycle x h.1 rfl).trans h.2.1,
      (hlane key x rfl).trans h.2.2⟩
  | removing x =>
    exact ⟨Nat.lt_of_lt_of_le h.1 hnext, (hlifecycle x h.1 rfl).trans h.2.1, hidle x h.1 rfl h.2.2⟩
  | leasing key x => exact ⟨Nat.lt_of_lt_of_le h.1 hnext, (hlane key x rfl).trans h.2⟩
  | allocating key x =>
    exact ⟨Nat.lt_of_lt_of_le h.1 hnext, (hlane key x rfl).trans h.2.1,
      (hserialize x h.1 rfl).trans h.2.2⟩

lemma Footing.Fits.setIdle (h : Fits a j g) (q : List String) : Fits (a.setIdle q) j g :=
  h.frame (Nat.le_refl _) rfl (fun _ _ _ => rfl) (fun _ _ _ => rfl) (fun _ _ _ h => h)
    fun _ _ _ => rfl

lemma Footing.Fits.setSlots (h : Fits a j g) (slots : Nat) : Fits (a.setSlots slots) j g :=
  h.frame (Nat.le_refl _) rfl (fun _ _ _ => rfl) (fun _ _ _ => rfl) (fun _ _ _ h => h)
    fun _ _ _ => rfl

lemma Footing.Fits.setLifecycle (h : Fits a j g)
    (hx : (a.serializers x).lifecycle ≠ some j) : Fits (a.setLifecycle x holder) j g := by
  refine h.frame (Nat.le_refl _) rfl (fun y _ hlocks => ?_) (fun _ _ _ => rfl) (fun y _ _ hy => ?_)
    fun y _ _ => serialize_setLifecycle
  · refine lifecycle_setLifecycle_of_ne ?_
    rintro rfl
    exact hx (h.lifecycle hlocks)
  · rw [references_setLifecycle, hy]

lemma Footing.Fits.setSerialize (h : Fits a j g)
    (hx : (a.serializers x).serialize ≠ some j) : Fits (a.setSerialize x holder) j g := by
  refine h.frame (Nat.le_refl _) rfl (fun y _ _ => lifecycle_setSerialize) (fun _ _ _ => rfl)
    (fun y _ _ hy => ?_) fun y _ hallocates => ?_
  · rw [references_setSerialize, hy]
  refine serialize_setSerialize_of_ne ?_
  rintro rfl
  exact hx (h.serialize hallocates)

lemma Footing.Fits.setReferences (h : Fits a j g)
    (hx : g.removes = some x → a.references x = 0 → n = 0) : Fits (a.setReferences x n) j g := by
  refine h.frame (Nat.le_refl _) rfl (fun y _ _ => lifecycle_setReferences) (fun _ _ _ => rfl)
    (fun y _ hremoves hy => ?_) fun y _ _ => serialize_setReferences
  rw [references_setReferences]
  split_ifs with heq
  · subst heq
    exact hx hremoves hy
  · exact hy

lemma Footing.Fits.insertSerializer (h : Fits a j g)
    (hnew : a.timelineSerializers.lookup tk = none) :
    Fits (a.insertSerializer tk) j g := by
  refine h.frame (Nat.le_succ _) rfl (fun y hy _ => by rw [serializers_insertSerializer hy])
    (fun key x hlane => AList.lookup_insert_ne ?_)
    (fun y hy _ hzero => by rw [references, serializers_insertSerializer hy]; exact hzero)
    fun y hy _ => by rw [serializers_insertSerializer hy]
  rintro rfl
  cases (h.lane hlane).symm.trans hnew

lemma Footing.Fits.removeSerializer (h : Fits a j g)
    (hx : a.timelineSerializers.lookup tk = some x)
    (hlane : g.lane ≠ some (tk, x)) : Fits (a.removeSerializer tk) j g := by
  refine h.frame (Nat.le_refl _) rfl (fun y _ _ => rfl) (fun key y hy => AList.lookup_erase_ne ?_)
    (fun y _ _ hzero => hzero) fun y _ _ => rfl
  rintro rfl
  have heq : y = x := Option.some.inj ((h.lane hy).symm.trans hx)
  exact hlane (heq ▸ hy)

lemma Footing.Move.others (hmove : Move a i f a' f') (hf : Fits a i f) (hg : Fits a j g)
    (hne : j ≠ i) (hlease : ∀ key x, g.lease = some (key, x) → a.references x ≠ 0) :
    Fits a' j g := by
  have hnot : ∀ {x}, f.locks = some x → (a.serializers x).lifecycle ≠ some j := by
    intro x hlocks heq
    exact hne (Option.some.inj (heq.symm.trans (hf.lifecycle hlocks)))
  cases hmove with
  | stay queue => exact hg.setIdle queue
  | release | reserve | giveBack => exact hg.setSlots _
  | refer | forget | check | seeIdle | leave | tryNext | retry => exact hg
  | lock hfree => exact hg.setLifecycle fun heq => by rw [hfree] at heq; cases heq
  | unlock | unlockCounted => exact hg.setLifecycle (hnot rfl)
  | count =>
    refine hg.setReferences fun hremoves => ?_
    exact absurd (hg.lifecycle (locks_of_removes hremoves)) (hnot rfl)
  | drop => exact hg.setReferences fun _ hzero => by rw [hzero]
  | remove hlookup =>
    refine hg.removeSerializer hlookup fun hlane => ?_
    rcases lease_or_locks hlane with hlease' | hlocks
    · exact hlease _ _ hlease' hf.2.2
    · exact hnot rfl (hg.lifecycle hlocks)
  | insert hnew => exact hg.insertSerializer hnew
  | enter hfree => exact hg.setSerialize fun heq => by rw [hfree] at heq; cases heq
  | exit =>
    refine hg.setSerialize fun heq => ?_
    exact hne (Option.some.inj (heq.symm.trans hf.2.2))

lemma Footing.Move.self (hmove : Move a i f a' f') (hf : Fits a i f)
    (hlanes : ∀ key x, a.timelineSerializers.lookup key = some x → x < a.nextSerializer) :
    Fits a' i f' := by
  cases hmove with
  | stay queue => exact hf.setIdle queue
  | refer hlookup => exact hlanes _ _ hlookup
  | forget | unlock | retry | reserve | giveBack | drop => trivial
  | lock hfree => exact ⟨hf, by simp [setLifecycle]⟩
  | check hlookup => exact ⟨hf.1, hf.2, hlookup⟩
  | count => exact ⟨hf.1, lifecycle_setReferences.trans hf.2.1, hf.2.2⟩
  | unlockCounted => exact ⟨hf.1, hf.2.2⟩
  | seeIdle hzero => exact ⟨hf.1, hf.2, hzero⟩
  | leave => exact ⟨hf.1, hf.2.1⟩
  | remove hlookup => exact ⟨hf.1, hf.2.1⟩
  | release => exact hf
  | tryNext hroom => exact hroom
  | insert hnew => exact ⟨Nat.lt_succ_self _, AList.lookup_insert _⟩
  | enter hfree => exact ⟨hf.1, hf.2, by simp [setSerialize]⟩
  | exit => exact ⟨hf.1, hf.2.1⟩

end

section

open Footing

variable {a a' : TimelineScopedAllocator} {i : Nat} {f f' : Footing}

lemma Footing.Move.references (hmove : Move a i f a' f')
    (hfresh : a.references a.nextSerializer = 0)
    (hpos : ∀ x, f.leases x = true → 0 < a.references x) (x : SerializerId) :
    a'.references x + (if f.leases x then 1 else 0) =
      a.references x + if f'.leases x then 1 else 0 := by
  cases hmove with
  | stay | refer | forget | check | seeIdle | leave | remove | release | tryNext | retry | reserve
  | giveBack => rfl
  | lock | unlock | unlockCounted => rw [references_setLifecycle]; rfl
  | enter | exit => rw [references_setSerialize]; rfl
  | @count key y =>
    rw [references_setReferences]
    by_cases h : y = x
    · subst h
      simp [leases, lease]
    · simp [leases, lease, h, Ne.symm h]
  | @drop key y =>
    have hy := hpos y (by simp [leases, lease])
    rw [references_setReferences]
    by_cases h : x = y
    · subst h
      simp [leases, lease]
      omega
    · simp [leases, lease, h, Ne.symm h]
  | @insert key hnew =>
    by_cases h : x = a.nextSerializer
    · subst h
      rw [hfresh]
      simp [leases, lease, TimelineScopedAllocator.references, insertSerializer]
    · simp [leases, lease, TimelineScopedAllocator.references, insertSerializer, h, Ne.symm h]

lemma Footing.Move.slots (hmove : Move a i f a' f')
    (hpos : f.reserves = true → 0 < a.serializerSlots) :
    a'.serializerSlots + a.laneCount + (if f.reserves then 1 else 0) =
      a.serializerSlots + a'.laneCount + if f'.reserves then 1 else 0 := by
  cases hmove with
  | stay | refer | forget | check | seeIdle | leave | tryNext | retry | lock | unlock
  | unlockCounted | enter | exit | count | drop => rfl
  | reserve =>
    show a.serializerSlots + 1 + a.laneCount + 0 = a.serializerSlots + a.laneCount + 1
    omega
  | release | giveBack =>
    have := hpos rfl
    show a.serializerSlots - 1 + a.laneCount + 1 = a.serializerSlots + a.laneCount + 0
    omega
  | @remove key x hlookup =>
    have hlength : (a.removeSerializer key).laneCount + 1 = a.laneCount :=
      KeyValue.length_keys_erase hlookup
    show a.serializerSlots + a.laneCount + 0 = a.serializerSlots + _ + 1
    omega
  | @insert key hnew =>
    have hlength : (a.insertSerializer key).laneCount = a.laneCount + 1 :=
      KeyValue.length_keys_insert hnew
    rw [hlength]
    show a.serializerSlots + a.laneCount + 1 = a.serializerSlots + (a.laneCount + 1) + 0
    omega

lemma Footing.Move.room (hmove : Move a i f a' f') (hf : Fits a i f)
    (h : a.serializerSlots ≤ a.maxSerializers) : a'.serializerSlots ≤ a'.maxSerializers := by
  cases hmove with
  | reserve => exact hf
  | release | giveBack => exact Nat.le_trans (Nat.sub_le _ _) h
  | _ => exact h

lemma Footing.Move.capacity (hmove : Move a i f a' f') :
    a'.maxSerializers = a.maxSerializers := by
  cases hmove <;> rfl

lemma Footing.Move.lanes (hmove : Move a i f a' f')
    (h : ∀ key x, a.timelineSerializers.lookup key = some x → x < a.nextSerializer)
    (key : String) (x : SerializerId) (hx : a'.timelineSerializers.lookup key = some x) :
    x < a'.nextSerializer := by
  cases hmove with
  | remove => exact h key x (KeyValue.lookup_erase_eq_some hx).2
  | insert =>
    rcases KeyValue.lookup_insert_eq_some hx with ⟨-, rfl⟩ | ⟨-, hold⟩
    · exact Nat.lt_succ_self _
    · exact Nat.lt_succ_of_lt (h key x hold)
  | _ => exact h key x hx

lemma Footing.Move.separate (hmove : Move a i f a' f')
    (hlanes : ∀ key x, a.timelineSerializers.lookup key = some x → x < a.nextSerializer)
    (h : ∀ key key' x, a.timelineSerializers.lookup key = some x →
      a.timelineSerializers.lookup key' = some x → key = key')
    (key key' : String) (x : SerializerId) (hx : a'.timelineSerializers.lookup key = some x)
    (hx' : a'.timelineSerializers.lookup key' = some x) : key = key' := by
  cases hmove with
  | remove =>
    exact h key key' x (KeyValue.lookup_erase_eq_some hx).2 (KeyValue.lookup_erase_eq_some hx').2
  | @insert other _ =>
    rcases KeyValue.lookup_insert_eq_some hx with ⟨rfl, rfl⟩ | ⟨-, hold⟩ <;>
      rcases KeyValue.lookup_insert_eq_some hx' with ⟨rfl, heq⟩ | ⟨-, hold'⟩
    · rfl
    · exact absurd (hlanes _ _ hold') (Nat.lt_irrefl _)
    · exact absurd (hlanes _ _ (heq ▸ hold)) (Nat.lt_irrefl _)
    · exact h key key' x hold hold'
  | _ => exact h key key' x hx hx'

lemma Footing.Move.lane_kept {key : String} {x : SerializerId} (hmove : Move a i f a' f')
    (hf : Fits a i f) (hlane : a.timelineSerializers.lookup key = some x)
    (hpos : 0 < a.references x) : a'.timelineSerializers.lookup key = some x := by
  cases hmove with
  | @remove other y hlook =>
    have hne : key ≠ other := by
      rintro rfl
      have heq : y = x := Option.some.inj (hlook.symm.trans hlane)
      exact Nat.ne_of_gt hpos (heq ▸ hf.2.2)
    exact (AList.lookup_erase_ne hne).trans hlane
  | @insert other hnew =>
    have hne : key ≠ other := by
      rintro rfl
      cases hnew.symm.trans hlane
    exact (AList.lookup_insert_ne hne).trans hlane
  | _ => exact hlane

end

namespace ProxyState

structure Inv (maxSerializers : Nat) (s : ProxyState) : Prop where
  capacity : s.allocator.maxSerializers = maxSerializers
  fits : AllFit (fun a i task => Footing.Fits a i task.footing) s.allocator s.tasks
  lanes : ∀ key x, s.allocator.timelineSerializers.lookup key = some x →
    x < s.allocator.nextSerializer
  separate : ∀ key key' x, s.allocator.timelineSerializers.lookup key = some x →
    s.allocator.timelineSerializers.lookup key' = some x → key = key'
  references : ∀ x, s.allocator.references x = s.tasks.countP fun task => task.footing.leases x
  slots : s.allocator.serializerSlots =
    s.allocator.laneCount + s.tasks.countP fun task => task.footing.reserves
  room : s.allocator.serializerSlots ≤ s.allocator.maxSerializers

variable {maxSerializers : Nat} {s s' : ProxyState} {i : Nat} {task task' : ProxyTask}

lemma inv_initial (maxSerializers : Nat) : (initial maxSerializers).Inv maxSerializers where
  capacity := rfl
  fits _ _ h := by cases h
  lanes _ _ h := by cases h
  separate _ _ _ h := by cases h
  references _ := rfl
  slots := rfl
  room := Nat.zero_le _

variable {x : SerializerId}

lemma Inv.references_ne_zero (h : s.Inv maxSerializers) (htask : task ∈ s.tasks)
    (hlease : task.footing.leases x = true) : 0 < s.allocator.references x := by
  rw [h.references]
  exact countP_pos_iff.mpr ⟨task, htask, hlease⟩

lemma Inv.references_next (h : s.Inv maxSerializers) :
    s.allocator.references s.allocator.nextSerializer = 0 := by
  rw [h.references]
  refine countP_eq_zero.mpr fun task htask hlease => ?_
  obtain ⟨i, hi⟩ := mem_iff_getElem?.mp htask
  obtain ⟨⟨key, x⟩, hx, heq⟩ := (Option.any_eq_true ..).mp hlease
  have hlane := (h.fits i task hi).lane (Footing.lane_of_lease hx)
  exact Nat.ne_of_lt (h.lanes key x hlane) (of_decide_eq_true heq)

lemma Inv.move {a' : TimelineScopedAllocator} (h : s.Inv maxSerializers)
    (htask : s.tasks[i]? = some task)
    (hmove : Footing.Move s.allocator i task.footing a' task'.footing) :
    Inv maxSerializers ⟨a', s.tasks.set i task'⟩ where
  capacity := hmove.capacity.trans h.capacity
  fits := by
    refine h.fits.set (hmove.self (h.fits i task htask) h.lanes) fun j other hne hother hfits => ?_
    refine hmove.others (h.fits i task htask) hfits hne fun key x hlease => ?_
    have hleases : other.footing.leases x = true := by simp [Footing.leases, hlease]
    exact Nat.ne_of_gt (h.references_ne_zero (mem_of_getElem? hother) hleases)
  lanes := hmove.lanes h.lanes
  separate := hmove.separate h.lanes h.separate
  references x := by
    have hcount := countP_set_add htask task' fun task => task.footing.leases x
    have hreferences := hmove.references h.references_next
      (fun y => h.references_ne_zero (mem_of_getElem? htask)) x
    have hold := h.references x
    dsimp only at hcount ⊢
    omega
  slots := by
    have hcount := countP_set_add htask task' fun task => task.footing.reserves
    have hpos : task.footing.reserves = true → 0 < s.allocator.serializerSlots := by
      intro hreserves
      rw [h.slots]
      exact Nat.add_pos_right _
        (countP_pos_iff.mpr ⟨task, mem_of_getElem? htask, hreserves⟩)
    have hslots := hmove.slots hpos
    have hold := h.slots
    dsimp only at hcount ⊢
    omega
  room := hmove.room (h.fits i task htask) h.room

lemma Inv.spawn (h : s.Inv maxSerializers) (hfree : task.footing = .free) :
    Inv maxSerializers { s with tasks := s.tasks ++ [task] } where
  capacity := h.capacity
  fits := h.fits.append fun j => by rw [hfree]; trivial
  lanes := h.lanes
  separate := h.separate
  references x := by
    have hnot : task.footing.leases x = false := by rw [hfree]; rfl
    simp [h.references x, hnot]
  slots := by
    have hnot : task.footing.reserves = false := by rw [hfree]; rfl
    simp [h.slots, hnot]
  room := h.room

lemma inv_step {label : ProxyLabel} (h : s.Inv maxSerializers)
    (hstep : s.step label = some s') : s'.Inv maxSerializers := by
  cases label with
  | request key =>
    cases hstep
    exact h.spawn rfl
  | prune =>
    cases hstep
    exact h.spawn rfl
  | advance i len =>
    obtain ⟨task, htask, hnext⟩ := Option.bind_eq_some_iff.mp hstep
    obtain ⟨⟨a', task'⟩, hadvance, rfl⟩ := Option.map_eq_some_iff.mp hnext
    exact h.move htask (task_move hadvance)
  | abandon i =>
    obtain ⟨task, htask, hnext⟩ := Option.bind_eq_some_iff.mp hstep
    obtain ⟨task', habandon, rfl⟩ := Option.map_eq_some_iff.mp hnext
    refine h.move htask ?_
    rw [abandon_footing habandon]
    exact .idle

lemma Reachable.inv (h : s.Reachable maxSerializers) : s.Inv maxSerializers :=
  Transition.Reach.invariant h (inv_initial maxSerializers) fun _ _ _ hs _ hstep =>
    inv_step hs hstep

/-- Request `i` has a live lease of the timeline's serializer: it has been counted, and its drop has
not. -/
def Live (s : ProxyState) (i : Nat) (timelineKey : String) (serializer : SerializerId) : Prop :=
  ∃ task, s.tasks[i]? = some task ∧ task.footing.lease = some (timelineKey, serializer)

def Allocating (s : ProxyState) (i : Nat) (timelineKey : String) : Prop :=
  ∃ serializer, s.tasks[i]? = some (.request timelineKey (.allocating serializer))

lemma Inv.live (h : s.Inv maxSerializers) {key : String}
    (hlive : s.Live i key x) : s.allocator.timelineSerializers.lookup key = some x := by
  obtain ⟨task, htask, hlease⟩ := hlive
  exact (h.fits i task htask).lane (Footing.lane_of_lease hlease)

end ProxyState

/-- A call of `serializer_for`, of a prune or of a lease's drop has not returned. -/
def ProxyTask.inCall : ProxyTask → Bool
  | request _ (.leased _) | request _ (.waiting _) | request _ (.allocating _)
  | request _ .finished | request _ (.failed _) | prune (.inr _) => false
  | _ => true

lemma ProxyTask.not_reserves {task : ProxyTask} (h : task.inCall = false) :
    task.footing.reserves = false := by
  unfold ProxyTask.inCall at h
  split at h <;> first | rfl | cases h

lemma ProxyState.Inv.slots_of_quiet {maxSerializers : Nat} {s : ProxyState}
    (h : s.Inv maxSerializers) (hquiet : ∀ task ∈ s.tasks, task.inCall = false) :
    s.allocator.serializerSlots = s.allocator.laneCount := by
  have hnone : (s.tasks.countP fun task => task.footing.reserves) = 0 := by
    refine countP_eq_zero.mpr fun task htask => ?_
    rw [ProxyTask.not_reserves (hquiet task htask)]
    exact Bool.false_ne_true
  rw [h.slots, hnone, Nat.add_zero]

lemma ProxyState.Inv.lane_kept {maxSerializers : Nat} {s s' : ProxyState} {i : Nat} {key : String}
    {x : SerializerId} {label : ProxyLabel} (h : s.Inv maxSerializers) (hlive : s.Live i key x)
    (hstep : s.step label = some s') : s'.allocator.timelineSerializers.lookup key = some x := by
  have hlane := h.live hlive
  obtain ⟨task, htask, hlease⟩ := hlive
  have hleases : task.footing.leases x = true := by simp [Footing.leases, hlease]
  have hpos := h.references_ne_zero (List.mem_of_getElem? htask) hleases
  cases label with
  | request | prune =>
    cases hstep
    exact hlane
  | advance j len =>
    obtain ⟨moving, hmoving, hnext⟩ := Option.bind_eq_some_iff.mp hstep
    obtain ⟨⟨a', next⟩, hadvance, rfl⟩ := Option.map_eq_some_iff.mp hnext
    exact (task_move hadvance).lane_kept (h.fits j moving hmoving) hlane hpos
  | abandon j =>
    obtain ⟨moving, hmoving, hnext⟩ := Option.bind_eq_some_iff.mp hstep
    obtain ⟨next, -, rfl⟩ := Option.map_eq_some_iff.mp hnext
    exact hlane

/-- In every interleaving of any number of requests: the live leases of a timeline have the same
serializer, at most one of them allocates, and no step removes their lane; the slots are at least
the lanes and at most the maximum, and exactly the lanes when no call is in progress. -/
theorem timeline_proxy_lanes (maxSerializers : Nat) (s : ProxyState)
    (hs : s.Reachable maxSerializers) :
    (∀ i j key x y, s.Live i key x → s.Live j key y → x = y) ∧
    (∀ i j key, s.Allocating i key → s.Allocating j key → i = j) ∧
    (∀ i key x, s.Live i key x → s.allocator.timelineSerializers.lookup key = some x ∧
      ∀ label s', s.step label = some s' → s'.allocator.timelineSerializers.lookup key = some x) ∧
    s.allocator.laneCount ≤ s.allocator.serializerSlots ∧
    s.allocator.serializerSlots ≤ maxSerializers ∧
    ((∀ task ∈ s.tasks, task.inCall = false) →
      s.allocator.serializerSlots = s.allocator.laneCount) := by
  have h := hs.inv
  refine ⟨fun i j key x y hx hy => ?_, fun i j key hi hj => ?_, fun i key x hlive => ?_, ?_, ?_,
    fun hquiet => ?_⟩
  · exact Option.some.inj ((h.live hx).symm.trans (h.live hy))
  · obtain ⟨x, hi⟩ := hi
    obtain ⟨y, hj⟩ := hj
    have hfits := h.fits i _ hi
    have hfits' := h.fits j _ hj
    -- both are in the section of the lane's serializer, and its lock has one holder
    cases hfits.2.1.symm.trans hfits'.2.1
    exact Option.some.inj (hfits.2.2.symm.trans hfits'.2.2)
  · exact ⟨h.live hlive, fun label s' hstep => h.lane_kept hlive hstep⟩
  · rw [h.slots]
    exact Nat.le_add_right _ _
  · exact h.capacity ▸ h.room
  · exact h.slots_of_quiet hquiet

def twoRequests : List ProxyLabel :=
  [.request "a", .request "a"] ++ List.replicate 5 (.advance 0 0) ++ List.replicate 6 (.advance 1 0)

theorem timeline_proxy_lanes_of_two_requests :
    ∃ s x y, ProxyState.Reachable 1 s ∧ s.Live 0 "a" x ∧ s.Live 1 "a" y ∧ x = y ∧
      s.allocator.serializerSlots ≤ 1 := by
  have hrun : (Transition.run ProxyState.step (fun _ _ => True) twoRequests (.initial 1)).any
      (fun s => s.tasks = [.request "a" (.allocating 0), .request "a" (.waiting 0)]) = true := by
    decide +kernel
  obtain ⟨s, hs, hend⟩ := Transition.Reach.exists_of_run hrun
  have htasks := of_decide_eq_true hend
  have hfirst : s.Live 0 "a" 0 := ⟨.request "a" (.allocating 0), by rw [htasks]; rfl, rfl⟩
  have hsecond : s.Live 1 "a" 0 := ⟨.request "a" (.waiting 0), by rw [htasks]; rfl, rfl⟩
  have h := timeline_proxy_lanes 1 s hs
  exact ⟨s, 0, 0, hs, hfirst, hsecond, h.1 0 1 "a" 0 0 hfirst hsecond, h.2.2.2.2.1⟩

end Chronos
