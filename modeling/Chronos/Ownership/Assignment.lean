import Chronos.Selection.Leader
import Chronos.U64
import Mathlib.Data.List.Range

/-! The assignment of virtual shards to the pods of a StatefulSet: rendezvous hashing over the
ordinals. Counts, shards and ordinals are `u32`, the seed and the scores `u64`; an overflow of the
score arithmetic is `none`. -/

namespace Chronos

open Selection List Option

namespace OwnershipScore

def modulus : Nat := 2147483647

def multiplier : Nat := 1103515245

def increment : Nat := 12345

def workerSalt : Nat := 97

end OwnershipScore

open OwnershipScore in
def ownershipScore (shard worker assignmentSeed : Nat) : Option Nat := do
  let shardTerm ← U64.checkedMul (← U64.checkedAdd shard 1) multiplier
  let workerTerm ← U64.checkedMul (← U64.checkedAdd worker 1) increment
  let terms ← U64.checkedAdd (shardTerm % modulus) (workerTerm % modulus)
  let sum ← U64.checkedAdd terms (assignmentSeed % modulus)
  let mixed := sum % modulus
  let mixed := (mixed ^^^ (mixed >>> 16)) &&& modulus
  let mixed := (← U64.checkedAdd (← U64.checkedMul mixed multiplier) increment) % modulus
  let mixed := (mixed ^^^ (mixed >>> 11)) &&& modulus
  let scaled ← U64.checkedAdd (← U64.checkedMul mixed multiplier) increment
  let total ← U64.checkedAdd scaled (← U64.checkedMul worker workerSalt)
  return total % modulus

def bestWorker (shard assignmentSeed : Nat) : Nat → Option (Nat × Nat)
  | 0 => some (0, 0)
  | worker + 1 => do
    let (best, bestScore) ← bestWorker shard assignmentSeed worker
    let score ← ownershipScore shard worker assignmentSeed
    if worker = 0 || score > bestScore then return (worker, score) else return (best, bestScore)

def ownerForShard (workerCount shard assignmentSeed : Nat) : Option Nat := do
  let (best, _) ← bestWorker shard assignmentSeed workerCount
  return best

def ownedShards (ordinal workerCount assignmentSeed : Nat) : List Nat → Option (List Nat)
  | [] => some []
  | shard :: rest => do
    let owner ← ownerForShard workerCount shard assignmentSeed
    let owned ← ownedShards ordinal workerCount assignmentSeed rest
    if owner = ordinal then return shard :: owned else return owned

structure OwnershipEnv where
  primaryRemainder : Nat
  remainders : List Nat
  deriving DecidableEq

def ownsNoShards (ordinal : Nat) : String :=
  "pod ordinal " ++ toString ordinal ++
    " owns no generator shards; increase ownership shard count or reduce replicas"

def ownershipEnvForOrdinal (ordinal workerCount shardCount assignmentSeed : Nat) :
    Option (Except String OwnershipEnv) :=
  if shardCount = 0 then some (.error "CHRONOS_GENERATOR_OWNERSHIP_MODULO must be > 0")
  else if workerCount = 0 then some (.error "CHRONOS_OWNERSHIP_WORKER_COUNT must be > 0")
  else if ordinal ≥ workerCount then
    some (.error ("pod ordinal " ++ toString ordinal ++
      " must be < CHRONOS_OWNERSHIP_WORKER_COUNT=" ++ toString workerCount))
  else do
    let remainders ← ownedShards ordinal workerCount assignmentSeed (List.range shardCount)
    match remainders.head? with
    | none => return .error (ownsNoShards ordinal)
    | some primaryRemainder => return .ok ⟨primaryRemainder, remainders⟩

section

variable {shard worker seed : Nat}

open OwnershipScore

lemma mod_modulus_lt (a : Nat) : a % modulus < 2 ^ 31 := by
  have hlt : a % modulus < modulus := Nat.mod_lt _ (by decide)
  unfold modulus at hlt ⊢
  omega

lemma and_modulus_lt (a : Nat) : a &&& modulus < 2 ^ 31 := by
  have hle : a &&& modulus ≤ modulus := Nat.and_le_right
  unfold modulus at hle ⊢
  omega

lemma checkedAdd_of_lt {a b : Nat} (ha : a < 2 ^ 63) (hb : b < 2 ^ 63) :
    U64.checkedAdd a b = some (a + b) :=
  U64.checkedAdd_eq_some.mpr ⟨rfl, by unfold U64.size; omega⟩

lemma checkedMul_of_le {a b : Nat} (ha : a ≤ 2 ^ 32) (hb : b < 2 ^ 31) :
    U64.checkedMul a b = some (a * b) := by
  have hprod : a * b ≤ 2 ^ 32 * 2 ^ 31 := Nat.mul_le_mul ha hb.le
  exact U64.checkedMul_eq_some.mpr ⟨rfl, by unfold U64.size; omega⟩

lemma isSome_bind {α β : Type} {x : Option α} {f : α → Option β} {a : α} (hx : x = some a)
    (hf : (f a).isSome) : (x >>= f).isSome := by
  rw [hx]
  exact hf

lemma ownershipScore_isSome (hshard : shard < 2 ^ 32) (hworker : worker < 2 ^ 32) :
    (ownershipScore shard worker seed).isSome := by
  have hmultiplier : multiplier < 2 ^ 31 := by decide
  have hincrement : increment < 2 ^ 31 := by decide
  have hsalt : workerSalt < 2 ^ 31 := by decide
  have scaled : ∀ {mixed : Nat}, mixed < 2 ^ 31 → mixed * multiplier + increment < 2 ^ 63 := by
    intro mixed h
    have hprod := Nat.mul_le_mul h.le hmultiplier.le
    omega
  have rounds : ∀ {mixed : Nat}, mixed < 2 ^ 31 →
      U64.checkedMul mixed multiplier = some (mixed * multiplier) ∧
        U64.checkedAdd (mixed * multiplier) increment = some (mixed * multiplier + increment) := by
    intro mixed h
    have hbound := scaled h
    exact ⟨checkedMul_of_le (by omega) hmultiplier, checkedAdd_of_lt (by omega) (by omega)⟩
  have hsalted : worker * workerSalt ≤ 2 ^ 32 * 2 ^ 7 := Nat.mul_le_mul hworker.le (by decide)
  have hshardTerm := mod_modulus_lt ((shard + 1) * multiplier)
  have hwkTerm := mod_modulus_lt ((worker + 1) * increment)
  have hseed := mod_modulus_lt seed
  apply isSome_bind (checkedAdd_of_lt (by omega) (by omega))
  apply isSome_bind (checkedMul_of_le (by omega) hmultiplier)
  apply isSome_bind (checkedAdd_of_lt (by omega) (by omega))
  apply isSome_bind (checkedMul_of_le (by omega) hincrement)
  apply isSome_bind (checkedAdd_of_lt (by omega) (by omega))
  apply isSome_bind (checkedAdd_of_lt (by omega) (by omega))
  -- two rounds of the generator, each on a masked value
  apply isSome_bind (rounds (and_modulus_lt _)).1
  apply isSome_bind (rounds (and_modulus_lt _)).2
  apply isSome_bind (rounds (and_modulus_lt _)).1
  apply isSome_bind (rounds (and_modulus_lt _)).2
  apply isSome_bind (checkedMul_of_le hworker.le hsalt)
  apply isSome_bind (checkedAdd_of_lt (scaled (and_modulus_lt _)) (by omega))
  exact Option.isSome_some

end

section

variable {shard workerCount : Nat} (seed : Nat)

def scoreOf (shard assignmentSeed worker : Nat) : Nat :=
  (ownershipScore shard worker assignmentSeed).getD 0

lemma ownershipScore_eq (hshard : shard < 2 ^ 32) {worker : Nat} (hworker : worker < 2 ^ 32) :
    ownershipScore shard worker seed = some (scoreOf shard seed worker) := by
  have hsome : (ownershipScore shard worker seed).isSome := ownershipScore_isSome hshard hworker
  obtain ⟨score, hscore⟩ := isSome_iff_exists.mp hsome
  unfold scoreOf
  rw [hscore, getD_some]

lemma bestWorker_eq (hshard : shard < 2 ^ 32) (hcount : workerCount < 2 ^ 32) :
    ∃ bestScore, bestWorker shard seed workerCount =
        some (leader (scoreOf shard seed) workerCount, bestScore) ∧
      (0 < workerCount → bestScore = scoreOf shard seed
        (leader (scoreOf shard seed) workerCount)) := by
  induction workerCount with
  | zero => exact ⟨0, rfl, fun h => absurd h (Nat.lt_irrefl 0)⟩
  | succ worker ih =>
    obtain ⟨bestScore, hloop, hbest⟩ := ih (by omega)
    have hscore := ownershipScore_eq seed hshard (show worker < 2 ^ 32 by omega)
    simp only [bestWorker, hloop, hscore, leader, Option.bind_eq_bind, Option.bind_some]
    rcases Nat.eq_zero_or_pos worker with hzero | hpos
    · -- the first worker leads whatever its score
      subst hzero
      simp [leader]
    rw [hbest hpos]
    have hfirst : worker ≠ 0 := by omega
    by_cases hlead : scoreOf shard seed (leader (scoreOf shard seed) worker) <
      scoreOf shard seed worker
    · simp [hlead]
    · simp [hlead, hfirst]

lemma ownerForShard_eq (hshard : shard < 2 ^ 32) (hcount : workerCount < 2 ^ 32) :
    ownerForShard workerCount shard seed = some (leader (scoreOf shard seed) workerCount) := by
  obtain ⟨bestScore, hloop, _⟩ := bestWorker_eq seed hshard hcount
  unfold ownerForShard
  rw [hloop]
  rfl

end

section

variable {workerCount : Nat} (ordinal seed : Nat)

lemma ownedShards_eq (hcount : workerCount < 2 ^ 32) {shards : List Nat}
    (hshards : ∀ shard ∈ shards, shard < 2 ^ 32) :
    ownedShards ordinal workerCount seed shards = some (shards.filter fun shard =>
        ownerForShard workerCount shard seed = some ordinal) := by
  induction shards with
  | nil => rfl
  | cons shard rest ih =>
    have hown := ownerForShard_eq seed (hshards shard mem_cons_self) hcount
    have hrest := ih fun other hother => hshards other (mem_cons_of_mem _ hother)
    unfold ownedShards
    rw [hrest, hown]
    by_cases howned : leader (scoreOf shard seed) workerCount = ordinal
    · simp [hown, howned]
    · simp [hown, howned]

end

/-- Every shard has exactly one owner among the workers; each ordinal is given the increasing list
of its shards, and an error exactly when it has none; with more workers a shard stays or goes to a
new one; no value of the score arithmetic leaves the range of `u64`. -/
theorem shard_assignment_is_partition (workerCount shardCount : UInt32) (assignmentSeed : UInt64)
    (hworkers : 0 < workerCount.toNat) (hshards : 0 < shardCount.toNat) :
    (∀ shard < shardCount.toNat, ∃! ordinal, ordinal < workerCount.toNat ∧
      ownerForShard workerCount.toNat shard assignmentSeed.toNat = some ordinal) ∧
    (∀ ordinal < workerCount.toNat, ∃ remainders : List Nat, remainders.Pairwise (· < ·) ∧
      (∀ shard, shard ∈ remainders ↔ shard < shardCount.toNat ∧
        ownerForShard workerCount.toNat shard assignmentSeed.toNat = some ordinal) ∧
      ownershipEnvForOrdinal ordinal workerCount.toNat shardCount.toNat assignmentSeed.toNat =
        some (match remainders with
          | [] => .error (ownsNoShards ordinal)
          | primary :: rest => .ok ⟨primary, primary :: rest⟩)) ∧
    (∀ moreWorkers : UInt32, workerCount < moreWorkers → ∀ shard < shardCount.toNat,
      ∀ owner newOwner, ownerForShard workerCount.toNat shard assignmentSeed.toNat = some owner →
        ownerForShard moreWorkers.toNat shard assignmentSeed.toNat = some newOwner →
        newOwner = owner ∨ workerCount.toNat ≤ newOwner ∧ newOwner < moreWorkers.toNat) ∧
    (∀ shard < shardCount.toNat, ∀ worker < workerCount.toNat,
      (ownershipScore shard worker assignmentSeed.toNat).isSome) := by
  have hcount : workerCount.toNat < 2 ^ 32 := workerCount.toNat_lt
  have hrange : ∀ shard, shard < shardCount.toNat → shard < 2 ^ 32 := fun shard hshard =>
    hshard.trans shardCount.toNat_lt
  refine ⟨fun shard hshard => ?_, fun ordinal hordinal => ?_, ?_,
    fun shard hshard worker hworker => ?_⟩
  · have hown := ownerForShard_eq assignmentSeed.toNat (hrange shard hshard) hcount
    refine ⟨_, ⟨leader_lt hworkers, hown⟩, fun other hother => ?_⟩
    exact (Option.some.inj (hown.symm.trans hother.2)).symm
  · refine ⟨(List.range shardCount.toNat).filter fun shard =>
      ownerForShard workerCount.toNat shard assignmentSeed.toNat = some ordinal, ?_, ?_, ?_⟩
    · exact List.pairwise_lt_range.filter _
    · simp
    have hall : ∀ shard ∈ List.range shardCount.toNat, shard < 2 ^ 32 := fun shard hshard =>
      hrange shard (List.mem_range.mp hshard)
    have howned := ownedShards_eq ordinal assignmentSeed.toNat hcount hall
    unfold ownershipEnvForOrdinal
    rw [if_neg (by omega), if_neg (by omega), if_neg (by omega), howned]
    generalize List.filter _ _ = remainders
    cases remainders <;> rfl
  · intro moreWorkers hmore shard hshard owner newOwner hown hnew
    have hmoreCount : moreWorkers.toNat < 2 ^ 32 := moreWorkers.toNat_lt
    have hle := (UInt32.lt_iff_toNat_lt.mp hmore).le
    have hshard' := hrange shard hshard
    rw [ownerForShard_eq assignmentSeed.toNat hshard' hcount, Option.some.injEq] at hown
    rw [ownerForShard_eq assignmentSeed.toNat hshard' hmoreCount, Option.some.injEq] at hnew
    subst hown hnew
    have hlead := leader_eq_or_le (scoreOf shard assignmentSeed.toNat) hle
    rcases hlead with hsame | hmoved
    · exact .inl hsame
    · exact .inr ⟨hmoved, leader_lt (hworkers.trans_le hle)⟩
  · exact ownershipScore_isSome (hrange shard hshard) (hworker.trans hcount)

/-- The manifest has three workers and 256 shards; a fourth worker only takes shards for itself. -/
theorem shard_assignment_of_three_workers :
    (∀ shard < 256, ∃! ordinal, ordinal < 3 ∧ ownerForShard 3 shard 0 = some ordinal) ∧
    (∀ shard < 256, ∀ owner newOwner, ownerForShard 3 shard 0 = some owner →
      ownerForShard 4 shard 0 = some newOwner →
      newOwner = owner ∨ 3 ≤ newOwner ∧ newOwner < 4) := by
  have h := shard_assignment_is_partition 3 256 0 (by decide) (by decide)
  exact ⟨h.1, h.2.2.1 4 (by decide)⟩

end Chronos
