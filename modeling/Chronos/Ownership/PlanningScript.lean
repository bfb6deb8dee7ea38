import Chronos.Ownership.Assignment
import Chronos.Words.Signed

/-! The shell library that plans the shard owners, against the worker that computes its own shards.
Shell arithmetic is signed and 64 bits wide: it wraps around, its remainder truncates, and its right
shift keeps the sign. -/

namespace Chronos

open Selection OwnershipScore List Option

namespace PlanningScript

def counter (n : Int64) : List Int64 := (List.range n.toNatClampNeg).map Int64.ofNat

def score (shard worker assignmentSeed : Int64) : Int64 :=
  let mixed := (((shard + 1) * 1103515245) % 2147483647 + ((worker + 1) * 12345) % 2147483647 +
    assignmentSeed % 2147483647) % 2147483647
  let mixed := (mixed ^^^ (mixed >>> 16)) &&& 2147483647
  let mixed := (mixed * 1103515245 + 12345) % 2147483647
  let mixed := (mixed ^^^ (mixed >>> 11)) &&& 2147483647
  (mixed * 1103515245 + 12345 + worker * 97) % 2147483647

def compareWorker (shard assignmentSeed : Int64) (best : Int64 × Int64) (worker : Int64) :
    Int64 × Int64 :=
  let score := score shard worker assignmentSeed
  if score > best.2 then (worker, score) else best

def ownershipOwnerForShard (workerCount shard assignmentSeed : Int64) : Int64 :=
  ((counter workerCount).foldl (compareWorker shard assignmentSeed) (0, -1)).1

def joinShard (workerCount targetWorker assignmentSeed : Int64) (joined : String) (shard : Int64) :
    String :=
  if ownershipOwnerForShard workerCount shard assignmentSeed = targetWorker then
    (if joined ≠ "" then joined ++ "," else joined) ++ toString shard
  else joined

def ownershipRemaindersForWorker (workerCount targetWorker shardCount assignmentSeed : Int64) :
    String :=
  (counter shardCount).foldl (joinShard workerCount targetWorker assignmentSeed) ""

end PlanningScript

def OwnershipEnv.printedRemainders (env : OwnershipEnv) : String :=
  ",".intercalate (env.remainders.map toString)

section

def maskedMix (mixed shift : Nat) : Nat := (mixed ^^^ (mixed >>> shift)) &&& modulus

/-- What both programs compute as long as neither leaves the range of its integers. -/
def plainScore (shard worker assignmentSeed : Nat) : Nat :=
  let mixed := ((shard + 1) * multiplier % modulus + (worker + 1) * increment % modulus +
    assignmentSeed % modulus) % modulus
  let mixed := (maskedMix mixed 16 * multiplier + increment) % modulus
  (maskedMix mixed 11 * multiplier + increment + worker * workerSalt) % modulus

variable {shard worker seed mixed shift : Nat}

lemma maskedMix_lt : maskedMix mixed shift < 2 ^ 31 := and_modulus_lt _

lemma maskedMix_mul_lt : maskedMix mixed shift * multiplier + increment < 2 ^ 62 := by
  have hprod : maskedMix mixed shift * multiplier ≤ (2 ^ 31 - 1) * multiplier :=
    Nat.mul_le_mul_right multiplier (Nat.le_pred_of_lt maskedMix_lt)
  unfold multiplier increment at *
  omega

lemma scoreOf_eq_plainScore (hshard : shard < 2 ^ 32) (hworker : worker < 2 ^ 32) :
    scoreOf shard seed worker = plainScore shard worker seed := by
  have hscore := ownershipScore_eq seed hshard hworker
  simp only [ownershipScore, Option.bind_eq_bind, Option.bind_eq_some_iff, U64.checkedAdd_eq_some,
    U64.checkedMul_eq_some, and_assoc, exists_eq_left'] at hscore
  -- no step overflows, and the value that is left is the plain one
  obtain ⟨-, -, -, -, -, -, -, -, -, -, -, -, hval⟩ := hscore
  exact (Option.some.inj hval).symm

lemma ofNat_mod_modulus {a : Nat} (h : a < 2 ^ 63) :
    Int64.ofNat a % 2147483647 = Int64.ofNat (a % modulus) :=
  (Int64.ofNat_mod h (by decide)).symm

lemma ofNat_maskedMix (hmixed : mixed < 2 ^ 63) (hshift : shift < 64) :
    (Int64.ofNat mixed ^^^ (Int64.ofNat mixed >>> Int64.ofNat shift)) &&& 2147483647 =
      Int64.ofNat (maskedMix mixed shift) := by
  unfold maskedMix
  rw [Int64.ofNat_and, Int64.ofNat_xor, Int64.ofNat_shiftRight hmixed hshift]
  rfl

lemma ofNat_scaled {a : Nat} :
    Int64.ofNat a * 1103515245 + 12345 = Int64.ofNat (a * multiplier + increment) := by
  rw [Int64.ofNat_add, Int64.ofNat_mul]
  rfl

lemma score_ofNat (hshard : shard < 2 ^ 32) (hworker : worker < 2 ^ 32) (hseed : seed < 2 ^ 63) :
    PlanningScript.score (Int64.ofNat shard) (Int64.ofNat worker) (Int64.ofNat seed) =
      Int64.ofNat (plainScore shard worker seed) := by
  have hshardTerm : (Int64.ofNat shard + 1) * 1103515245 =
      Int64.ofNat ((shard + 1) * multiplier) := by
    rw [Int64.ofNat_mul, Int64.ofNat_add]
    rfl
  have hworkerTerm : (Int64.ofNat worker + 1) * 12345 = Int64.ofNat ((worker + 1) * increment) := by
    rw [Int64.ofNat_mul, Int64.ofNat_add]
    rfl
  have hsalt : Int64.ofNat worker * 97 = Int64.ofNat (worker * workerSalt) := by
    rw [Int64.ofNat_mul]
    rfl
  have hshardLt : (shard + 1) * multiplier < 2 ^ 63 := by
    unfold multiplier
    omega
  have hworkerLt : (worker + 1) * increment < 2 ^ 63 := by
    unfold increment
    omega
  have hsaltLt : worker * workerSalt < 2 ^ 62 := by
    unfold workerSalt
    omega
  have hsumLt : (shard + 1) * multiplier % modulus + (worker + 1) * increment % modulus +
      seed % modulus < 2 ^ 63 := by
    have hshardMod := mod_modulus_lt ((shard + 1) * multiplier)
    have hwkMod := mod_modulus_lt ((worker + 1) * increment)
    have hseedMod := mod_modulus_lt seed
    omega
  have hfirst : ∀ {a : Nat}, (Int64.ofNat (a % modulus) ^^^ (Int64.ofNat (a % modulus) >>> 16)) &&&
      2147483647 = Int64.ofNat (maskedMix (a % modulus) 16) := by
    intro a
    exact ofNat_maskedMix (by have := mod_modulus_lt a; omega) (by decide)
  have hsecond : ∀ {a : Nat}, (Int64.ofNat (a % modulus) ^^^ (Int64.ofNat (a % modulus) >>> 11)) &&&
      2147483647 = Int64.ofNat (maskedMix (a % modulus) 11) := by
    intro a
    exact ofNat_maskedMix (by have := mod_modulus_lt a; omega) (by decide)
  have hround : ∀ {a k : Nat}, maskedMix a k * multiplier + increment < 2 ^ 63 := by
    intro a k
    have hlt : maskedMix a k * multiplier + increment < 2 ^ 62 := maskedMix_mul_lt
    omega
  have hlast : ∀ {a k : Nat},
      maskedMix a k * multiplier + increment + worker * workerSalt < 2 ^ 63 := by
    intro a k
    have hlt : maskedMix a k * multiplier + increment < 2 ^ 62 := maskedMix_mul_lt
    omega
  unfold PlanningScript.score plainScore
  dsimp only
  rw [hshardTerm, hworkerTerm, hsalt, ofNat_mod_modulus hshardLt, ofNat_mod_modulus hworkerLt,
    ofNat_mod_modulus hseed, ← Int64.ofNat_add, ← Int64.ofNat_add, ofNat_mod_modulus hsumLt, hfirst,
    ofNat_scaled, ofNat_mod_modulus hround, hsecond, ofNat_scaled, ← Int64.ofNat_add,
    ofNat_mod_modulus hlast]

lemma plainScore_lt (shard worker seed : Nat) : plainScore shard worker seed < 2 ^ 31 :=
    mod_modulus_lt _

end

section

variable {shard workerCount seed : Nat}

lemma counter_ofNat {n : Nat} (hn : n < 2 ^ 63) :
    PlanningScript.counter (Int64.ofNat n) = (range n).map Int64.ofNat := by
  unfold PlanningScript.counter
  rw [Int64.toNatClampNeg_ofNat_of_lt hn]

lemma foldl_compareWorker (hshard : shard < 2 ^ 32) (hseed : seed < 2 ^ 63)
    (hcount : workerCount < 2 ^ 32) :
    ((range workerCount).map Int64.ofNat).foldl
        (PlanningScript.compareWorker (Int64.ofNat shard) (Int64.ofNat seed)) (0, -1) =
      (Int64.ofNat (leader (scoreOf shard seed) workerCount),
        if workerCount = 0 then -1 else Int64.ofNat
          (scoreOf shard seed (leader (scoreOf shard seed) workerCount))) := by
  induction workerCount with
  | zero => rfl
  | succ worker ih =>
    have hworker : worker < 2 ^ 32 := by omega
    have hscore := score_ofNat hshard hworker hseed
    rw [← scoreOf_eq_plainScore hshard hworker] at hscore
    have hlt : ∀ other < 2 ^ 32, scoreOf shard seed other < 2 ^ 63 := by
      intro other hother
      have hplain := plainScore_lt shard other seed
      rw [scoreOf_eq_plainScore hshard hother]
      omega
    rw [range_succ, map_append, foldl_append, ih hworker, map_singleton,
      foldl_cons, foldl_nil, PlanningScript.compareWorker, hscore, leader,
      if_neg (Nat.succ_ne_zero worker)]
    rcases Nat.eq_zero_or_pos worker with hzero | hpos
    · subst hzero
      have htakes : (-1 : Int64) < Int64.ofNat (scoreOf shard seed 0) := by
        rw [Int64.lt_iff_toInt_lt, Int64.toInt_ofNat_of_lt (hlt 0 hworker)]
        show (-1 : Int) < _
        omega
      simp [leader, htakes]
    · have hleader : leader (scoreOf shard seed) worker < 2 ^ 32 := (leader_lt hpos).trans hworker
      have hcompare := Int64.ofNat_lt_iff_lt (hlt _ hleader) (hlt _ hworker)
      simp only [if_neg (Nat.pos_iff_ne_zero.mp hpos), gt_iff_lt, hcompare]
      split_ifs <;> rfl

lemma ownershipOwnerForShard_ofNat (hshard : shard < 2 ^ 32) (hseed : seed < 2 ^ 63)
    (hcount : workerCount < 2 ^ 32) :
    PlanningScript.ownershipOwnerForShard (Int64.ofNat workerCount) (Int64.ofNat shard)
      (Int64.ofNat seed) =
      Int64.ofNat (leader (scoreOf shard seed) workerCount) := by
  unfold PlanningScript.ownershipOwnerForShard
  rw [counter_ofNat (by omega), foldl_compareWorker hshard hseed hcount]

end

section

variable {workerCount seed ordinal : Nat}

lemma toString_ofNat {n : Nat} (hn : n < 2 ^ 63) : toString (Int64.ofNat n) = toString n := by
  show toString (Int64.ofNat n).toInt = toString n
  rw [Int64.toInt_ofNat_of_lt hn]
  rfl

lemma toString_ne_empty (n : Nat) : toString n ≠ "" := by
  intro h
  have hdigits : Nat.toDigits 10 n = [] := by
    simpa only [Nat.toString_eq_repr, Nat.toList_repr, String.toList_empty] using
      congrArg String.toList h
  exact Nat.toDigits_ne_nil hdigits

lemma intercalate_ne_empty {items : List Nat} (h : items ≠ []) :
    ",".intercalate (items.map toString) ≠ "" := by
  obtain ⟨first, rest, rfl⟩ := exists_cons_of_ne_nil h
  intro hempty
  rw [map_cons] at hempty
  cases rest with
  | nil => exact toString_ne_empty first (String.intercalate_singleton.symm.trans hempty)
  | cons second rest =>
    rw [map_cons, String.intercalate_cons_cons, String.append_assoc,
      String.append_eq_empty_iff] at hempty
    exact toString_ne_empty first hempty.1

lemma intercalate_concat (items : List Nat) (n : Nat) :
    ",".intercalate ((items ++ [n]).map toString) =
      (if ",".intercalate (items.map toString) ≠ "" then ",".intercalate (items.map toString) ++ ","
        else ",".intercalate (items.map toString)) ++ toString n := by
  by_cases h : items = []
  · subst h
    rfl
  rw [if_pos (intercalate_ne_empty h), map_append, map_singleton,
    String.intercalate_append_of_ne_nil (mt map_eq_nil_iff.mp h) (cons_ne_nil _ _),
    String.intercalate_singleton]

lemma foldl_joinShard (hseed : seed < 2 ^ 63) (hcount : workerCount < 2 ^ 32)
    (hordinal : ordinal < 2 ^ 32) {shardCount : Nat} (hshards : shardCount ≤ 2 ^ 32) :
    ((range shardCount).map Int64.ofNat).foldl (PlanningScript.joinShard
        (Int64.ofNat workerCount) (Int64.ofNat ordinal) (Int64.ofNat seed)) "" =
      ",".intercalate (((range shardCount).filter fun shard =>
        ownerForShard workerCount shard seed = some ordinal).map toString) := by
  induction shardCount with
  | zero => rfl
  | succ shard ih =>
    have hshard : shard < 2 ^ 32 := by omega
    have hlead : leader (scoreOf shard seed) workerCount < 2 ^ 63 := by
      rcases Nat.eq_zero_or_pos workerCount with hzero | hpos
      · subst hzero
        exact Nat.two_pow_pos 63
      have hleader : leader (scoreOf shard seed) workerCount < workerCount := leader_lt hpos
      omega
    have hown : Int64.ofNat (leader (scoreOf shard seed) workerCount) =
        Int64.ofNat ordinal ↔ ownerForShard workerCount shard seed = some ordinal := by
      rw [ownerForShard_eq seed hshard hcount, some.injEq, ← Int64.toInt_inj,
        Int64.toInt_ofNat_of_lt hlead, Int64.toInt_ofNat_of_lt (by omega), Int.ofNat_inj]
    rw [range_succ, map_append, foldl_append, ih (by omega), map_singleton,
      foldl_cons, foldl_nil, PlanningScript.joinShard,
      ownershipOwnerForShard_ofNat hshard hseed hcount, filter_append, toString_ofNat (by omega)]
    by_cases howned : ownerForShard workerCount shard seed = some ordinal
    · rw [if_pos (hown.mpr howned), filter_singleton, decide_eq_true howned, cond_true,
        intercalate_concat]
    · rw [if_neg (mt hown.mp howned), filter_singleton, decide_eq_false howned, cond_false,
        append_nil]

lemma ownershipRemaindersForWorker_ofNat (hseed : seed < 2 ^ 63)
    (hcount : workerCount < 2 ^ 32) (hordinal : ordinal < 2 ^ 32) {shardCount : Nat}
    (hshards : shardCount < 2 ^ 32) :
    PlanningScript.ownershipRemaindersForWorker (Int64.ofNat workerCount) (Int64.ofNat ordinal)
        (Int64.ofNat shardCount) (Int64.ofNat seed) =
      ",".intercalate (((range shardCount).filter fun shard =>
        ownerForShard workerCount shard seed = some ordinal).map toString) := by
  unfold PlanningScript.ownershipRemaindersForWorker
  rw [counter_ofNat (by omega)]
  exact foldl_joinShard hseed hcount hordinal hshards.le

end

/-- For every shard the script names the worker that the workers compute, and for every worker that
owns a shard the script prints the list that the worker computes and exports at startup. -/
theorem planning_script_agrees (workerCount : UInt32) (assignmentSeed : UInt64)
    (hworkers : 1 ≤ workerCount.toNat) (hseed : assignmentSeed.toNat < 2 ^ 63) :
    (∀ shard < 2 ^ 32, ∃ owner < workerCount.toNat,
      ownerForShard workerCount.toNat shard assignmentSeed.toNat = some owner ∧
      PlanningScript.ownershipOwnerForShard (Int64.ofNat workerCount.toNat) (Int64.ofNat shard)
        (Int64.ofNat assignmentSeed.toNat) = Int64.ofNat owner) ∧
    (∀ (shardCount : UInt32) (ordinal : Nat), ordinal < workerCount.toNat →
      (∃ shard < shardCount.toNat,
        ownerForShard workerCount.toNat shard assignmentSeed.toNat = some ordinal) →
      ∃ env, ownershipEnvForOrdinal ordinal workerCount.toNat shardCount.toNat
          assignmentSeed.toNat = some (.ok env) ∧
        PlanningScript.ownershipRemaindersForWorker (Int64.ofNat workerCount.toNat)
          (Int64.ofNat ordinal) (Int64.ofNat shardCount.toNat) (Int64.ofNat assignmentSeed.toNat) =
            env.printedRemainders) := by
  have hcount : workerCount.toNat < 2 ^ 32 := workerCount.toNat_lt
  refine ⟨fun shard hshard => ?_, fun shardCount ordinal hordinal howns => ?_⟩
  · exact ⟨_, leader_lt hworkers, ownerForShard_eq assignmentSeed.toNat hshard hcount,
      ownershipOwnerForShard_ofNat hshard hseed hcount⟩
  have hshards : shardCount.toNat < 2 ^ 32 := shardCount.toNat_lt
  obtain ⟨shard, hshard, hown⟩ := howns
  have hall : ∀ shard ∈ List.range shardCount.toNat, shard < 2 ^ 32 := fun shard hmem =>
    (List.mem_range.mp hmem).trans hshards
  have howned := ownedShards_eq ordinal assignmentSeed.toNat hcount hall
  have hprinted := ownershipRemaindersForWorker_ofNat hseed hcount (hordinal.trans hcount) hshards
  have hmem : shard ∈ (List.range shardCount.toNat).filter fun shard =>
      ownerForShard workerCount.toNat shard assignmentSeed.toNat = some ordinal := by
    simpa using ⟨hshard, hown⟩
  unfold ownershipEnvForOrdinal
  rw [if_neg (by omega), if_neg (by omega), if_neg (by omega), howned, hprinted]
  generalize List.filter _ _ = remainders at hmem
  cases remainders with
  | nil => exact absurd hmem List.not_mem_nil
  | cons primary rest => exact ⟨⟨primary, primary :: rest⟩, rfl, rfl⟩

/-- Three workers and 256 shards, as in the manifest. -/
theorem planning_script_of_three_workers :
    (∀ shard < 2 ^ 32, ∃ owner < 3, ownerForShard 3 shard 7 = some owner ∧
      PlanningScript.ownershipOwnerForShard 3 (Int64.ofNat shard) 7 = Int64.ofNat owner) ∧
    ∃ env, ownershipEnvForOrdinal 1 3 256 7 = some (.ok env) ∧
      PlanningScript.ownershipRemaindersForWorker 3 1 256 7 = env.printedRemainders := by
  have h := planning_script_agrees 3 7 (by decide) (by decide)
  have howns : ∃ shard < 256, ownerForShard 3 shard 7 = some 1 := by
    refine ⟨0, by decide, ?_⟩
    decide +kernel
  exact ⟨h.1, h.2 256 1 (by decide) howns⟩

end Chronos
