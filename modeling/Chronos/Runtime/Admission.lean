import Chronos.Codec
import Chronos.Runtime.Ranges
import Mathlib.Order.Bounds.Basic

/-! Which blocks `allocate_after` reserves, said without the saturating and checked arithmetic of
the code: the first index it may hand out, and the limits that let a block of timestamps from
there on reach the compare-exchange. -/

namespace Chronos

open TimestampLayout Option

variable {L : TimestampLayout} {id f i n : Nat}

def TimestampLayout.succIndex (L : TimestampLayout) (id floor : Nat) : Nat :=
  let cap := L.sequenceCapacity
  let decoded := L.decode floor
  if id > decoded.generatorId then decoded.physicalMs * cap
  else if id = decoded.generatorId then decoded.physicalMs * cap + decoded.sequence + 1
  else (decoded.physicalMs + 1) * cap

lemma nextCursor_eq_succIndex {c : Cursor} (h : nextCursorAfterWithLayout L f id = .ok c) :
    c.physicalMs * L.sequenceCapacity + c.sequence = L.succIndex id f := by
  have hseq := decode_sequence_lt (L := L) (t := f)
  simp only [nextCursorAfterWithLayout] at h
  simp only [succIndex]
  split_ifs at h ⊢ with hgt heq hroom
  · cases h
    rfl
  · cases h
    rfl
  · -- the sequence is full: the next millisecond starts right behind it
    split at h
    · next p hp =>
      cases h
      obtain ⟨rfl, -⟩ := U64.checkedAdd_eq_some.mp hp
      have hfull : (L.decode f).sequence + 1 = L.sequenceCapacity := by omega
      simp only [Nat.add_zero]
      rw [Nat.add_mul, Nat.one_mul, Nat.add_assoc, hfull]
    · cases h
  · split at h
    · next p hp =>
      cases h
      obtain ⟨rfl, -⟩ := U64.checkedAdd_eq_some.mp hp
      rfl
    · cases h

namespace Generator

variable {args : AllocateArgs} {floorIdx old : Nat} {r : Reservation}

def floorSucc (L : TimestampLayout) (id : Nat) : Option Nat → Nat
  | none => 0
  | some floor => L.succIndex id floor

/-- Where `allocate_after` starts: behind the cursor, the clock and the floor. -/
def firstIndex (L : TimestampLayout) (id : Nat) (args : AllocateArgs) (old : Nat) : Nat :=
  max (max old (args.nowMs * L.sequenceCapacity)) (floorSucc L id args.floor)

structure Admitted (L : TimestampLayout) (id : Nat) (args : AllocateArgs) (old : Nat) : Prop where
  rewind : old / L.sequenceCapacity ≤ args.nowMs + args.maxClockRewindMs
  borrow : (firstIndex L id args old + args.count - 1) / L.sequenceCapacity ≤
    max (old / L.sequenceCapacity) (args.nowMs + args.maxFutureBorrowMs)
  fits : firstIndex L id args old + args.count < U64.size
  bound : ∀ u, args.issuedUpperBound = some u → L.Valid ∧ id < L.maxGenerators ∧
    firstIndex L id args old + args.count ≤ L.horizonIndex ∧
      L.tsoAt id (firstIndex L id args old + args.count - 1) ≤ u

lemma floorIndex_eq_ok {floor : Option Nat} (h : floorIndex L id floor = .ok floorIdx) :
    floorIdx = min (floorSucc L id floor) U64.max := by
  cases floor with
  | none =>
    cases h
    exact (Nat.zero_min _).symm
  | some f =>
    simp only [floorIndex] at h
    split at h
    · cases h
    · next c hc =>
      cases h
      have hsucc := nextCursor_eq_succIndex hc
      have hmax : U64.max + 1 = U64.size := rfl
      rw [floorSucc]
      cases hidx : c.index L with
      | some idx =>
        obtain ⟨rfl, hlt⟩ := Cursor.index_eq_some.mp hidx
        rw [getD_some]
        omega
      | none =>
        have hlarge : ¬ L.succIndex id f < U64.size := by
          intro hlt
          rw [Cursor.index_eq_some.mpr ⟨hsucc, hlt⟩] at hidx
          cases hidx
        rw [getD_none]
        omega

lemma floorIndex_ok (hvalid : L.Valid) {floor : Option Nat}
    (hfloor : ∀ f, floor = some f → f < U64.size) : ∃ n, floorIndex L id floor = .ok n := by
  cases floor with
  | none => exact ⟨0, rfl⟩
  | some f =>
    obtain ⟨c, hc⟩ : ∃ c, nextCursorAfterWithLayout L f id = .ok c :=
      L.exists_nextCursor hvalid (hfloor f rfl)
    simp only [floorIndex, hc]
    exact ⟨_, rfl⟩

lemma startIndex_eq : startIndex L args floorIdx old =
      max (max old (U64.saturatingMul args.nowMs L.sequenceCapacity)) floorIdx := by
  simp only [startIndex]
  split_ifs with hlt
  · have hcurrent : old / L.sequenceCapacity * L.sequenceCapacity ≤ old := Nat.div_mul_le_self _ _
    have hnow := (Nat.mul_le_mul_right _ hlt.le).trans hcurrent
    simp only [U64.saturatingMul]
    omega
  · rfl

lemma startIndex_eq_firstIndex (hfloor : floorIndex L id args.floor = .ok floorIdx)
    (hcount : 0 < args.count) (hfits : startIndex L args floorIdx old + args.count < U64.size ∨
      firstIndex L id args old + args.count < U64.size) :
    startIndex L args floorIdx old = firstIndex L id args old := by
  have hmax : U64.max + 1 = U64.size := rfl
  rw [startIndex_eq, floorIndex_eq_ok hfloor, U64.saturatingMul] at hfits ⊢
  unfold firstIndex at hfits ⊢
  omega

lemma checkUpperBound_eq_ok_iff {bound : Option Nat} :
    checkUpperBound L id i bound = .ok () ↔ ∀ u, bound = some u →
      L.Valid ∧ id < L.maxGenerators ∧ i < L.horizonIndex ∧ L.tsoAt id i ≤ u := by
  cases bound with
  | none => simp [checkUpperBound]
  | some u =>
    simp only [checkUpperBound, some.injEq, forall_eq']
    rw [← div_le_maxPhysicalMs]
    split
    · next e he =>
      refine ⟨fun h => (by cases h), fun h => ?_⟩
      obtain ⟨hvalid, hid, hms, -⟩ := h
      rw [encode_index_eq_ok.mpr ⟨hvalid, hms, hid, rfl⟩] at he
      cases he
    · next t ht =>
      obtain ⟨hvalid, hms, hid, rfl⟩ := encode_index_eq_ok.mp ht
      split_ifs with hlt
      · exact ⟨fun h => (by cases h), fun h => absurd h.2.2.2 (by omega)⟩
      · exact ⟨fun _ => ⟨hvalid, hid, hms, by omega⟩, fun _ => rfl⟩

lemma reserve_eq_ok_iff (hfloor : floorIndex L id args.floor = .ok floorIdx)
    (hcount : 0 < args.count) :
    reserve L id args floorIdx old = .ok r ↔ Admitted L id args old ∧
      r = ⟨firstIndex L id args old, firstIndex L id args old + args.count - 1,
        firstIndex L id args old + args.count⟩ := by
  have hrewind : (args.nowMs < old / L.sequenceCapacity ∧
      old / L.sequenceCapacity - args.nowMs > args.maxClockRewindMs) ↔
      ¬ old / L.sequenceCapacity ≤ args.nowMs + args.maxClockRewindMs := by omega
  unfold reserve
  simp only [hrewind]
  by_cases hback : old / L.sequenceCapacity ≤ args.nowMs + args.maxClockRewindMs
  swap
  · rw [if_pos hback]
    exact ⟨nofun, fun h => absurd h.1.rewind hback⟩
  rw [if_neg (not_not.mpr hback)]
  by_cases hfits : firstIndex L id args old + args.count < U64.size
  swap
  · -- the block runs past `u64::MAX`: the addition fails unless the borrow check did before
    have hover : U64.checkedAdd (startIndex L args floorIdx old) args.count = none := by
      rw [U64.checkedAdd, if_neg]
      intro hlt
      exact hfits (startIndex_eq_firstIndex hfloor hcount (.inl hlt) ▸ hlt)
    rw [hover]
    refine ⟨fun h => ?_, fun h => absurd h.1.fits hfits⟩
    split_ifs at h
    cases h
  rw [startIndex_eq_firstIndex hfloor hcount (.inr hfits)]
  generalize hfirst : firstIndex L id args old = first at *
  have hlast : (U64.checkedAdd first args.count).bind (U64.checkedSub · 1) =
      some (first + args.count - 1) := by
    rw [U64.checkedAdd, if_pos hfits, Option.bind_some, U64.checkedSub, if_pos (by omega)]
  have hle : first / L.sequenceCapacity ≤ (first + args.count - 1) / L.sequenceCapacity :=
    Nat.div_le_div_right (by omega)
  have hallowed : (first + args.count - 1) / L.sequenceCapacity ≤
      max (old / L.sequenceCapacity) (U64.saturatingAdd args.nowMs args.maxFutureBorrowMs) ↔
      (first + args.count - 1) / L.sequenceCapacity ≤
        max (old / L.sequenceCapacity) (args.nowMs + args.maxFutureBorrowMs) := by
    have hmax : U64.max + 1 = U64.size := rfl
    have hdiv := Nat.div_le_self (first + args.count - 1) L.sequenceCapacity
    rw [U64.saturatingAdd]
    omega
  by_cases hborrow : (first + args.count - 1) / L.sequenceCapacity ≤
      max (old / L.sequenceCapacity) (args.nowMs + args.maxFutureBorrowMs)
  swap
  · rw [hlast]
    simp only
    rw [if_pos (Nat.lt_of_not_le (hallowed.not.mpr hborrow))]
    refine ⟨fun h => ?_, fun h => absurd (hfirst ▸ h.1.borrow) hborrow⟩
    split_ifs at h
  rw [if_neg (by omega), hlast]
  simp only
  rw [if_neg (by omega)]
  cases hcheck : checkUpperBound L id (first + args.count - 1) args.issuedUpperBound with
  | error e =>
    refine ⟨nofun, fun h => ?_⟩
    rw [checkUpperBound_eq_ok_iff.mpr] at hcheck
    · cases hcheck
    intro u hu
    obtain ⟨hvalid, hid, hhorizon, hbound⟩ := h.1.bound u hu
    rw [hfirst] at hhorizon hbound
    exact ⟨hvalid, hid, by omega, hbound⟩
  | ok _ =>
    have hnew : U64.checkedAdd (first + args.count - 1) 1 = some (first + args.count) :=
      U64.checkedAdd_eq_some.mpr ⟨by omega, hfits⟩
    simp only [hnew, Except.ok.injEq]
    constructor
    · rintro rfl
      refine ⟨⟨hback, hfirst ▸ hborrow, hfirst ▸ hfits, fun u hu => ?_⟩, rfl⟩
      obtain ⟨hvalid, hid, hhorizon, hbound⟩ := checkUpperBound_eq_ok_iff.mp hcheck u hu
      rw [hfirst]
      exact ⟨hvalid, hid, by omega, hbound⟩
    · exact fun h => h.2.symm

end Generator

end Chronos
