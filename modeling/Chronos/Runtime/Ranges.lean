import Chronos.Runtime.Generator
import Mathlib.Data.List.Basic

/-! The ranges of one allocation as a list of timestamps. They hold the timestamps at consecutive
indices of the generator, with one range for each millisecond the block touches, and they can be
encoded exactly as far as the block stays below the physical horizon of the layout. -/

namespace Chronos

namespace TimestampLayout

variable {L : TimestampLayout} {g i : Nat}

def indexOf (L : TimestampLayout) (tso : Nat) : Nat :=
  (L.decode tso).physicalMs * L.sequenceCapacity + (L.decode tso).sequence

lemma decode_tsoAt_physicalMs (hg : g < L.maxGenerators) :
    (L.decode (L.tsoAt g i)).physicalMs = i / L.sequenceCapacity := by
  have hmod := Nat.mod_lt i (sequenceCapacity_pos (L := L))
  rw [decode_physicalMs, Nat.mul_comm L.maxGenerators, ← Nat.div_div_eq_div_mul, tsoAt,
    Nat.mul_comm _ L.sequenceCapacity, Nat.mul_add_div sequenceCapacity_pos,
    Nat.div_eq_of_lt hmod, Nat.add_zero, Nat.mul_comm _ L.maxGenerators,
    Nat.mul_add_div maxGenerators_pos, Nat.div_eq_of_lt hg, Nat.add_zero]

lemma decode_tsoAt_sequence : (L.decode (L.tsoAt g i)).sequence = i % L.sequenceCapacity := by
  rw [decode_sequence, tsoAt, Nat.mul_add_mod_self_right, Nat.mod_mod]

lemma indexOf_tsoAt (hg : g < L.maxGenerators) : L.indexOf (L.tsoAt g i) = i := by
  rw [indexOf, decode_tsoAt_physicalMs hg, decode_tsoAt_sequence, Nat.div_add_mod']

def horizonIndex (L : TimestampLayout) : Nat := (L.maxPhysicalMs + 1) * L.sequenceCapacity

lemma div_le_maxPhysicalMs : i / L.sequenceCapacity ≤ L.maxPhysicalMs ↔ i < L.horizonIndex := by
  rw [horizonIndex, ← Nat.lt_succ_iff, Nat.div_lt_iff_lt_mul sequenceCapacity_pos]

end TimestampLayout

def TimestampRange.timestamps (r : TimestampRange) : List Nat :=
  List.range' r.startTso (r.endTso + 1 - r.startTso)

namespace Generator

open TimestampLayout List

variable {L : TimestampLayout} {id fuel n i : Nat} {rs : List TimestampRange}

def timestamps (rs : List TimestampRange) : List Nat := rs.flatMap (·.timestamps)

lemma timestamps_block {take : Nat} (hpos : 0 < take)
    (hroom : i % L.sequenceCapacity + take ≤ L.sequenceCapacity) :
    TimestampRange.timestamps ⟨L.tsoAt id i, L.tsoAt id i + (take - 1)⟩ =
      (range' i take).map (L.tsoAt id) := by
  have hlen : L.tsoAt id i + (take - 1) + 1 - L.tsoAt id i = take := by omega
  rw [TimestampRange.timestamps, hlen]
  refine ext_getElem (by simp) fun k hk hk' => ?_
  rw [length_range'] at hk
  rw [getElem_range', getElem_map, getElem_range', Nat.one_mul, tsoAt_add (by omega)]

lemma ranges_timestamps (h : ranges L id fuel n i = .ok rs) (hfuel : n ≤ fuel) :
    timestamps rs = (range' i n).map (L.tsoAt id) := by
  induction fuel generalizing n i rs with
  | zero =>
    obtain rfl : n = 0 := by omega
    obtain rfl := ranges_zero h
    rfl
  | succ fuel ih =>
    rcases Nat.eq_zero_or_pos n with rfl | hn
    · obtain rfl := ranges_zero h
      rfl
    obtain ⟨take, rest, hcut⟩ := ranges_cut hn h
    obtain ⟨hle, hroom⟩ := hcut.take_le
    have hpos := hcut.pos
    have hrest := ih hcut.tail (by omega)
    have hsplit : range' i n = range' i take ++ range' (i + take) (n - take) := by
      rw [range'_append_1, Nat.add_sub_cancel' hle]
    unfold timestamps at hrest ⊢
    rw [hcut.head, flatMap_cons, hrest, timestamps_block hpos hroom, hsplit, map_append]

def touchedMs (L : TimestampLayout) (i n : Nat) : List Nat :=
  List.range' (i / L.sequenceCapacity)
    ((i + n - 1) / L.sequenceCapacity + 1 - i / L.sequenceCapacity)

lemma ranges_physicalMs (h : ranges L id fuel n i = .ok rs) (hfuel : n ≤ fuel) (hn : 0 < n) :
    rs.map (fun r => (L.decode r.startTso).physicalMs) = touchedMs L i n ∧
      rs.map (fun r => (L.decode r.endTso).physicalMs) = touchedMs L i n := by
  induction fuel generalizing n i rs with
  | zero => omega
  | succ fuel ih =>
    obtain ⟨take, rest, hcut⟩ := ranges_cut hn h
    obtain ⟨hle, hroom⟩ := hcut.take_le
    have hpos := hcut.pos
    have hcap := sequenceCapacity_pos (L := L)
    have hend : L.tsoAt id i + (take - 1) = L.tsoAt id (i + (take - 1)) :=
      (tsoAt_add (by omega)).symm
    have hsame : (i + (take - 1)) / L.sequenceCapacity = i / L.sequenceCapacity := by
      have hi := Nat.div_add_mod' i L.sequenceCapacity
      refine Nat.div_eq_of_lt_le ?_ ?_
      · omega
      · rw [Nat.succ_mul]
        omega
    obtain rfl := hcut.head
    simp only [List.map_cons, hend, decode_tsoAt_physicalMs hcut.generator, hsame]
    by_cases hall : take = n
    · have htail := hcut.tail
      rw [hall, Nat.sub_self] at htail
      obtain rfl := ranges_zero htail
      have hlast : i + n - 1 = i + (take - 1) := by omega
      simp [touchedMs, hlast, hsame]
    · -- the round filled its millisecond, so the rest starts at the next one
      have hfull : i % L.sequenceCapacity + take = L.sequenceCapacity := by
        have htake := hcut.take_eq
        omega
      have hnext : (i + take) / L.sequenceCapacity = i / L.sequenceCapacity + 1 := by
        have hi := Nat.div_add_mod' i L.sequenceCapacity
        refine Nat.div_eq_of_lt_le ?_ ?_
        · rw [Nat.succ_mul]
          omega
        · rw [Nat.succ_mul, Nat.succ_mul]
          omega
      have hidx : i + take + (n - take) - 1 = i + n - 1 := by omega
      have hlater : (i + take) / L.sequenceCapacity ≤ (i + n - 1) / L.sequenceCapacity :=
        Nat.div_le_div_right (by omega)
      obtain ⟨hstarts, hends⟩ := ih hcut.tail (by omega) (by omega)
      have hcons : touchedMs L i n =
          i / L.sequenceCapacity :: touchedMs L (i + take) (n - take) := by
        rw [touchedMs, touchedMs, hidx, hnext, ← List.range'_succ]
        congr 1
        omega
      exact ⟨by rw [hcons, hstarts], by rw [hcons, hends]⟩

lemma ranges_horizon (h : ranges L id fuel n i = .ok rs) (hfuel : n ≤ fuel) (hn : 0 < n) :
    L.Valid ∧ id < L.maxGenerators ∧ i + n ≤ L.horizonIndex := by
  induction fuel generalizing n i rs with
  | zero => omega
  | succ fuel ih =>
    obtain ⟨take, rest, hcut⟩ := ranges_cut hn h
    obtain ⟨hle, hroom⟩ := hcut.take_le
    refine ⟨hcut.valid, hcut.generator, ?_⟩
    by_cases hall : take = n
    · have hi := Nat.div_add_mod' i L.sequenceCapacity
      have hmul := Nat.mul_le_mul_right L.sequenceCapacity (Nat.add_le_add_right hcut.horizon 1)
      rw [Nat.add_mul (i / L.sequenceCapacity), Nat.one_mul] at hmul
      rw [horizonIndex]
      omega
    · have hrest := (ih hcut.tail (by have := hcut.pos; omega) (by omega)).2.2
      omega

lemma ranges_ok (hvalid : L.Valid) (hid : id < L.maxGenerators) (hsize : i + n < U64.size)
    (hhorizon : i + n ≤ L.horizonIndex) : ∃ rs, ranges L id fuel n i = .ok rs := by
  induction fuel generalizing n i with
  | zero => cases n <;> exact ⟨[], rfl⟩
  | succ fuel ih =>
    cases n with
    | zero => exact ⟨[], rfl⟩
    | succ m =>
      have hmod := Nat.mod_lt i (sequenceCapacity_pos (L := L))
      have hms : i / L.sequenceCapacity ≤ L.maxPhysicalMs := div_le_maxPhysicalMs.mpr (by omega)
      simp only [ranges]
      generalize htake : min (m + 1) (L.sequenceCapacity - i % L.sequenceCapacity) = take
      have hstart := encode_index_eq_ok.mpr ⟨hvalid, hms, hid, rfl⟩
      have hend : L.encode (i / L.sequenceCapacity) id (i % L.sequenceCapacity + take - 1) =
          .ok _ := encode_eq_ok.mpr ⟨hvalid, hms, hid, by omega, rfl⟩
      have hnext : U64.checkedAdd i take = some (i + take) :=
        U64.checkedAdd_eq_some.mpr ⟨rfl, by omega⟩
      obtain ⟨rest, hrest⟩ := ih (n := m + 1 - take) (i := i + take) (by omega) (by omega)
      rw [hstart, hend, hnext]
      simp only [hrest]
      exact ⟨_, rfl⟩

end Generator

end Chronos
