import Chronos.Timestamp

/-! Cursors of a generator. The next cursor after a floor is exactly the first index of the
generator whose timestamp lies above the floor. -/

namespace Chronos

structure Cursor where
  physicalMs : Nat
  sequence : Nat
  deriving DecidableEq

def nextCursorAfterWithLayout (L : TimestampLayout) (tsoFloor targetGeneratorId : Nat) :
    Except TsoError Cursor :=
  let floor := L.decode tsoFloor
  let nextMs : Except TsoError Cursor :=
    match U64.checkedAdd floor.physicalMs 1 with
    | some physicalMs => .ok ⟨physicalMs, 0⟩
    | none => .error .tsoOverflow
  if targetGeneratorId > floor.generatorId then .ok ⟨floor.physicalMs, 0⟩
  else if targetGeneratorId = floor.generatorId then
    if floor.sequence + 1 < L.sequenceCapacity then .ok ⟨floor.physicalMs, floor.sequence + 1⟩
    else nextMs
  else nextMs

/-- A cursor as an index of the generator: `physical_ms * capacity + sequence`, checked. -/
def Cursor.index (L : TimestampLayout) (c : Cursor) : Option Nat :=
  (U64.checkedMul c.physicalMs L.sequenceCapacity).bind fun v => U64.checkedAdd v c.sequence

namespace TimestampLayout

variable {L : TimestampLayout} {g i j t f : Nat}

lemma decode_physicalMs :
    (L.decode t).physicalMs = t / (L.maxGenerators * L.sequenceCapacity) := by
  rw [decode, Nat.shiftRight_eq_div_pow, two_pow_logicalBits]

lemma decode_generatorId :
    (L.decode t).generatorId = t / L.sequenceCapacity % L.maxGenerators := by
  simp only [decode, maxGenerators_eq, sequenceCapacity_eq, Nat.shiftRight_eq_div_pow,
    Nat.and_two_pow_sub_one_eq_mod]

lemma decode_sequence : (L.decode t).sequence = t % L.sequenceCapacity := by
  simp only [decode, sequenceCapacity_eq, Nat.and_two_pow_sub_one_eq_mod]

lemma decode_generatorId_lt : (L.decode t).generatorId < L.maxGenerators := by
  rw [decode_generatorId]
  exact Nat.mod_lt _ maxGenerators_pos

lemma decode_sequence_lt : (L.decode t).sequence < L.sequenceCapacity := by
  rw [decode_sequence]
  exact Nat.mod_lt _ sequenceCapacity_pos

lemma pack_decode :
    ((L.decode t).physicalMs * L.maxGenerators + (L.decode t).generatorId) * L.sequenceCapacity
      + (L.decode t).sequence = t := by
  rw [decode_physicalMs, decode_generatorId, decode_sequence, Nat.mul_comm L.maxGenerators,
    ← Nat.div_div_eq_div_mul, Nat.div_add_mod' (t / L.sequenceCapacity) L.maxGenerators,
    Nat.div_add_mod']

lemma lex_lt {b x y u v : Nat} (hu : u < b) (hv : v < b) :
    x * b + u < y * b + v ↔ x < y ∨ x = y ∧ u < v := by
  rcases Nat.lt_trichotomy x y with h | rfl | h
  · have := Nat.mul_le_mul_right b (Nat.succ_le_of_lt h)
    rw [Nat.succ_mul] at this
    exact ⟨fun _ => .inl h, fun _ => by omega⟩
  · simp
  have := Nat.mul_le_mul_right b (Nat.succ_le_of_lt h)
  rw [Nat.succ_mul] at this
  exact ⟨fun _ => by omega, fun _ => by omega⟩

lemma pack_lt_tsoAt {p q s : Nat} (hg : g < L.maxGenerators) (hq : q < L.maxGenerators)
    (hs : s < L.sequenceCapacity) :
    (p * L.maxGenerators + q) * L.sequenceCapacity + s < L.tsoAt g i ↔
      p < i / L.sequenceCapacity ∨ p = i / L.sequenceCapacity ∧
        (q < g ∨ q = g ∧ s < i % L.sequenceCapacity) := by
  have hi := Nat.mod_lt i (sequenceCapacity_pos (L := L))
  rw [tsoAt, lex_lt hs hi, lex_lt hq hg]
  constructor
  · rintro ((h | h) | ⟨h, hlt⟩)
    · exact .inl h
    · exact .inr ⟨h.1, .inl h.2⟩
    by_cases hp : p = i / L.sequenceCapacity
    · subst hp
      exact .inr ⟨rfl, .inr ⟨by omega, hlt⟩⟩
    have := (lex_lt (x := p) (y := i / L.sequenceCapacity) hq hg).not.mp (by omega)
    have := (lex_lt (x := i / L.sequenceCapacity) (y := p) hg hq).not.mp (by omega)
    omega
  · rintro (h | ⟨rfl, h | ⟨rfl, h⟩⟩)
    · exact .inl (.inl h)
    · exact .inl (.inr ⟨rfl, h⟩)
    · exact .inr ⟨rfl, h⟩

lemma tsoAt_lt_tsoAt : L.tsoAt g i < L.tsoAt g j ↔ i < j := by
  have hi := Nat.mod_lt i (sequenceCapacity_pos (L := L))
  have hj := Nat.mod_lt j (sequenceCapacity_pos (L := L))
  have hms : ∀ {x y : Nat}, x * L.maxGenerators + g < y * L.maxGenerators + g ↔ x < y := by
    intro x y
    rw [Nat.add_lt_add_iff_right, Nat.mul_lt_mul_right maxGenerators_pos]
  have hij : i < j ↔ i / L.sequenceCapacity < j / L.sequenceCapacity ∨
      i / L.sequenceCapacity = j / L.sequenceCapacity ∧
        i % L.sequenceCapacity < j % L.sequenceCapacity := by
    rw [← lex_lt hi hj, Nat.div_add_mod', Nat.div_add_mod']
  rw [hij, tsoAt, tsoAt, lex_lt hi hj, hms, Nat.add_right_cancel_iff,
    Nat.mul_left_inj maxGenerators_pos.ne']

lemma tsoAt_le_tsoAt : L.tsoAt g i ≤ L.tsoAt g j ↔ i ≤ j := by
  rw [← not_lt, ← not_lt, tsoAt_lt_tsoAt]

lemma decode_tsoAt_generatorId (hg : g < L.maxGenerators) :
    (L.decode (L.tsoAt g i)).generatorId = g := by
  have hmod := Nat.mod_lt i (sequenceCapacity_pos (L := L))
  rw [decode_generatorId, tsoAt, Nat.mul_comm _ L.sequenceCapacity,
    Nat.mul_add_div sequenceCapacity_pos, Nat.div_eq_of_lt hmod, Nat.add_zero, Nat.mul_comm,
    Nat.mul_add_mod, Nat.mod_eq_of_lt hg]

lemma tsoAt_injective : Function.Injective (L.tsoAt g) := by
  intro i j h
  have h1 := tsoAt_le_tsoAt.mp h.le
  have h2 := tsoAt_le_tsoAt.mp h.ge
  omega

end TimestampLayout

open TimestampLayout

variable {L : TimestampLayout} {g i f n : Nat} {c : Cursor}

lemma Cursor.index_eq_some :
    c.index L = some n ↔ c.physicalMs * L.sequenceCapacity + c.sequence = n ∧ n < U64.size := by
  unfold Cursor.index
  constructor
  · intro h
    obtain ⟨v, hv, hn⟩ := Option.bind_eq_some_iff.mp h
    rw [U64.checkedMul_eq_some] at hv
    rw [U64.checkedAdd_eq_some] at hn
    omega
  · rintro ⟨h, hn⟩
    have hv : U64.checkedMul c.physicalMs L.sequenceCapacity =
        some (c.physicalMs * L.sequenceCapacity) :=
      U64.checkedMul_eq_some.mpr ⟨rfl, by omega⟩
    rw [hv, Option.bind_some, U64.checkedAdd_eq_some]
    exact ⟨h, hn⟩

/-- The cursor computed for a floor is the least index of the generator above the floor. -/
lemma nextCursor_le_iff (hg : g < L.maxGenerators)
    (hc : nextCursorAfterWithLayout L f g = .ok c) :
    c.physicalMs * L.sequenceCapacity + c.sequence ≤ i ↔ f < L.tsoAt g i := by
  have hcap := sequenceCapacity_pos (L := L)
  have hgen := decode_generatorId_lt (L := L) (t := f)
  have hseq := decode_sequence_lt (L := L) (t := f)
  have hmod := Nat.mod_lt i hcap
  have hnext : ∀ {p : Nat}, (p + 1) * L.sequenceCapacity ≤ i ↔ p < i / L.sequenceCapacity := by
    intro p
    rw [← Nat.le_div_iff_mul_le hcap, Nat.succ_le_iff]
  conv_rhs => rw [← pack_decode (t := f), pack_lt_tsoAt hg hgen hseq]
  simp only [nextCursorAfterWithLayout] at hc
  split_ifs at hc with hgt heq hroom
  · -- a larger generator id sorts after the floor within the floor's own millisecond
    cases hc
    simp only [Nat.add_zero]
    rw [← Nat.le_div_iff_mul_le hcap]
    omega
  · cases hc
    have hlex := lex_lt (x := (L.decode f).physicalMs) (y := i / L.sequenceCapacity) hseq hmod
    rw [Nat.div_add_mod'] at hlex
    simp only
    omega
  all_goals
    split at hc
    · next p hp =>
      cases hc
      obtain ⟨rfl, -⟩ := U64.checkedAdd_eq_some.mp hp
      simp only [Nat.add_zero]
      rw [hnext]
      omega
    · cases hc

lemma nextCursor_index_le_iff (hg : g < L.maxGenerators)
    (hc : nextCursorAfterWithLayout L f g = .ok c) (hn : c.index L = some n) :
    n ≤ i ↔ f < L.tsoAt g i := by
  obtain ⟨rfl, -⟩ := Cursor.index_eq_some.mp hn
  exact nextCursor_le_iff hg hc

lemma nextCursor_sequence_lt (hc : nextCursorAfterWithLayout L f g = .ok c) :
    c.sequence < L.sequenceCapacity := by
  have hcap := sequenceCapacity_pos (L := L)
  simp only [nextCursorAfterWithLayout] at hc
  split_ifs at hc with hgt heq hroom
  · exact Except.ok.inj hc ▸ hcap
  · exact Except.ok.inj hc ▸ hroom
  all_goals
    split at hc
    · exact Except.ok.inj hc ▸ hcap
    · cases hc

end Chronos
