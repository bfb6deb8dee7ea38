import Chronos.Cursor

/-! One generator's cursor arithmetic: the floor index, the reservation an allocation tries to
commit on the atomic cursor, and the ranges handed out for a committed reservation. -/

namespace Chronos.Generator

open TimestampLayout List Option

def maxGeneratorContentionRetries : Nat := 32

structure AllocateArgs where
  count : Nat
  floor : Option Nat
  nowMs : Nat
  maxFutureBorrowMs : Nat
  maxClockRewindMs : Nat
  issuedUpperBound : Option Nat
  deriving DecidableEq

structure Reservation where
  startIndex : Nat
  lastIndex : Nat
  newIndex : Nat
  deriving DecidableEq

/-- The index that `init_after_floor` moves the cursor to. -/
def initIndex (L : TimestampLayout) (id floor : Nat) : Except TsoError Nat :=
  match nextCursorAfterWithLayout L floor id with
  | .error e => .error e
  | .ok cursor =>
    match cursor.index L with
    | some index => .ok index
    | none => .error .tsoOverflow

def floorIndex (L : TimestampLayout) (id : Nat) : Option Nat → Except TsoError Nat
  | none => .ok 0
  | some value =>
    match nextCursorAfterWithLayout L value id with
    | .error e => .error e
    | .ok cursor => .ok ((cursor.index L).getD U64.max)

def currentLastIssuedTso (L : TimestampLayout) (id next : Nat) : Except TsoError (Option Nat) :=
  if next = 0 then .ok none
  else
    match L.encode ((next - 1) / L.sequenceCapacity) id ((next - 1) % L.sequenceCapacity) with
    | .ok tso => .ok (some tso)
    | .error e => .error e

def checkUpperBound (L : TimestampLayout) (id lastIndex : Nat) : Option Nat → Except TsoError Unit
  | none => .ok ()
  | some bound =>
    match L.encode (lastIndex / L.sequenceCapacity) id (lastIndex % L.sequenceCapacity) with
    | .error e => .error e
    | .ok endTso =>
      if endTso > bound then .error (.issuedUpperBoundExceeded endTso bound) else .ok ()

/-- The first index of one round of `allocate_after`; a clock behind the cursor counts as the
cursor's own millisecond. -/
def startIndex (L : TimestampLayout) (args : AllocateArgs) (floorIdx oldIndex : Nat) : Nat :=
  let currentMs := oldIndex / L.sequenceCapacity
  let effectiveNowMs := if args.nowMs < currentMs then currentMs else args.nowMs
  max (max oldIndex (U64.saturatingMul effectiveNowMs L.sequenceCapacity)) floorIdx

def reserve (L : TimestampLayout) (id : Nat) (args : AllocateArgs) (floorIdx oldIndex : Nat) :
    Except TsoError Reservation :=
  let cap := L.sequenceCapacity
  let currentMs := oldIndex / cap
  if args.nowMs < currentMs ∧ currentMs - args.nowMs > args.maxClockRewindMs then
    .error (.clockBackwards (currentMs - args.nowMs))
  else
    let allowedMs := max currentMs (U64.saturatingAdd args.nowMs args.maxFutureBorrowMs)
    let start := startIndex L args floorIdx oldIndex
    if start / cap > allowedMs then
      .error (.futureBorrowExceeded (start / cap) allowedMs)
    else
      match (U64.checkedAdd start args.count).bind (U64.checkedSub · 1) with
      | none => .error .tsoOverflow
      | some lastIndex =>
        if lastIndex / cap > allowedMs then
          .error (.futureBorrowExceeded (lastIndex / cap) allowedMs)
        else
          match checkUpperBound L id lastIndex args.issuedUpperBound with
          | .error e => .error e
          | .ok () =>
            match U64.checkedAdd lastIndex 1 with
            | none => .error .tsoOverflow
            | some newIndex => .ok ⟨start, lastIndex, newIndex⟩

/-- The loop that cuts the indices from `cursorIndex` on into one range per millisecond. -/
def ranges (L : TimestampLayout) (id : Nat) : Nat → Nat → Nat →
    Except TsoError (List TimestampRange)
  | _, 0, _ => .ok []
  | 0, _ + 1, _ => .ok []
  | fuel + 1, remaining@(_ + 1), cursorIndex =>
    let physicalMs := cursorIndex / L.sequenceCapacity
    let sequence := cursorIndex % L.sequenceCapacity
    let take := min remaining (L.sequenceCapacity - sequence)
    match L.encode physicalMs id sequence, L.encode physicalMs id (sequence + take - 1),
      U64.checkedAdd cursorIndex take with
    | .error e, _, _ => .error e
    | _, .error e, _ => .error e
    | _, _, none => .error .tsoOverflow
    | .ok startTso, .ok endTso, some nextIndex =>
      match ranges L id fuel (remaining - take) nextIndex with
      | .error e => .error e
      | .ok rest => .ok (⟨startTso, endTso⟩ :: rest)

def allocatedRanges (L : TimestampLayout) (id count startIndex : Nat) :
    Except TsoError (List TimestampRange) :=
  ranges L id count count startIndex

variable {L : TimestampLayout} {id floorIdx old i n f t : Nat} {args : AllocateArgs}
  {r : Reservation}

lemma initIndex_le_iff (hid : id < L.maxGenerators) (h : initIndex L id f = .ok n) :
    n ≤ i ↔ f < L.tsoAt id i := by
  unfold initIndex at h
  split at h
  · cases h
  · next cursor hc =>
    split at h
    · next idx hi => exact nextCursor_index_le_iff hid hc (Except.ok.inj h ▸ hi)
    · cases h

lemma lt_tsoAt_of_floorIndex_le (hid : id < L.maxGenerators)
    (h : floorIndex L id (some f) = .ok n) (hn : n ≤ i) (hi : i < U64.max) :
    f < L.tsoAt id i := by
  simp only [floorIndex] at h
  split at h
  · cases h
  · next cursor hc =>
    cases h
    cases hidx : cursor.index L with
    | none => rw [hidx, getD_none] at hn; omega
    | some idx =>
      rw [hidx, getD_some] at hn
      exact (nextCursor_index_le_iff hid hc hidx).mp hn

structure Reserved (L : TimestampLayout) (id : Nat) (args : AllocateArgs) (floorIdx old : Nat)
    (r : Reservation) : Prop where
  old_le : old ≤ r.startIndex
  floor_le : floorIdx ≤ r.startIndex
  new_eq : r.newIndex = r.startIndex + args.count
  last_eq : r.lastIndex + 1 = r.newIndex
  new_lt : r.newIndex < U64.size
  bounded : ∀ u, args.issuedUpperBound = some u →
    L.Valid ∧ id < L.maxGenerators ∧ L.tsoAt id r.lastIndex ≤ u

lemma checkUpperBound_eq_ok {u : Nat} (h : checkUpperBound L id i (some u) = .ok ()) :
    L.Valid ∧ id < L.maxGenerators ∧ L.tsoAt id i ≤ u := by
  simp only [checkUpperBound] at h
  split at h
  · cases h
  · next endTso hend =>
    obtain ⟨hvalid, -, hid, rfl⟩ := encode_index_eq_ok.mp hend
    split_ifs at h with hle
    exact ⟨hvalid, hid, by omega⟩

lemma reserve_eq_ok (h : reserve L id args floorIdx old = .ok r) :
    Reserved L id args floorIdx old r := by
  unfold reserve at h
  simp only at h
  split_ifs at h
  split at h
  · cases h
  · next last hlast =>
    split_ifs at h
    split at h
    · cases h
    · next hbound =>
      split at h
      · cases h
      · next new hnew =>
        cases h
        obtain ⟨sum, hsum, hsub⟩ := bind_eq_some_iff.mp hlast
        rw [U64.checkedAdd_eq_some] at hsum hnew
        rw [U64.checkedSub_eq_some] at hsub
        refine ⟨by simp [startIndex], by simp [startIndex], by simp only; omega,
          by simp only; omega, hnew.2, ?_⟩
        intro u hu
        exact checkUpperBound_eq_ok (hu ▸ hbound)

lemma Reserved.floor_lt (h : Reserved L id args floorIdx old r)
    (hfloor : floorIndex L id args.floor = .ok floorIdx) (hid : id < L.maxGenerators)
    (hcount : 0 < args.count) (hf : args.floor = some f) : f < L.tsoAt id r.startIndex := by
  rw [hf] at hfloor
  have hmax : r.startIndex < U64.max := by
    have := h.new_eq
    have := h.new_lt
    rw [U64.max]
    omega
  exact lt_tsoAt_of_floorIndex_le hid hfloor h.floor_le hmax

lemma tsoAt_add {k : Nat} (h : i % L.sequenceCapacity + k < L.sequenceCapacity) :
    L.tsoAt id (i + k) = L.tsoAt id i + k := by
  have hi := Nat.div_add_mod' i L.sequenceCapacity
  have hsum : i + k = i % L.sequenceCapacity + k
      + i / L.sequenceCapacity * L.sequenceCapacity := by omega
  have hdiv : (i + k) / L.sequenceCapacity = i / L.sequenceCapacity := by
    rw [hsum, Nat.add_mul_div_right _ _ sequenceCapacity_pos, Nat.div_eq_of_lt h, Nat.zero_add]
  have hmod : (i + k) % L.sequenceCapacity = i % L.sequenceCapacity + k := by
    rw [hsum, Nat.add_mul_mod_self_right, Nat.mod_eq_of_lt h]
  simp only [tsoAt, hdiv, hmod]
  omega

def Covers (rs : List TimestampRange) (t : Nat) : Prop :=
  ∃ r ∈ rs, r.startTso ≤ t ∧ t ≤ r.endTso

instance (rs : List TimestampRange) (t : Nat) : Decidable (Covers rs t) :=
  inferInstanceAs (Decidable (∃ r ∈ rs, r.startTso ≤ t ∧ t ≤ r.endTso))

structure Cut (L : TimestampLayout) (id fuel n i : Nat) (rs : List TimestampRange) (take : Nat)
    (rest : List TimestampRange) : Prop where
  pos : 0 < take
  take_eq : take = min n (L.sequenceCapacity - i % L.sequenceCapacity)
  valid : L.Valid
  horizon : i / L.sequenceCapacity ≤ L.maxPhysicalMs
  generator : id < L.maxGenerators
  head : rs = ⟨L.tsoAt id i, L.tsoAt id i + (take - 1)⟩ :: rest
  tail : ranges L id fuel (n - take) (i + take) = .ok rest

variable {fuel : Nat} {rs : List TimestampRange}

lemma Cut.take_le {take : Nat} {rest : List TimestampRange} (h : Cut L id fuel n i rs take rest) :
    take ≤ n ∧ i % L.sequenceCapacity + take ≤ L.sequenceCapacity := by
  have hmod := Nat.mod_lt i (sequenceCapacity_pos (L := L))
  have htake := h.take_eq
  omega

lemma ranges_cut (hn : 0 < n)
    (h : ranges L id (fuel + 1) n i = .ok rs) : ∃ take rest, Cut L id fuel n i rs take rest := by
  obtain ⟨m, rfl⟩ := Nat.exists_eq_succ_of_ne_zero hn.ne'
  have hmod := Nat.mod_lt i (sequenceCapacity_pos (L := L))
  simp only [ranges] at h
  generalize htake : min (m + 1) (L.sequenceCapacity - i % L.sequenceCapacity) = take at h
  split at h
  · cases h
  · cases h
  · cases h
  · next startTso endTso nextIdx hstart hend hnext =>
    obtain ⟨rfl, -⟩ := U64.checkedAdd_eq_some.mp hnext
    split at h
    · cases h
    · next rest hrest =>
      cases h
      obtain ⟨hvalid, hhorizon, hid, rfl⟩ := encode_index_eq_ok.mp hstart
      obtain ⟨-, -, -, -, hendTso⟩ := encode_eq_ok.mp hend
      have hpos : 0 < take := by omega
      have hblock : endTso = L.tsoAt id i + (take - 1) := by
        simp only [tsoAt]
        omega
      exact ⟨take, rest, hpos, htake.symm, hvalid, hhorizon, hid, by rw [hblock], hrest⟩

lemma ranges_zero (h : ranges L id fuel 0 i = .ok rs) : rs = [] := by
  cases fuel <;> exact (Except.ok.inj h).symm

lemma ranges_covers (h : ranges L id fuel n i = .ok rs) (hfuel : n ≤ fuel) :
    Covers rs t ↔ ∃ j, i ≤ j ∧ j < i + n ∧ t = L.tsoAt id j := by
  induction fuel generalizing n i rs with
  | zero =>
    obtain rfl : n = 0 := by omega
    obtain rfl := ranges_zero h
    simp [Covers]
    omega
  | succ fuel ih =>
    rcases Nat.eq_zero_or_pos n with rfl | hn
    · obtain rfl := ranges_zero h
      simp [Covers]
      omega
    obtain ⟨take, rest, hcut⟩ := ranges_cut hn h
    obtain ⟨hle, hroom⟩ := hcut.take_le
    have hpos := hcut.pos
    have hrest := ih hcut.tail (by omega)
    obtain rfl := hcut.head
    -- the first range covers the indices of this millisecond, the others the rest
    constructor
    · rintro ⟨r, hr, hlow, hhigh⟩
      rcases List.mem_cons.mp hr with rfl | hr
      · refine ⟨i + (t - L.tsoAt id i), by omega, by simp only at hlow hhigh; omega, ?_⟩
        simp only at hlow hhigh
        rw [tsoAt_add (by omega)]
        omega
      · obtain ⟨j, hj⟩ := hrest.mp ⟨r, hr, hlow, hhigh⟩
        exact ⟨j, by omega, by omega, hj.2.2⟩
    · rintro ⟨j, hij, hj, rfl⟩
      by_cases hfirst : j < i + take
      · refine ⟨_, List.mem_cons_self, ?_⟩
        obtain ⟨k, rfl⟩ := Nat.exists_eq_add_of_le hij
        have hk : L.tsoAt id (i + k) = L.tsoAt id i + k := tsoAt_add (by omega)
        simp only
        omega
      · obtain ⟨r, hr, hcovered⟩ := hrest.mpr ⟨j, by omega, by omega, rfl⟩
        exact ⟨r, List.mem_cons_of_mem _ hr, hcovered⟩

lemma ranges_getLast (h : ranges L id fuel n i = .ok rs) (hfuel : n ≤ fuel) (hn : 0 < n) :
    rs.getLast?.map (·.endTso) = some (L.tsoAt id (i + n - 1)) := by
  induction fuel generalizing n i rs with
  | zero => omega
  | succ fuel ih =>
    obtain ⟨take, rest, hcut⟩ := ranges_cut hn h
    obtain ⟨hle, hroom⟩ := hcut.take_le
    have hpos := hcut.pos
    obtain rfl := hcut.head
    by_cases hall : take = n
    · -- nothing is left for later rounds
      have hnil : rest = [] := by
        have htail := hcut.tail
        rw [hall, Nat.sub_self] at htail
        exact ranges_zero htail
      have hblock : L.tsoAt id (i + (take - 1)) = L.tsoAt id i + (take - 1) := tsoAt_add (by omega)
      have hidx : i + n - 1 = i + (take - 1) := by omega
      rw [hnil, List.getLast?_singleton, Option.map_some, hidx, hblock]
    · have hlast := ih hcut.tail (by omega) (by omega)
      have hidx : i + take + (n - take) - 1 = i + n - 1 := by omega
      rw [hidx] at hlast
      cases hrest : rest.getLast? with
      | none => rw [hrest] at hlast; cases hlast
      | some range =>
        rw [hrest] at hlast
        rw [List.getLast?_cons, hrest, Option.getD_some]
        exact hlast

lemma allocatedRanges_covers {count : Nat} (h : allocatedRanges L id count i = .ok rs) :
    Covers rs t ↔ ∃ j, i ≤ j ∧ j < i + count ∧ t = L.tsoAt id j :=
  ranges_covers h le_rfl

end Chronos.Generator
