import Chronos.Codec
import Chronos.Interleaving.Alone
import Chronos.Runtime.Admission
import Chronos.Service.System

/-! What a takeover leaves to allocate. The new bound is computed from the recovery floor of the
expired record, but the cursor is placed behind the recovery floor of the record that already holds
the new bound, so it ends up behind the bound. -/

namespace Chronos

open Interleaving TimestampLayout

variable {C : Cluster} {p g f u now : Nat} {w w' : World} {record taken : GeneratorRecord}
  {revision : Nat} {retry : Service Unit}

def Generator.cursorAfterFloor (L : TimestampLayout) (id next floor : Nat) : Nat :=
  match initIndex L id floor with
  | .ok index => max next index
  | .error _ => next

lemma runAlone_call {α : Type} {o : Op} {k : o.Reply → Service α} {r : o.Reply} {e : Effect}
    (h : act C p w o o.usual = some (r, e)) :
    (call o >>= k).runAlone (machine C) p Op.usual w =
      (k r).runAlone (machine C) p Op.usual (w.apply p e) := by
  refine Prog.runAlone_op_bind ?_
  show (act C p w o o.usual).map _ = _
  rw [h, Option.map_some]

lemma runAlone_takeOverGeneratorLease (hrevision : w.generatorRevisionIs g revision = true)
    (htaken : C.takeoverRecord p g now record = .ok taken)
    (hfloor : generatorRecoveryFloorTso taken = some f) :
    ∃ out w', (takeOverGeneratorLease C p g record revision now retry).runAlone (machine C) p
      Op.usual w = some (out, w') ∧
      (w'.runtime p g).nextIndex =
        Generator.cursorAfterFloor C.layout g (w.runtime p g).nextIndex f := by
  have hact : act C p w (.compareExchangeGenerator .takeover g revision taken) (.store .done) =
      some (.ok (w.revision + 1),
        .commitGenerators [(g, ⟨w.revision + 1, taken, p, .takeover⟩)]) := by
    simp only [act, storeWrite, hrevision, if_true]
  unfold takeOverGeneratorLease Generator.cursorAfterFloor
  rw [htaken]
  rw [runAlone_call hact]
  simp only [hfloor]
  cases hindex : Generator.initIndex C.layout g f with
  | error e =>
    have hinit : (initAfterFloor C g (some f)).runAlone (machine C) p Op.usual
        (w.apply p (.commitGenerators [(g, ⟨w.revision + 1, taken, p, .takeover⟩)])) =
        some (.error e, w.apply p
          (.commitGenerators [(g, ⟨w.revision + 1, taken, p, .takeover⟩)])) := by
      rw [initAfterFloor, hindex]
      rfl
    exact ⟨.error e, _, Prog.runAlone_bind_error hinit, rfl⟩
  | ok index =>
    have hinit : (initAfterFloor C g (some f)).runAlone (machine C) p Op.usual
        (w.apply p (.commitGenerators [(g, ⟨w.revision + 1, taken, p, .takeover⟩)])) =
        some (.ok (), (w.apply p
          (.commitGenerators [(g, ⟨w.revision + 1, taken, p, .takeover⟩)])).apply
          p (.advance g index)) := by
      rw [initAfterFloor, hindex]
      rfl
    refine ⟨.ok (), _, (Prog.runAlone_bind_ok hinit).trans rfl, ?_⟩
    simp [World.apply, World.setRuntime]

lemma runAlone_acquireGeneratorLease {fuel : Nat}
    (hrecord : w.generatorRecord g = some (record, revision))
    (hexpired : record.leaseExpireAtMs.any
      (leaseExpiredWithSafetyGap · (w.clock p) (C.worker p).safetyGapMs) = true)
    (htaken : C.takeoverRecord p g (w.clock p) record = .ok taken)
    (hfloor : generatorRecoveryFloorTso taken = some f) :
    ∃ out w', (acquireGeneratorLease C p g (fuel + 1)).runAlone (machine C) p Op.usual w =
        some (out, w') ∧
      (w'.runtime p g).nextIndex =
        Generator.cursorAfterFloor C.layout g (w.runtime p g).nextIndex f := by
  have hrev : w.generatorRevisionIs g revision = true := by
    obtain ⟨v, hv, heq⟩ := Option.map_eq_some_iff.mp hrecord
    obtain ⟨-, rfl⟩ := Prod.mk.inj heq
    rw [World.generatorRevisionIs, hv]
    exact decide_eq_true rfl
  have hload : act C p w (.loadGenerator g) (.store .done) =
      some (.ok (some (record, revision)), .none) := by
    rw [← hrecord]
    rfl
  have hcheck : checkRequestCancellation.runAlone (machine C) p Op.usual w = some (.ok (), w) := rfl
  rw [acquireGeneratorLease, Prog.runAlone_bind_ok hcheck, runAlone_call hload]
  show ∃ out w', (adoptGeneratorLease C p g record revision _).runAlone (machine C) p Op.usual w =
    some (out, w') ∧ _
  have hnow : act C p w .nowMs .go = some (w.clock p, .readClock (w.clock p)) := rfl
  rw [adoptGeneratorLease, runAlone_call hnow]
  simp only [hexpired, Bool.not_true, Bool.and_false, Bool.false_eq_true, if_false, if_true]
  exact runAlone_takeOverGeneratorLease hrev htaken hfloor

/-! ### The last index of a generator -/

variable {L : TimestampLayout}

variable {i baseMs requested : Nat}

lemma tsoAt_of_no_generatorBits (hbits : L.generatorBits = 0)
    (hg : g < L.maxGenerators) : L.tsoAt g i = i := by
  have hone : L.maxGenerators = 1 := by rw [maxGenerators_eq, hbits, Nat.pow_zero]
  have hzero : g = 0 := by omega
  rw [tsoAt, hone, hzero, Nat.mul_one, Nat.add_zero, Nat.div_add_mod']

lemma size_le_tsoAt (hvalid : L.Valid) (hbits : 0 < L.generatorBits) :
    U64.size ≤ L.tsoAt g (U64.size - 1) := by
  obtain ⟨-, -, -, hseq, -⟩ := hvalid.widths
  have hcap : L.sequenceCapacity ≤ 2 ^ 31 := by
    rw [sequenceCapacity_eq]
    exact Nat.pow_le_pow_right (by decide) hseq
  have htwo : 2 ≤ L.maxGenerators := by
    rw [maxGenerators_eq]
    calc 2 = 2 ^ 1 := rfl
      _ ≤ 2 ^ L.generatorBits := Nat.pow_le_pow_right (by decide) hbits
  have hms : 1 ≤ (U64.size - 1) / L.sequenceCapacity :=
    (Nat.le_div_iff_mul_le sequenceCapacity_pos).mpr (by rw [U64.size]; omega)
  have hdiv := Nat.div_add_mod' (U64.size - 1) L.sequenceCapacity
  have hdouble : (U64.size - 1) / L.sequenceCapacity * L.sequenceCapacity * 2 ≤
      (U64.size - 1) / L.sequenceCapacity * L.maxGenerators * L.sequenceCapacity := by
    rw [Nat.mul_assoc, Nat.mul_comm L.sequenceCapacity, ← Nat.mul_assoc]
    exact Nat.mul_le_mul_right _ (Nat.mul_le_mul_left _ htwo)
  have hpos : 1 ≤ (U64.size - 1) / L.sequenceCapacity * L.sequenceCapacity :=
    Nat.mul_pos hms sequenceCapacity_pos
  rw [tsoAt, Nat.add_mul]
  omega

lemma initIndex_eq_error_iff {floor : Nat} (hvalid : L.Valid) (hg : g < L.maxGenerators)
    (hfloor : floor < U64.size) :
    (∃ e, Generator.initIndex L g floor = .error e) ↔
      L.generatorBits = 0 ∧ floor + 1 = U64.size := by
  obtain ⟨c, hc⟩ : ∃ c, nextCursorAfterWithLayout L floor g = .ok c :=
    L.exists_nextCursor hvalid hfloor
  have hfits : (∃ n, c.index L = some n) ↔ floor < L.tsoAt g (U64.size - 1) := by
    rw [← nextCursor_le_iff hg hc]
    constructor
    · rintro ⟨n, hn⟩
      obtain ⟨rfl, hlt⟩ := Cursor.index_eq_some.mp hn
      omega
    · intro hle
      exact ⟨_, Cursor.index_eq_some.mpr ⟨rfl, by omega⟩⟩
  have herr : (∃ e, Generator.initIndex L g floor = .error e) ↔
      ¬ floor < L.tsoAt g (U64.size - 1) := by
    rw [← hfits]
    unfold Generator.initIndex
    rw [hc]
    cases hidx : c.index L <;> simp [hidx]
  rw [herr]
  rcases Nat.eq_zero_or_pos L.generatorBits with hbits | hbits
  · rw [tsoAt_of_no_generatorBits hbits hg]
    omega
  · have hsize := size_le_tsoAt (g := g) hvalid hbits
    omega

lemma computeGeneratorUpperBound_ms (h : C.computeGeneratorUpperBound p g baseMs = some u) :
    U64.wrappingAdd baseMs (C.worker p).preBorrowMs ≤ C.layout.maxPhysicalMs ∧
      g < C.layout.maxGenerators ∧ u = (U64.wrappingAdd baseMs (C.worker p).preBorrowMs *
        C.layout.maxGenerators + g) * C.layout.sequenceCapacity +
          (C.layout.sequenceCapacity - 1) := by
  unfold Cluster.computeGeneratorUpperBound at h
  cases hencode : C.layout.encode (U64.wrappingAdd baseMs (C.worker p).preBorrowMs) g
    (C.layout.sequenceCapacity - 1) with
  | error e =>
    rw [hencode] at h
    cases h
  | ok t =>
    rw [hencode] at h
    cases h
    obtain ⟨-, hms, hg, -, heq⟩ := encode_eq_ok.mp hencode
    exact ⟨hms, hg, heq.symm⟩

lemma computeGeneratorUpperBound_lt
    (h : C.computeGeneratorUpperBound p g baseMs = some u) : u < U64.size := by
  obtain ⟨hms, hg, rfl⟩ := computeGeneratorUpperBound_ms h
  have hcap := sequenceCapacity_pos (L := C.layout)
  exact C.layout_valid.pack_lt hms hg (by omega)

lemma computeGeneratorUpperBound_last (hbits : C.layout.generatorBits = 0)
    (h : C.computeGeneratorUpperBound p g baseMs = some u) :
    u + 1 = U64.size ↔
      U64.wrappingAdd baseMs (C.worker p).preBorrowMs = C.layout.maxPhysicalMs := by
  obtain ⟨hms, hg, rfl⟩ := computeGeneratorUpperBound_ms h
  have hcap := sequenceCapacity_pos (L := C.layout)
  have hone : C.layout.maxGenerators = 1 := by rw [maxGenerators_eq, hbits, Nat.pow_zero]
  have hsize := C.layout_valid.size_eq
  rw [hone, Nat.one_mul] at hsize
  generalize U64.wrappingAdd baseMs (C.worker p).preBorrowMs = ms at *
  have hzero : g = 0 := by omega
  have hend : (ms * C.layout.maxGenerators + g) * C.layout.sequenceCapacity +
      (C.layout.sequenceCapacity - 1) + 1 = (ms + 1) * C.layout.sequenceCapacity := by
    simp only [hone, hzero, Nat.mul_one, Nat.add_zero, Nat.add_one_mul]
    omega
  rw [hend, ← hsize, Nat.mul_left_inj hcap.ne']
  omega

/-- After a takeover with bound `u` over the floor `f`, the next timestamp lies between the two, and
a request for one timestamp that is made right away is not refused for the bound. -/
structure UsableWindow (C : Cluster) (p g f u now : Nat) (w : World) : Prop where
  above : f < C.layout.tsoAt g (w.runtime p g).nextIndex
  within : C.layout.tsoAt g (w.runtime p g).nextIndex ≤ u
  served : ∀ args requested, args.count = 1 → args.nowMs = now → args.floor = none →
    args.issuedUpperBound = some u →
      Generator.reserve C.layout g args 0 (w.runtime p g).nextIndex ≠
        .error (.issuedUpperBoundExceeded requested u)

lemma checkUpperBound_ne_exceeded {bound : Option Nat} (hlast : u + 1 = U64.size) :
    Generator.checkUpperBound L g i bound ≠ .error (.issuedUpperBoundExceeded requested u) := by
  intro h
  cases bound with
  | none => cases h
  | some bound =>
    simp only [Generator.checkUpperBound] at h
    split at h
    · next e hencoded =>
      cases h
      unfold encode at hencoded
      split at hencoded
      · cases hencoded
      · split_ifs at hencoded <;> cases hencoded
    · next endTso hencoded =>
      split_ifs at h with hexceeds
      obtain ⟨-, rfl⟩ := TsoError.issuedUpperBoundExceeded.inj (Except.error.inj h)
      -- nothing that can be encoded lies above the last timestamp
      obtain ⟨hvalid, hms, hg, hseq, rfl⟩ := encode_eq_ok.mp hencoded
      have hlt := hvalid.pack_lt hms hg hseq
      omega

lemma reserve_ne_exceeded {args : Generator.AllocateArgs} {floorIdx old : Nat}
    (hlast : u + 1 = U64.size) :
    Generator.reserve L g args floorIdx old ≠ .error (.issuedUpperBoundExceeded requested u) := by
  intro h
  unfold Generator.reserve at h
  simp only at h
  split_ifs at h
  · cases h
  · cases h
  split at h
  · cases h
  split_ifs at h
  · cases h
  split at h
  · next e hcheck =>
    cases h
    exact checkUpperBound_ne_exceeded hlast hcheck
  · split at h <;> cases h

/-- A takeover leaves no window below its own bound. The one exception is a layout without generator
bits whose very last timestamp is the bound: there the cursor cannot be moved behind it and stays
where it was. -/
theorem takeover_leaves_window {fuel : Nat} (hg : g < C.layout.maxGenerators)
    (hcursor : (w.runtime p g).nextIndex < U64.size)
    (hrecord : w.generatorRecord g = some (record, revision))
    (hexpired : record.leaseExpireAtMs.any
      (leaseExpiredWithSafetyGap · (w.clock p) (C.worker p).safetyGapMs) = true)
    (hfloor : generatorRecoveryFloorTso record = some f) (hf : f < U64.size)
    (hbound : C.computeGeneratorUpperBound p g (C.takeoverBaseMs g (w.clock p) record) = some u) :
    ∃ out w', (acquireGeneratorLease C p g (fuel + 1)).runAlone (machine C) p Op.usual w =
        some (out, w') ∧
      (UsableWindow C p g f u (w.clock p) w' ↔ C.layout.generatorBits = 0 ∧
        U64.wrappingAdd (C.takeoverBaseMs g (w.clock p) record) (C.worker p).preBorrowMs =
          C.layout.maxPhysicalMs ∧
        f < C.layout.tsoAt g (w.runtime p g).nextIndex) := by
  obtain ⟨c, hc⟩ : ∃ c, nextCursorAfterWithLayout C.layout f g = .ok c :=
    C.layout.exists_nextCursor C.layout_valid hf
  have hbase : C.takeoverBaseMs g (w.clock p) record = max (w.clock p) c.physicalMs := by
    rw [Cluster.takeoverBaseMs, hfloor]
    simp only [hc]
  obtain ⟨taken, htaken, htakenFloor⟩ : ∃ taken,
      C.takeoverRecord p g (w.clock p) record = .ok taken ∧
        generatorRecoveryFloorTso taken = some (max f u) := by
    rw [hbase] at hbound
    simp only [Cluster.takeoverRecord, hfloor, hc, hbound]
    exact ⟨_, rfl, rfl⟩
  obtain ⟨out, w', hrun, hnext⟩ : ∃ out w',
      (acquireGeneratorLease C p g (fuel + 1)).runAlone (machine C) p Op.usual w = some (out, w') ∧
        (w'.runtime p g).nextIndex = Generator.cursorAfterFloor C.layout g
          (w.runtime p g).nextIndex (max f u) :=
    runAlone_acquireGeneratorLease hrecord hexpired htaken htakenFloor
  refine ⟨out, w', hrun, ?_⟩
  have hu := computeGeneratorUpperBound_lt hbound
  have hmax : max f u < U64.size := max_lt hf hu
  have herror := initIndex_eq_error_iff C.layout_valid hg hmax
  unfold Generator.cursorAfterFloor at hnext
  cases hindex : Generator.initIndex C.layout g (max f u) with
  | ok index =>
    rw [hindex] at hnext
    constructor
    · -- the cursor stands behind the bound
      intro hwindow
      have hpast : max f u < C.layout.tsoAt g (w'.runtime p g).nextIndex :=
        (Generator.initIndex_le_iff hg hindex).mp (hnext ▸ le_max_right _ _)
      have hwithin := hwindow.within
      omega
    · rintro ⟨hbits, hms, -⟩
      have hlast := (computeGeneratorUpperBound_last hbits hbound).mpr hms
      have hmaxLast : max f u + 1 = U64.size := by omega
      obtain ⟨e, he⟩ := herror.mpr ⟨hbits, hmaxLast⟩
      cases hindex.symm.trans he
  | error e =>
    rw [hindex] at hnext
    replace hnext : (w'.runtime p g).nextIndex = (w.runtime p g).nextIndex := hnext
    obtain ⟨hbits, hlast⟩ := herror.mp ⟨e, hindex⟩
    have hms := computeGeneratorUpperBound_last hbits hbound
    have hindexed : C.layout.tsoAt g (w.runtime p g).nextIndex = (w.runtime p g).nextIndex :=
      tsoAt_of_no_generatorBits hbits hg
    constructor
    · intro hwindow
      have habove := hwindow.above
      rw [hnext] at habove
      refine ⟨hbits, hms.mp ?_, habove⟩
      -- the cursor is above the floor, so it is the bound that is the last timestamp
      omega
    · rintro ⟨-, hlastMs, habove⟩
      have huLast := hms.mpr hlastMs
      refine ⟨by rw [hnext]; exact habove, by rw [hnext]; omega, fun args requested _ _ _ _ => ?_⟩
      exact reserve_ne_exceeded huLast

def expiredWorld : World :=
  { World.initial (fun _ => 200) with
    revision := 1
    generators := fun g => if g = 1 then
      [⟨1, sampleCluster.createdGeneratorRecord 1 1 10, 1, .create⟩] else [] }

def lastBoundCluster : Cluster :=
  { sampleCluster with
    layout := ⟨1, 0, 53, 0, 11⟩
    layout_valid := by decide }

/-- The takeover is made so late that its bound is the last timestamp of the layout. -/
def lastBoundWorld : World :=
  { World.initial (fun _ => 2 ^ 53 - 51) with
    revision := 1
    runtime := fun _ _ => { nextIndex := 2 ^ 20 }
    generators := fun _ => [⟨1, lastBoundCluster.createdGeneratorRecord 1 0 10, 1, .create⟩] }

/-- With generator bits there is no window; without them there is one below the last timestamp. -/
theorem takeover_leaves_window_sample :
    (∃ out w', (acquireGeneratorLease sampleCluster 0 1 1).runAlone (machine sampleCluster) 0
      Op.usual expiredWorld = some (out, w') ∧
        ¬ UsableWindow sampleCluster 0 1 963 4003 200 w') ∧
    ∃ out w', (acquireGeneratorLease lastBoundCluster 0 0 1).runAlone (machine lastBoundCluster) 0
      Op.usual lastBoundWorld = some (out, w') ∧
        UsableWindow lastBoundCluster 0 0 (60 * 2 ^ 11 + 2047) (2 ^ 64 - 1) (2 ^ 53 - 51) w' := by
  constructor
  · obtain ⟨out, w', hrun, hiff⟩ := takeover_leaves_window (C := sampleCluster) (p := 0) (g := 1)
      (f := 963) (u := 4003) (w := expiredWorld) (by decide) (by decide) rfl (by decide +kernel)
      (by decide +kernel) (by decide) (by decide +kernel)
    refine ⟨out, w', hrun, fun hwindow => ?_⟩
    have hbits := (hiff.mp hwindow).1
    cases hbits
  · obtain ⟨out, w', hrun, hiff⟩ := takeover_leaves_window (C := lastBoundCluster) (p := 0) (g := 0)
      (f := 60 * 2 ^ 11 + 2047) (u := 2 ^ 64 - 1) (w := lastBoundWorld) (by decide)
      (by decide +kernel) rfl (by decide +kernel) (by decide +kernel) (by decide)
        (by decide +kernel)
    exact ⟨out, w', hrun, hiff.mpr ⟨rfl, by decide +kernel, by decide +kernel⟩⟩

/-- The takeover succeeds with the bound 4003, and a timestamp that is asked for right away, within
the borrow limits, is refused for that bound: the next one is 4018. -/
theorem takeover_window_exhausted :
    ∃ w', Alone (machine sampleCluster) 0 (acquireGeneratorLease sampleCluster 0 1 1) expiredWorld
      (.ok ()) w' ∧
      (w'.generatorRecord 1).map (fun x => x.1.issuedUpperBound) = some (some 4003) ∧
      Generator.reserve sampleCluster.layout 1
        { count := 1, floor := none, nowMs := 200, maxFutureBorrowMs := 100, maxClockRewindMs := 60,
          issuedUpperBound := some 4003 } 0 (w'.runtime 0 1).nextIndex =
        .error (.issuedUpperBoundExceeded 4018 4003) := by
  have hrun : ((acquireGeneratorLease sampleCluster 0 1 1).runAlone (machine sampleCluster) 0
      Op.usual expiredWorld).any (fun x => decide (x.1.isOk = true ∧
        (x.2.generatorRecord 1).map (fun x => x.1.issuedUpperBound) = some (some 4003) ∧
        (x.2.runtime 0 1).nextIndex = 502)) = true := by
    decide +kernel
  obtain ⟨out, w', halone, hP⟩ := Alone.exists_of_runAlone hrun
  obtain ⟨hok, hbound, hnext⟩ := of_decide_eq_true hP
  cases out with
  | error e => cases hok
  | ok =>
    refine ⟨w', halone, hbound, ?_⟩
    rw [show (w'.runtime 0 1).nextIndex = 502 from hnext]
    decide +kernel

end Chronos
