import Chronos.Interleaving.Alone
import Chronos.Runtime.Admission
import Chronos.Service.Allocation

/-! Concurrent calls on the atomic cursor of one generator. `allocate_after` loads the cursor,
decides on a block and commits it by compare-exchange, again and again while it loses;
`init_after_floor` raises the cursor with one fetch-max. -/

namespace Chronos.Generator

open Interleaving TimestampLayout Discipline List

inductive CursorOp where
  | load
  | compareExchange (oldIndex : Nat) (reservation : Reservation)
  | fetchMax (index : Nat)

@[reducible] def CursorOp.Reply : CursorOp → Type
  | .load => Nat
  | .compareExchange .. => Bool
  | .fetchMax _ => Unit

abbrev cursorSig : Signature := ⟨CursorOp, CursorOp.Reply⟩

abbrev onCursor (o : CursorOp) : Prog cursorSig TsoError o.Reply := @Prog.op cursorSig TsoError o

structure Exchange where
  caller : Nat
  oldIndex : Nat
  reservation : Reservation
  deriving DecidableEq

structure CursorWorld where
  nextIndex : Nat
  exchanges : List Exchange
  deriving DecidableEq

namespace CursorWorld

variable (w : CursorWorld)

def exchange (e : Exchange) : CursorWorld where
  nextIndex := e.reservation.newIndex
  exchanges := w.exchanges ++ [e]

def exec (caller : Nat) : (o : CursorOp) → o.Reply × CursorWorld
  | .load => (w.nextIndex, w)
  | .compareExchange old r =>
    if w.nextIndex = old then (true, w.exchange ⟨caller, old, r⟩) else (false, w)
  | .fetchMax index => ((), { w with nextIndex := max w.nextIndex index })

instance : Preorder CursorWorld where
  le w w' := w.nextIndex ≤ w'.nextIndex ∧ w.exchanges <+: w'.exchanges
  le_refl w := ⟨le_rfl, List.prefix_rfl⟩
  le_trans _ _ _ h h' := ⟨h.1.trans h'.1, h.2.trans h'.2⟩

end CursorWorld

def cursorMachine : Machine cursorSig Nat Unit Empty CursorWorld where
  exec caller o _ w := some (w.exec caller o)
  env e _ := e.elim

section

variable (L : TimestampLayout) (id : Nat)

def initAfterFloor (floor : Nat) : Prog cursorSig TsoError Unit :=
  match initIndex L id floor with
  | .error e => .fail e
  | .ok index => onCursor (.fetchMax index)

def allocateRounds (args : AllocateArgs) (floorIdx : Nat) :
    Nat → Prog cursorSig TsoError AllocateAfterResult
  | 0 => .ret .contended
  | tries + 1 => do
    let old ← onCursor .load
    match reserve L id args floorIdx old with
    | .error e => .fail e
    | .ok r => do
      if ← onCursor (.compareExchange old r) then
        match allocatedRanges L id args.count r.startIndex with
        | .error e => .fail e
        | .ok ranges => .ret (.allocated ranges)
      else allocateRounds args floorIdx tries

def allocateAfter (args : AllocateArgs) : Prog cursorSig TsoError AllocateAfterResult :=
  match floorIndex L id args.floor with
  | .error e => .fail e
  | .ok floorIdx => allocateRounds L id args floorIdx maxGeneratorContentionRetries

inductive CursorCall where
  | allocate (args : AllocateArgs)
  | init (floor : Nat)

def CursorCall.program : CursorCall → Prog cursorSig TsoError (Option AllocateAfterResult)
  | .allocate args => do
    let result ← allocateAfter L id args
    return some result
  | .init floor => do
    initAfterFloor L id floor
    return none

end

/-! ### What one call hands out -/

/-- What `allocate_after` promises of the ranges it returns for the exchange it made. -/
structure Issued (L : TimestampLayout) (id : Nat) (args : AllocateArgs) (e : Exchange)
    (rs : List TimestampRange) : Prop where
  length : (timestamps rs).length = args.count
  generator : ∀ t ∈ timestamps rs, (L.decode t).generatorId = id
  increasing : (timestamps rs).Pairwise (· < ·)
  contiguous : (timestamps rs).map L.indexOf = List.range' e.reservation.startIndex args.count
  first : IsLeast {i | e.oldIndex ≤ i ∧ args.nowMs * L.sequenceCapacity ≤ i ∧
    ∀ f, args.floor = some f → f < L.tsoAt id i} e.reservation.startIndex
  above_floor : ∀ f, args.floor = some f → ∀ t ∈ timestamps rs, f < t
  below_bound : ∀ u, args.issuedUpperBound = some u → ∀ t ∈ timestamps rs, t ≤ u
  borrowed : ∀ t ∈ timestamps rs, (L.decode t).physicalMs ≤
    max (e.oldIndex / L.sequenceCapacity) (args.nowMs + args.maxFutureBorrowMs)
  /-- One range for each millisecond between the first and the last timestamp. -/
  starts : rs.map (fun r => (L.decode r.startTso).physicalMs) =
    touchedMs L e.reservation.startIndex args.count
  ends : rs.map (fun r => (L.decode r.endTso).physicalMs) =
    touchedMs L e.reservation.startIndex args.count
  next : e.reservation.newIndex = e.reservation.startIndex + args.count

variable {L : TimestampLayout} {id floorIdx : Nat} {args : AllocateArgs}
  {rs : List TimestampRange} {e e' : Exchange} {w w' : CursorWorld}

variable {i t caller n : Nat} {o : CursorOp} {calls : List CursorCall}
  {s : Sys cursorSig Nat CursorWorld TsoError (Option AllocateAfterResult)}

lemma floorSucc_le_iff {floor : Option Nat} (hid : id < L.maxGenerators)
    (hfloor : floorIndex L id floor = .ok floorIdx) :
    floorSucc L id floor ≤ i ↔ ∀ f, floor = some f → f < L.tsoAt id i := by
  cases floor with
  | none => simp [floorSucc]
  | some f =>
    simp only [floorIndex] at hfloor
    split at hfloor
    · cases hfloor
    · next c hc =>
      rw [floorSucc, ← nextCursor_eq_succIndex hc, nextCursor_le_iff hid hc]
      simp

lemma firstIndex_isLeast {old : Nat} (hid : id < L.maxGenerators)
    (hfloor : floorIndex L id args.floor = .ok floorIdx) :
    IsLeast {i | old ≤ i ∧ args.nowMs * L.sequenceCapacity ≤ i ∧
      ∀ f, args.floor = some f → f < L.tsoAt id i} (firstIndex L id args old) := by
  have hmem : ∀ i, firstIndex L id args old ≤ i ↔ old ≤ i ∧
      args.nowMs * L.sequenceCapacity ≤ i ∧ ∀ f, args.floor = some f → f < L.tsoAt id i := by
    intro i
    rw [firstIndex, max_le_iff, max_le_iff, floorSucc_le_iff hid hfloor, and_assoc]
  exact ⟨(hmem _).mp le_rfl, fun i hi => (hmem i).mpr hi⟩

lemma issued_of_reserve (hcount : 0 < args.count)
    (hfloor : floorIndex L id args.floor = .ok floorIdx)
    (hreserve : reserve L id args floorIdx e.oldIndex = .ok e.reservation)
    (hranges : allocatedRanges L id args.count e.reservation.startIndex = .ok rs) :
    Issued L id args e rs := by
  obtain ⟨hadmitted, hr⟩ := (reserve_eq_ok_iff hfloor hcount).mp hreserve
  have hstart : e.reservation.startIndex = firstIndex L id args e.oldIndex := by rw [hr]
  have hlist := ranges_timestamps hranges le_rfl
  obtain ⟨-, hid, -⟩ := ranges_horizon hranges le_rfl hcount
  obtain ⟨hstarts, hends⟩ := ranges_physicalMs hranges le_rfl hcount
  have hfirst : IsLeast {i | e.oldIndex ≤ i ∧ args.nowMs * L.sequenceCapacity ≤ i ∧
      ∀ f, args.floor = some f → f < L.tsoAt id i} e.reservation.startIndex := by
    rw [hstart]
    exact firstIndex_isLeast hid hfloor
  -- every timestamp sits at an index of the block
  have hmem : ∀ t ∈ timestamps rs, ∃ i, e.reservation.startIndex ≤ i ∧
      i ≤ e.reservation.startIndex + args.count - 1 ∧ t = L.tsoAt id i := by
    intro t ht
    rw [hlist] at ht
    obtain ⟨i, hi, rfl⟩ := List.mem_map.mp ht
    rw [List.mem_range'_1] at hi
    exact ⟨i, hi.1, by omega, rfl⟩
  refine ⟨by rw [hlist, List.length_map, List.length_range'], fun t ht => ?_, ?_, ?_, hfirst,
    fun f hf t ht => ?_, fun u hu t ht => ?_, fun t ht => ?_, hstarts, hends, by rw [hr]⟩
  · obtain ⟨i, -, -, rfl⟩ := hmem t ht
    exact decode_tsoAt_generatorId hid
  · rw [hlist, List.pairwise_map]
    exact (List.pairwise_lt_range').imp tsoAt_lt_tsoAt.mpr
  · rw [hlist, List.map_map]
    conv_rhs => rw [← List.map_id (List.range' _ _)]
    exact List.map_congr_left fun i _ => indexOf_tsoAt hid
  · obtain ⟨i, hi, -, rfl⟩ := hmem t ht
    exact (hfirst.1.2.2 f hf).trans_le (tsoAt_le_tsoAt.mpr hi)
  · obtain ⟨i, -, hi, rfl⟩ := hmem t ht
    rw [hstart] at hi
    exact (tsoAt_le_tsoAt.mpr hi).trans (hadmitted.bound u hu).2.2.2
  obtain ⟨i, -, hi, rfl⟩ := hmem t ht
  rw [decode_tsoAt_physicalMs hid]
  rw [hstart] at hi
  exact (Nat.div_le_div_right hi).trans hadmitted.borrow

lemma tsoAt_indexOf : L.tsoAt (L.decode t).generatorId (L.indexOf t) = t := by
  rw [indexOf, tsoAt_mul_add decode_sequence_lt, pack_decode]

lemma Issued.index_mem (h : Issued L id args e rs) (ht : t ∈ timestamps rs) :
    e.oldIndex ≤ L.indexOf t ∧ L.indexOf t < e.reservation.newIndex ∧
      t = L.tsoAt id (L.indexOf t) := by
  have hidx : L.indexOf t ∈ range' e.reservation.startIndex args.count := by
    rw [← h.contiguous]
    exact mem_map_of_mem ht
  rw [mem_range'_1] at hidx
  have hold := h.first.1.1
  have hnext := h.next
  refine ⟨by omega, by omega, ?_⟩
  conv_lhs => rw [← tsoAt_indexOf (t := t), h.generator t ht]

lemma Issued.lt_of_exchanged {args' : AllocateArgs} {rs' : List TimestampRange}
    (h : Issued L id args e rs) (h' : Issued L id args' e' rs')
    (horder : e.reservation.newIndex ≤ e'.oldIndex) :
    ∀ t ∈ timestamps rs, ∀ t' ∈ timestamps rs', t < t' := by
  intro t ht t' ht'
  obtain ⟨-, hlt, heq⟩ := h.index_mem ht
  obtain ⟨hle, -, heq'⟩ := h'.index_mem ht'
  rw [heq, heq', tsoAt_lt_tsoAt]
  omega

/-! ### A call by itself -/

lemma alone_onCursor_bind {α : Type}
    {k : o.Reply → Prog cursorSig TsoError α} {out : Except TsoError α} :
    Alone cursorMachine caller (onCursor o >>= k) w out w' ↔
      Alone cursorMachine caller (k (w.exec caller o).1) (w.exec caller o).2 out w' := by
  refine alone_call.trans ?_
  constructor
  · rintro ⟨c, r, w1, hexec, h⟩
    obtain ⟨rfl, rfl⟩ := Prod.mk.inj (Option.some.inj hexec)
    exact h
  · exact fun h => ⟨(), _, _, rfl, h⟩

lemma alone_allocateAfter {out : Except TsoError AllocateAfterResult} :
    Alone cursorMachine caller (allocateAfter L id args) w out w' ↔
      (∃ e, floorIndex L id args.floor = .error e ∧ out = .error e ∧ w' = w) ∨
      ∃ floorIdx, floorIndex L id args.floor = .ok floorIdx ∧
        ((∃ e, reserve L id args floorIdx w.nextIndex = .error e ∧ out = .error e ∧ w' = w) ∨
          ∃ r, reserve L id args floorIdx w.nextIndex = .ok r ∧
            out = (allocatedRanges L id args.count r.startIndex).map .allocated ∧
            w' = w.exchange ⟨caller, w.nextIndex, r⟩) := by
  unfold allocateAfter
  cases hfloor : floorIndex L id args.floor with
  | error e => simp
  | ok floorIdx =>
    simp only [reduceCtorEq, false_and, exists_false, false_or, Except.ok.injEq, exists_eq_left']
    rw [maxGeneratorContentionRetries, allocateRounds, alone_onCursor_bind]
    simp only [CursorWorld.exec]
    cases hreserve : reserve L id args floorIdx w.nextIndex with
    | error e => simp
    | ok r =>
      simp only [reduceCtorEq, false_and, exists_false, false_or, Except.ok.injEq, exists_eq_left']
      rw [alone_onCursor_bind]
      simp only [CursorWorld.exec, if_true]
      cases hranges : allocatedRanges L id args.count r.startIndex with
      | error e => simp [Except.map]
      | ok rs => simp [Except.map]

/-- The blocks of `allocate_after` that would run past the last millisecond of the layout although
the limits admit them. -/
structure Overruns (L : TimestampLayout) (id : Nat) (args : AllocateArgs) (old : Nat) : Prop where
  unbounded : args.issuedUpperBound = none
  admitted : Admitted L id args old
  past : L.horizonIndex < firstIndex L id args old + args.count

/-- A failed allocation leaves the cursor alone, except where it reserves a block that the layout
cannot encode. -/
theorem failed_allocation_keeps_cursor {caller : Nat} (hvalid : L.Valid)
    (hid : id < L.maxGenerators) (hcount : 1 ≤ args.count)
    (hfloor : ∀ f, args.floor = some f → f < U64.size) :
    (∀ error w', Alone cursorMachine caller (allocateAfter L id args) w (.error error) w' →
      w'.nextIndex = w.nextIndex) ↔ ¬ Overruns L id args w.nextIndex := by
  obtain ⟨floorIdx, hidx⟩ : ∃ n, floorIndex L id args.floor = .ok n := floorIndex_ok hvalid hfloor
  constructor
  · intro hkeeps hover
    have hreserve := (reserve_eq_ok_iff hidx hcount).mpr ⟨hover.admitted, rfl⟩
    -- the block is committed, and then its ranges cannot be encoded
    cases hranges : allocatedRanges L id args.count (firstIndex L id args w.nextIndex) with
    | ok rs =>
      have hfits := (ranges_horizon hranges le_rfl hcount).2.2
      have hpast := hover.past
      omega
    | error e =>
      have hmoved : (firstIndex L id args w.nextIndex + args.count) = w.nextIndex := by
        refine hkeeps e _ (alone_allocateAfter.mpr
          (.inr ⟨floorIdx, hidx, .inr ⟨_, hreserve, ?_, rfl⟩⟩))
        rw [hranges]
        rfl
      have hle : w.nextIndex ≤ firstIndex L id args w.nextIndex :=
        (le_max_left _ _).trans (le_max_left _ _)
      omega
  · intro hfine error w' h
    rcases alone_allocateAfter.mp h with ⟨e, he, -⟩ | ⟨floorIdx', hidx', h⟩
    · cases he.symm.trans hidx
    rcases h with ⟨e, -, -, rfl⟩ | ⟨r, hreserve, hout, -⟩
    · rfl
    -- an admitted block that does not overrun can be encoded
    obtain ⟨hadmitted, rfl⟩ := (reserve_eq_ok_iff hidx' hcount).mp hreserve
    have hhorizon : firstIndex L id args w.nextIndex + args.count ≤ L.horizonIndex := by
      cases hbound : args.issuedUpperBound with
      | some u => exact (hadmitted.bound u hbound).2.2.1
      | none => exact Nat.le_of_not_lt fun hpast => hfine ⟨hbound, hadmitted, hpast⟩
    obtain ⟨rs, hrs⟩ : ∃ rs, allocatedRanges L id args.count
        (firstIndex L id args w.nextIndex) = .ok rs :=
      ranges_ok hvalid hid hadmitted.fits hhorizon
    rw [hrs] at hout
    cases hout

def sampleLayout : TimestampLayout := ⟨1, 0, 60, 3, 1⟩

def sampleArgs (nowMs : Nat) : AllocateArgs where
  count := 3
  floor := none
  nowMs := nowMs
  maxFutureBorrowMs := 1
  maxClockRewindMs := 0
  issuedUpperBound := none

/-- The clock is behind the cursor, so the call fails, and the cursor stays. -/
theorem failed_allocation_keeps_cursor_sample :
    ∃ error w', Alone cursorMachine 0 (allocateAfter sampleLayout 0 (sampleArgs 5)) ⟨100, []⟩
      (.error error) w' ∧ w'.nextIndex = 100 := by
  have hrun : ((allocateAfter sampleLayout 0 (sampleArgs 5)).runAlone cursorMachine 0
      (fun _ => ()) ⟨100, []⟩).any (fun x => x.1.toOption.isNone) = true := by
    decide +kernel
  obtain ⟨out, w', halone, hout⟩ := Alone.exists_of_runAlone hrun
  cases out with
  | ok ranges => cases hout
  | error error =>
    refine ⟨error, w', halone, (failed_allocation_keeps_cursor (by decide) (by decide) (by decide)
      (fun f hf => ?_)).mpr (fun hover => ?_) error w' halone⟩
    · cases hf
    · exact absurd hover.past (by decide)

/-- In the last millisecond of the layout the third timestamp has no encoding, and the error comes
after the cursor has moved. -/
theorem failed_allocation_moves_cursor :
    ∃ w', Alone cursorMachine 0 (allocateAfter sampleLayout 0 (sampleArgs (2 ^ 60 - 1))) ⟨0, []⟩
      (.error .tsoOverflow) w' ∧ w'.nextIndex = 2 ^ 61 + 1 := by
  refine ⟨⟨2 ^ 61 + 1, [⟨0, 0, ⟨2 ^ 61 - 2, 2 ^ 61, 2 ^ 61 + 1⟩⟩]⟩, ?_, rfl⟩
  have hrun : (allocateAfter sampleLayout 0 (sampleArgs (2 ^ 60 - 1))).runAlone cursorMachine 0
      (fun _ => ()) ⟨0, []⟩ = some (.error .tsoOverflow,
        ⟨2 ^ 61 + 1, [⟨0, 0, ⟨2 ^ 61 - 2, 2 ^ 61, 2 ^ 61 + 1⟩⟩]⟩) := by
    decide +kernel
  exact .of_runAlone hrun

/-! ### Calls that race -/

structure InOrder (w : CursorWorld) : Prop where
  exchanges : w.exchanges.Pairwise fun e e' => e.reservation.newIndex ≤ e'.oldIndex
  next : ∀ e ∈ w.exchanges, e.reservation.newIndex ≤ w.nextIndex

/-- A block may only be committed behind the cursor it was computed for. -/
def CursorOp.Forward : CursorOp → Prop
  | .compareExchange old r => old ≤ r.newIndex
  | _ => True

lemma exec_inOrder (h : InOrder w) (ho : o.Forward) :
    InOrder (w.exec caller o).2 ∧ w ≤ (w.exec caller o).2 := by
  cases o with
  | load => exact ⟨h, le_rfl⟩
  | fetchMax index =>
    have hle : w.nextIndex ≤ max w.nextIndex index := le_max_left _ _
    exact ⟨⟨h.exchanges, fun e he => (h.next e he).trans hle⟩, hle, prefix_rfl⟩
  | compareExchange old r =>
    simp only [CursorWorld.exec]
    split_ifs with hold
    swap
    · exact ⟨h, le_rfl⟩
    subst hold
    have hforward : w.nextIndex ≤ r.newIndex := ho
    refine ⟨⟨?_, fun e he => ?_⟩, hforward, prefix_append _ _⟩
    · refine pairwise_append.mpr ⟨h.exchanges, pairwise_singleton _ _, ?_⟩
      intro e he e' he'
      rw [mem_singleton.mp he']
      exact h.next e he
    · rcases mem_append.mp he with he | he
      · exact (h.next e he).trans hforward
      · rw [mem_singleton.mp he]
        exact le_rfl

def cursorDiscipline : Discipline cursorMachine where
  Inv := InOrder
  Allowed _ o _ := o.Forward
  exec_inv h ho hexec := by
    obtain ⟨-, rfl⟩ := Prod.mk.inj (Option.some.inj hexec)
    exact (exec_inOrder h ho).1
  exec_le h ho hexec := by
    obtain ⟨-, rfl⟩ := Prod.mk.inj (Option.some.inj hexec)
    exact (exec_inOrder h ho).2
  env_inv {e} := e.elim
  env_le {e} := e.elim

def Backed (L : TimestampLayout) (id : Nat) (args : AllocateArgs) (caller : Nat)
    (result : AllocateAfterResult) (w : CursorWorld) : Prop :=
  ∀ rs, result = .allocated rs → ∃ e ∈ w.exchanges, e.caller = caller ∧ Issued L id args e rs

lemma safe_allocateRounds {tries : Nat} (hcount : 1 ≤ args.count)
    (hfloor : floorIndex L id args.floor = .ok floorIdx) :
    cursorDiscipline.Safe caller (allocateRounds L id args floorIdx tries)
      (OnOk (Backed L id args caller)) w := by
  induction tries generalizing w with
  | zero =>
    intro w1 hle rs hrs
    cases hrs
  | succ tries ih =>
    intro w1 hle hinv
    refine ⟨trivial, fun c old w2 hexec => ?_⟩
    cases hexec
    cases hreserve : reserve L id args floorIdx w1.nextIndex with
    | error e =>
      simp only [Prog.bind, hreserve]
      exact safe_fail
    | ok r =>
      have hreserved := reserve_eq_ok hreserve
      simp only [Prog.bind, hreserve]
      intro w3 hle3 hinv3
      refine ⟨?_, fun c' won w4 hexec' => ?_⟩
      · have hold := hreserved.old_le
        have hnew := hreserved.new_eq
        show w1.nextIndex ≤ r.newIndex
        omega
      have hreply := Option.some.inj hexec'
      simp only [CursorWorld.exec] at hreply
      split_ifs at hreply with hsame
      · -- the exchange is in the log for good
        obtain ⟨rfl, rfl⟩ := Prod.mk.inj hreply
        cases hranges : allocatedRanges L id args.count r.startIndex with
        | error e => exact safe_fail
        | ok rs =>
          intro w5 hle5 rs' hrs'
          cases hrs'
          refine ⟨⟨caller, w1.nextIndex, r⟩, hle5.2.subset ?_, rfl, ?_⟩
          · exact List.mem_append_right _ List.mem_cons_self
          · exact issued_of_reserve hcount hfloor hreserve hranges
      · obtain ⟨rfl, rfl⟩ := Prod.mk.inj hreply
        exact ih

lemma safe_initAfterFloor {floor : Nat} :
    cursorDiscipline.Safe caller (initAfterFloor L id floor) (OnOk fun _ _ => True) w := by
  unfold initAfterFloor
  cases initIndex L id floor with
  | error e => exact safe_fail
  | ok index => exact fun w1 hle hinv => ⟨trivial, fun _ _ _ _ _ _ => trivial⟩

def CallPost (L : TimestampLayout) (id : Nat) (calls : List CursorCall) (caller : Nat)
    (result : Option AllocateAfterResult) (w : CursorWorld) : Prop :=
  ∀ args, calls[caller]? = some (.allocate args) →
    ∀ allocated, result = some allocated → Backed L id args caller allocated w

lemma safe_program {c : CursorCall}
    (hc : calls[i]? = some c) (hcount : ∀ args, c = .allocate args → 1 ≤ args.count)
    (hinv : InOrder w) :
    cursorDiscipline.Safe i (c.program L id) (OnOk (CallPost L id calls i)) w := by
  cases c with
  | init floor =>
    refine Safe.bind safe_initAfterFloor hinv fun _ w1 _ _ _ => ?_
    refine safe_pure fun w2 h2 args hargs => ?_
    cases hc.symm.trans hargs
  | allocate args =>
    have hsafe : cursorDiscipline.Safe i (allocateAfter L id args)
        (OnOk (Backed L id args i)) w := by
      unfold allocateAfter
      cases hfloor : floorIndex L id args.floor with
      | error e => exact safe_fail
      | ok floorIdx => exact safe_allocateRounds (hcount args rfl) hfloor
    refine Safe.bind hsafe hinv fun result w1 _ _ hbacked => ?_
    refine safe_pure fun w2 h2 args' hargs allocated hallocated rs hrs => ?_
    rw [hc, Option.some.injEq, CursorCall.allocate.injEq] at hargs
    subst hargs
    cases hallocated
    obtain ⟨e, he, hcaller, hissued⟩ := hbacked rs hrs
    exact ⟨e, h2.2.subset he, hcaller, hissued⟩

def startCalls (L : TimestampLayout) (id nextIndex : Nat) (calls : List CursorCall) :
    Sys cursorSig Nat CursorWorld TsoError (Option AllocateAfterResult) where
  world := ⟨nextIndex, []⟩
  threads := calls.mapIdx fun i c => ⟨i, c.program L id⟩

abbrev CursorRun (L : TimestampLayout) (id nextIndex : Nat) (calls : List CursorCall) :
    Sys cursorSig Nat CursorWorld TsoError (Option AllocateAfterResult) → Prop :=
  Reach cursorMachine (fun _ (entry : Empty) => entry.elim) .free
    (startCalls L id nextIndex calls)

lemma CursorRun.holds
    (hcount : ∀ args, .allocate args ∈ calls → 1 ≤ args.count) (h : CursorRun L id n calls s) :
    cursorDiscipline.Holds (fun i => OnOk (CallPost L id calls i)) s := by
  refine Discipline.Holds.reach ?_ (fun _ entry => entry.elim) h
  have hinv : InOrder (startCalls L id n calls).world := by
    refine ⟨List.Pairwise.nil, fun e he => ?_⟩
    cases he
  refine ⟨hinv, fun t ht => ?_⟩
  obtain ⟨i, hi, rfl⟩ := mem_mapIdx.mp ht
  have hcall : calls[i]? = some calls[i] := getElem?_eq_getElem hi
  refine safe_program hcall (fun args hargs => hcount args ?_) hinv
  exact mem_of_getElem? (hargs ▸ hcall)

def returnedRanges (s : Sys cursorSig Nat CursorWorld TsoError (Option AllocateAfterResult))
    (i : Nat) : Option (List TimestampRange) :=
  s.threads.findSome? fun t =>
    match t.prog with
    | .ret (some (.allocated rs)) => if t.actor = i then some rs else none
    | _ => none

lemma mem_threads_of_returnedRanges
    (h : returnedRanges s i = some rs) : ⟨i, .ret (some (.allocated rs))⟩ ∈ s.threads := by
  obtain ⟨⟨actor, prog⟩, ht, heq⟩ := exists_of_findSome?_eq_some h
  simp only at heq
  split at heq
  · split_ifs at heq with hactor
    cases heq
    exact hactor ▸ ht
  · cases heq

lemma CursorRun.issued
    (hcount : ∀ args, .allocate args ∈ calls → 1 ≤ args.count) (h : CursorRun L id n calls s)
    (hcall : calls[i]? = some (.allocate args)) (hreturned : returnedRanges s i = some rs) :
    ∃ e ∈ s.world.exchanges, e.caller = i ∧ Issued L id args e rs :=
  (CursorRun.holds hcount h).post (mem_threads_of_returnedRanges hreturned) args hcall _ rfl rs rfl

/-- By itself, a call that allocates hands out the block it promises and leaves the cursor behind
it. Whatever calls race, each one that returns ranges has made an exchange whose block they are,
different calls return disjoint ranges, and the blocks increase in the order of the exchanges. -/
theorem allocate_after_linear : (∀ caller args w rs w', 1 ≤ args.count →
      Alone cursorMachine caller (allocateAfter L id args) w (.ok (.allocated rs)) w' →
      ∃ e, e.oldIndex = w.nextIndex ∧ w'.nextIndex = e.reservation.newIndex ∧
        Issued L id args e rs) ∧
    ∀ n calls s, (∀ args, .allocate args ∈ calls → 1 ≤ args.count) → CursorRun L id n calls s →
      (∀ i args rs, calls[i]? = some (.allocate args) → returnedRanges s i = some rs →
        ∃ e ∈ s.world.exchanges, e.caller = i ∧ Issued L id args e rs) ∧
      (∀ i j args args' rs rs', i ≠ j → calls[i]? = some (.allocate args) →
        calls[j]? = some (.allocate args') → returnedRanges s i = some rs →
        returnedRanges s j = some rs' → (timestamps rs).Disjoint (timestamps rs')) ∧
      s.world.exchanges.Pairwise fun e e' => ∀ args args' rs rs', Issued L id args e rs →
        Issued L id args' e' rs' → ∀ t ∈ timestamps rs, ∀ t' ∈ timestamps rs', t < t' := by
  refine ⟨fun caller args w rs w' hcount h => ?_, fun n calls s hcount h => ?_⟩
  · rcases alone_allocateAfter.mp h with ⟨e, -, hout, -⟩ | ⟨floorIdx, hfloor, h⟩
    · cases hout
    rcases h with ⟨e, -, hout, -⟩ | ⟨r, hreserve, hout, rfl⟩
    · cases hout
    cases hranges : allocatedRanges L id args.count r.startIndex with
    | error e =>
      rw [hranges] at hout
      cases hout
    | ok rs' =>
      rw [hranges] at hout
      cases Except.ok.inj hout
      exact ⟨⟨caller, w.nextIndex, r⟩, rfl, rfl, issued_of_reserve hcount hfloor hreserve hranges⟩
  · have hissued : ∀ i args rs, calls[i]? = some (.allocate args) → returnedRanges s i = some rs →
        ∃ e ∈ s.world.exchanges, e.caller = i ∧ Issued L id args e rs :=
      fun _ _ _ hcall hreturned => CursorRun.issued hcount h hcall hreturned
    have hordered : s.world.exchanges.Pairwise fun e e' => ∀ args args' rs rs',
        Issued L id args e rs → Issued L id args' e' rs' →
        ∀ t ∈ timestamps rs, ∀ t' ∈ timestamps rs', t < t' :=
      (CursorRun.holds hcount h).inv.exchanges.imp fun horder _ _ _ _ he he' =>
        he.lt_of_exchanged he' horder
    refine ⟨hissued, fun i j args args' rs rs' hne hi hj hrs hrs' => ?_, hordered⟩
    -- different callers made different exchanges, and one of the two came first
    obtain ⟨e, he, hcaller, hblock⟩ := hissued i args rs hi hrs
    obtain ⟨e', he', hcaller', hblock'⟩ := hissued j args' rs' hj hrs'
    have hdiffer : e ≠ e' := fun heq => hne (by rw [← hcaller, ← hcaller', heq])
    have hapart : (∀ t ∈ timestamps rs, ∀ t' ∈ timestamps rs', t < t') ∨
        ∀ t' ∈ timestamps rs', ∀ t ∈ timestamps rs, t' < t := by
      have hpair := List.pairwise_iff_getElem.mp hordered
      obtain ⟨k, hk, rfl⟩ := List.mem_iff_getElem.mp he
      obtain ⟨l, hl, rfl⟩ := List.mem_iff_getElem.mp he'
      rcases Nat.lt_trichotomy k l with hlt | rfl | hlt
      · exact .inl (hpair k l hk hl hlt _ _ _ _ hblock hblock')
      · exact absurd rfl hdiffer
      · exact .inr (hpair l k hl hk hlt _ _ _ _ hblock' hblock)
    intro t ht ht'
    rcases hapart with hlt | hlt
    · exact lt_irrefl t (hlt t ht t ht')
    · exact lt_irrefl t (hlt t ht' t ht)

def raceCalls : List CursorCall := [.allocate (sampleArgs 15), .init 200, .allocate (sampleArgs 14)]

lemma count_of_mem_raceCalls {args : AllocateArgs} (h : .allocate args ∈ raceCalls) :
    1 ≤ args.count := by
  simp only [raceCalls, mem_cons, CursorCall.allocate.injEq, reduceCtorEq, false_or,
    not_mem_nil, or_false] at h
  rcases h with rfl | rfl <;> decide

/-- The first call loads the cursor before the floor and the last call move it, so it loses its
first exchange. -/
theorem allocate_after_linear_race : ∃ s, CursorRun sampleLayout 0 7 raceCalls s ∧
      returnedRanges s 0 = some [⟨241, 241⟩, ⟨256, 257⟩] ∧
      returnedRanges s 2 = some [⟨224, 225⟩, ⟨240, 240⟩] ∧
      (timestamps [⟨241, 241⟩, ⟨256, 257⟩]).Disjoint (timestamps [⟨224, 225⟩, ⟨240, 240⟩]) := by
  have hrun : (script cursorMachine (fun _ (entry : Empty) => entry.elim) .free (fun _ => ())
      [.drive 0 1, .drive 1 1, .drive 2 2, .drive 0 3]
      (startCalls sampleLayout 0 7 raceCalls)).any (fun s => decide
        (returnedRanges s 0 = some [⟨241, 241⟩, ⟨256, 257⟩] ∧
          returnedRanges s 2 = some [⟨224, 225⟩, ⟨240, 240⟩])) = true := by
    decide +kernel
  obtain ⟨s, hs, hranges⟩ := Reach.exists_of_script hrun
  obtain ⟨hfirst, hlast⟩ := of_decide_eq_true hranges
  exact ⟨s, hs, hfirst, hlast, (allocate_after_linear.2 7 raceCalls s
    (fun _ => count_of_mem_raceCalls) hs).2.1 0 2 (sampleArgs 15) (sampleArgs 14) _ _ (by decide)
    rfl rfl hfirst hlast⟩

/-! ### The last issued timestamp -/

lemma currentLastIssuedTso_eq {last : Nat}
    (h : currentLastIssuedTso L id n = .ok (some last)) : ∃ k, n = k + 1 ∧ last = L.tsoAt id k := by
  unfold currentLastIssuedTso at h
  split_ifs at h with hn
  · cases h
  split at h
  · next tso htso =>
    cases h
    exact ⟨n - 1, by omega, (encode_index_eq_ok.mp htso).2.2.2.symm⟩
  · cases h

lemma CursorRun.exchange_cut {s' : Sys cursorSig Nat CursorWorld TsoError _}
    (hcount : ∀ args, .allocate args ∈ calls → 1 ≤ args.count) (h : CursorRun L id n calls s)
    (h' : Reach cursorMachine (fun _ (entry : Empty) => entry.elim) .free s s') :
    ∀ e ∈ s'.world.exchanges, e ∈ s.world.exchanges ∨ s.world.nextIndex ≤ e.oldIndex := by
  have hcut : s.world ≤ s'.world ∧
      ∀ e ∈ s'.world.exchanges, e ∈ s.world.exchanges ∨ s.world.nextIndex ≤ e.oldIndex := by
    refine (CursorRun.holds hcount h).invariant (I := fun w => s.world ≤ w ∧
      ∀ e ∈ w.exchanges, e ∈ s.world.exchanges ∨ s.world.nextIndex ≤ e.oldIndex)
      ⟨le_rfl, fun e he => .inl he⟩ (fun _ entry => entry.elim) ?_ (fun e => e.elim) h'
    rintro a o c w r w' hinv ⟨hle, hcut⟩ hforward - hexec
    obtain ⟨-, rfl⟩ := Prod.mk.inj (Option.some.inj hexec)
    refine ⟨hle.trans (exec_inOrder hinv hforward).2, ?_⟩
    cases o with
    | compareExchange old r =>
      dsimp only
      split_ifs with hold
      · intro e he
        rcases mem_append.mp he with he | he
        · exact hcut e he
        · rw [mem_singleton.mp he]
          exact .inr (hle.1.trans hold.le)
      · exact hcut
    | _ => exact hcut
  exact hcut.2

/-- The last issued timestamp that is reported at some moment cuts the run: what had been returned
is not above it, and no call, whenever it ends, is given timestamps on both sides of it. -/
theorem last_issued_cut {last : Nat}
    (hcount : ∀ args, .allocate args ∈ calls → 1 ≤ args.count) (h : CursorRun L id n calls s)
    (hlast : currentLastIssuedTso L id s.world.nextIndex = .ok (some last)) :
    (∀ i args rs, calls[i]? = some (.allocate args) → returnedRanges s i = some rs →
      ∀ t ∈ timestamps rs, t ≤ last) ∧
    ∀ s', Reach cursorMachine (fun _ (entry : Empty) => entry.elim) .free s s' →
      ∀ i args rs, calls[i]? = some (.allocate args) → returnedRanges s' i = some rs →
        (∀ t ∈ timestamps rs, t ≤ last) ∨ ∀ t ∈ timestamps rs, last < t := by
  obtain ⟨k, hk, rfl⟩ := currentLastIssuedTso_eq hlast
  have hbefore : ∀ e ∈ s.world.exchanges, ∀ args rs, Issued L id args e rs →
      ∀ t ∈ timestamps rs, t ≤ L.tsoAt id k := by
    intro e he args rs hissued t ht
    obtain ⟨-, hlt, heq⟩ := hissued.index_mem ht
    have hnext := (CursorRun.holds hcount h).inv.next e he
    rw [heq, tsoAt_le_tsoAt]
    omega
  refine ⟨fun i args rs hcall hrs => ?_, fun s' h' i args rs hcall hrs => ?_⟩
  · obtain ⟨e, he, -, hissued⟩ := CursorRun.issued hcount h hcall hrs
    exact hbefore e he args rs hissued
  · have hholds := (CursorRun.holds hcount h).reach (fun _ entry => entry.elim) h'
    obtain ⟨e, he, -, hissued⟩ :=
      hholds.post (mem_threads_of_returnedRanges hrs) args hcall _ rfl rs rfl
    rcases CursorRun.exchange_cut hcount h h' e he with hold | hnew
    · exact .inl (hbefore e hold args rs hissued)
    · refine .inr fun t ht => ?_
      obtain ⟨hle, -, heq⟩ := hissued.index_mem ht
      rw [heq, tsoAt_lt_tsoAt]
      omega

/-- The last call has returned when the last issued timestamp is read; the first one, which has
loaded the cursor long before, is given timestamps above it. -/
theorem last_issued_cut_sample : ∃ s s', CursorRun sampleLayout 0 7 raceCalls s ∧
    Reach cursorMachine (fun _ (entry : Empty) => entry.elim) .free s s' ∧
    returnedRanges s 2 = some [⟨224, 225⟩, ⟨240, 240⟩] ∧
    returnedRanges s' 0 = some [⟨241, 241⟩, ⟨256, 257⟩] ∧
    (∀ t ∈ timestamps [⟨224, 225⟩, ⟨240, 240⟩], t ≤ 240) ∧
    ((∀ t ∈ timestamps [⟨241, 241⟩, ⟨256, 257⟩], t ≤ 240) ∨
      ∀ t ∈ timestamps [⟨241, 241⟩, ⟨256, 257⟩], 240 < t) := by
  have hrun : (script cursorMachine (fun _ (entry : Empty) => entry.elim) .free (fun _ => ())
      [.drive 0 1, .drive 1 1, .drive 2 2] (startCalls sampleLayout 0 7 raceCalls)).any (fun s =>
        (script cursorMachine (fun _ (entry : Empty) => entry.elim) .free (fun _ => ())
          [.drive 0 3] s).any (fun s' => decide
            (returnedRanges s 2 = some [⟨224, 225⟩, ⟨240, 240⟩] ∧
              currentLastIssuedTso sampleLayout 0 s.world.nextIndex = .ok (some 240) ∧
              returnedRanges s' 0 = some [⟨241, 241⟩, ⟨256, 257⟩]))) = true := by
    decide +kernel
  obtain ⟨s, hs, hrest⟩ := Reach.exists_of_script hrun
  obtain ⟨s', hs', hst⟩ := Reach.exists_of_script hrest
  obtain ⟨hreturned, hlast, hreturned'⟩ := of_decide_eq_true hst
  obtain ⟨hbefore, hcut⟩ := last_issued_cut (fun _ => count_of_mem_raceCalls) hs hlast
  exact ⟨s, s', hs, hs', hreturned, hreturned', hbefore 2 (sampleArgs 14) _ rfl hreturned,
    hcut s' hs' 0 (sampleArgs 15) _ rfl hreturned'⟩

end Chronos.Generator
