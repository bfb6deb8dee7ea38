import Chronos.Properties.TakeoverWindow

/-! The two checks of the recovery catch-up budget. A transfer measures the jump from the last floor
of the target generator, and an unused generator has none; an activation measures how far the floor
is ahead of the clock. -/

namespace Chronos

open Interleaving

variable {C : Cluster} {p g floor : Nat} {w : World}

def heldFloor (C : Cluster) (p g : Nat) (w : World) : Except TsoError (Option Nat) := do
  C.ensureGeneratorIdRange g
  let localLast ← Generator.currentLastIssuedTso C.layout g (w.runtime p g).nextIndex
  return Floor.mergeMax localLast ((w.generatorRecord g).bind fun x =>
    generatorRecoveryFloorTso x.1)

def refusesActivation (C : Cluster) (p nowMs floor : Nat) : Bool :=
  (C.layout.decode floor).physicalMs >
    U64.saturatingAdd nowMs (C.worker p).recoveryCatchupBudgetMs

def transferCheck (C : Cluster) (p g floor : Nat) (w : World) : Option (Except TsoError Unit) :=
  ((validateRecoveryCatchupBudgetForTarget C p g (some floor)).runAlone
    (machine C) p Op.usual w).map
    Prod.fst

/-- A floor that passes the check of a transfer is not refused by the activation at the same time,
and a floor whose successor is not ahead of the clock is not rejected for the budget. -/
def BudgetChecksAgree (C : Cluster) (p g floor : Nat) (w : World) : Prop :=
  (transferCheck C p g floor w = some (.ok ()) → refusesActivation C p (w.clock p) floor = false) ∧
    ∀ cursor, nextCursorAfterWithLayout C.layout floor g = .ok cursor →
      cursor.physicalMs ≤ w.clock p → ∀ jump budget,
        transferCheck C p g floor w ≠ some (.error (.recoveryCatchupBudgetExceeded g jump budget))

lemma runAlone_currentGeneratorFloor :
    (currentGeneratorFloor C g).runAlone (machine C) p Op.usual w =
      some (heldFloor C p g w, w) := by
  unfold currentGeneratorFloor heldFloor currentLastIssuedTso
  cases C.ensureGeneratorIdRange g with
  | error e => rfl
  | ok =>
    show ((Prog.ofExcept (Generator.currentLastIssuedTso C.layout g (w.runtime p g).nextIndex)).bind
      _).runAlone (machine C) p Op.usual w = _
    cases Generator.currentLastIssuedTso C.layout g (w.runtime p g).nextIndex <;> rfl

lemma heldFloor_ne_budget (jump budget : Nat) :
    heldFloor C p g w ≠ .error (.recoveryCatchupBudgetExceeded g jump budget) := by
  have hencode : ∀ ms sequence, C.layout.encode ms g sequence ≠
      .error (.recoveryCatchupBudgetExceeded g jump budget) := by
    intro ms sequence
    unfold TimestampLayout.encode
    split
    · exact nofun
    · split_ifs <;> exact nofun
  have hlast : Generator.currentLastIssuedTso C.layout g (w.runtime p g).nextIndex ≠
      .error (.recoveryCatchupBudgetExceeded g jump budget) := by
    unfold Generator.currentLastIssuedTso
    split_ifs
    · exact nofun
    split
    · exact nofun
    · next e herror => exact fun h => hencode _ _ (herror.trans (congrArg _ (Except.error.inj h)))
  unfold heldFloor Cluster.ensureGeneratorIdRange
  split_ifs
  · exact nofun
  cases hheld : Generator.currentLastIssuedTso C.layout g (w.runtime p g).nextIndex with
  | ok localLast => exact nofun
  | error e => exact fun h => hlast (hheld.trans (congrArg _ (Except.error.inj h)))

lemma transferCheck_eq : transferCheck C p g floor w = some (match heldFloor C p g w with
      | .error e => .error e
      | .ok none => .ok ()
      | .ok (some current) =>
        match nextCursorAfterWithLayout C.layout floor g with
        | .error e => .error e
        | .ok cursor =>
          let jump := cursor.physicalMs - (C.layout.decode current).physicalMs
          let budget := (C.worker p).recoveryCatchupBudgetMs
          if jump ≤ budget then .ok ()
          else .error (.recoveryCatchupBudgetExceeded g jump budget)) := by
  have hjump : (requiredJumpMsForGenerator C g floor).runAlone (machine C) p Op.usual w =
      some (match heldFloor C p g w with
        | .error e => .error e
        | .ok none => .ok 0
        | .ok (some current) => (nextCursorAfterWithLayout C.layout floor g).map fun cursor =>
          cursor.physicalMs - (C.layout.decode current).physicalMs, w) := by
    unfold requiredJumpMsForGenerator
    rw [Prog.runAlone_bind runAlone_currentGeneratorFloor]
    cases heldFloor C p g w with
    | error e => rfl
    | ok held =>
      cases held with
      | none => rfl
      | some current => cases nextCursorAfterWithLayout C.layout floor g <;> rfl
  unfold transferCheck validateRecoveryCatchupBudgetForTarget
  rw [Prog.runAlone_bind hjump]
  cases heldFloor C p g w with
  | error e => rfl
  | ok held =>
    cases held with
    | none => rfl
    | some current =>
      cases nextCursorAfterWithLayout C.layout floor g with
      | error e => rfl
      | ok cursor =>
        show ((if _ then _ else _ : Service Unit).runAlone (machine C) p Op.usual w).map
          Prod.fst = _
        dsimp only
        split_ifs <;> rfl

/-- The checks agree exactly if a floor that is further ahead of the clock than the budget is also
more than the budget ahead of a floor of the target generator, and one that is not ahead of the
clock is at most the budget ahead of every floor of the target generator. -/
theorem budget_checks_agree_iff (C : Cluster) (p g floor : Nat) (w : World) :
    BudgetChecksAgree C p g floor w ↔ ∀ held, heldFloor C p g w = .ok held →
        let budget := (C.worker p).recoveryCatchupBudgetMs
        ((C.layout.decode floor).physicalMs > U64.saturatingAdd (w.clock p) budget →
          ∃ current, held = some current ∧
            ∀ cursor, nextCursorAfterWithLayout C.layout floor g = .ok cursor →
              (C.layout.decode current).physicalMs + budget < cursor.physicalMs) ∧
        ∀ cursor, nextCursorAfterWithLayout C.layout floor g = .ok cursor →
          cursor.physicalMs ≤ w.clock p → ∀ current, held = some current →
            cursor.physicalMs ≤ (C.layout.decode current).physicalMs + budget := by
  unfold BudgetChecksAgree refusesActivation
  rw [transferCheck_eq]
  have hother := heldFloor_ne_budget (C := C) (p := p) (g := g) (w := w)
  revert hother
  cases heldFloor C p g w with
  | error e => simp +contextual
  | ok held =>
    intro _
    cases held with
    | none => simp
    | some current =>
      cases nextCursorAfterWithLayout C.layout floor g with
      | error e => simp
      | ok cursor =>
        dsimp only
        split_ifs with hjump
        · simp
          omega
        · simp
          omega

def idleWorld (now nextIndex : Nat) : World :=
  { World.initial fun _ => now with runtime := fun _ _ => { nextIndex } }

theorem budget_checks_agree_sample : heldFloor sampleCluster 0 2 (idleWorld 500 1) = .ok (some 4) ∧
      BudgetChecksAgree sampleCluster 0 2 8000 (idleWorld 500 1) := by
  refine ⟨by decide +kernel, (budget_checks_agree_iff sampleCluster 0 2 8000 _).mpr ?_⟩
  intro held hheld
  obtain rfl : held = some 4 := Except.ok.inj (hheld.symm.trans (by decide +kernel))
  have hcursor : nextCursorAfterWithLayout sampleCluster.layout 8000 2 = .ok ⟨500, 0⟩ := by
    decide +kernel
  refine ⟨fun hahead => absurd hahead (by decide +kernel),
    fun cursor hcursor' _ current hcurrent => ?_⟩
  cases hcursor.symm.trans hcursor'
  cases hcurrent
  decide +kernel

/-- A floor five seconds ahead of the clock passes the check for an unused generator, and its
activation is refused; a floor behind the clock is rejected for a generator that has been idle. -/
theorem budget_checks_disagree :
    transferCheck sampleCluster 0 2 80000 (idleWorld 0 0) = some (.ok ()) ∧
    refusesActivation sampleCluster 0 0 80000 = true ∧
    (nextCursorAfterWithLayout sampleCluster.layout 80000 2).map Cursor.physicalMs = .ok 5000 ∧
    transferCheck sampleCluster 0 2 80000 (idleWorld 9000 1) =
      some (.error (.recoveryCatchupBudgetExceeded 2 5000 1000)) := by
  decide +kernel

end Chronos
