import Chronos.Interleaving.Tenure
import Chronos.Types

/-! Claims and releases of one dedicated generator by concurrent tasks. -/

namespace Chronos

open Interleaving Interleaving.Tenure

/-- The entry of the generator in `dedicated_claims`. For the conditions on runs, `lookups` holds
the releases that have found their claim and not removed it yet, and `removed` for each removal the
timeline that it was made for and the holder of the claim. -/
structure ClaimWorld where
  holder : Option String
  lookups : List (Nat × String)
  tickets : Nat
  removed : List (String × String)
  deriving DecidableEq

def ClaimWorld.initial (holder : Option String) : ClaimWorld := ⟨holder, [], 0, []⟩

/-- The operations on the map. A lookup carries the timeline that it is made for, and answers with
the holder and a ticket. -/
inductive ClaimOp where
  | entry (timelineKey : String)
  | get (timelineKey : String)
  | remove (timelineKey : String) (ticket : Nat)
  deriving DecidableEq

@[reducible] def ClaimOp.Reply : ClaimOp → Type
  | .entry _ => Option String
  | .get _ => Option String × Nat
  | .remove .. => Unit

abbrev claimSig : Signature := ⟨ClaimOp, ClaimOp.Reply⟩

namespace ClaimWorld

variable (w : ClaimWorld)

def act : (o : ClaimOp) → o.Reply × ClaimWorld
  | .entry timelineKey =>
    match w.holder with
    | some holder => (some holder, w)
    | none => (none, { w with holder := some timelineKey })
  | .get timelineKey =>
    ((w.holder, w.tickets), { w with
      lookups := if w.holder = some timelineKey then (w.tickets, timelineKey) :: w.lookups
        else w.lookups
      tickets := w.tickets + 1 })
  | .remove timelineKey ticket =>
    ((), { w with
      holder := none
      lookups := w.lookups.filter fun lookup => lookup.1 ≠ ticket
      removed := (w.holder.map fun holder => (timelineKey, holder)).toList ++ w.removed })

end ClaimWorld

def claimMachine : Machine claimSig Unit Unit Empty ClaimWorld where
  exec _ o _ w := some (w.act o)
  env e _ := nomatch e

abbrev ClaimProg := Prog claimSig TsoError

abbrev onClaims (o : ClaimOp) : ClaimProg o.Reply := @Prog.op claimSig TsoError o

def claimDedicatedEntry (timelineKey : String) : ClaimProg Bool := do
  match ← onClaims (.entry timelineKey) with
  | some holder => if holder ≠ timelineKey then .fail .generatorPoolExhausted else return false
  | none => return true

def releaseDedicatedEntry (timelineKey : String) : ClaimProg Bool := do
  match ← onClaims (.get timelineKey) with
  | (some holder, ticket) =>
    if holder = timelineKey then do
      onClaims (.remove timelineKey ticket)
      return true
    else return false
  | (none, _) => return false

inductive ClaimCall where
  | claim (timelineKey : String)
  | release (timelineKey : String)
  deriving DecidableEq

def claimCode (_ : Unit) : ClaimCall → ClaimProg Bool
  | .claim timelineKey => claimDedicatedEntry timelineKey
  | .release timelineKey => releaseDedicatedEntry timelineKey

abbrev ClaimGuard := Guard claimSig Unit Unit Empty ClaimWorld ClaimCall

abbrev ClaimRun (G : ClaimGuard) (holder : Option String) :
    Sys claimSig Unit ClaimWorld TsoError Bool → Prop :=
  Reach claimMachine claimCode G ⟨.initial holder, []⟩

/-- A release looks the claim up only while no other release for the same timeline is between its
lookup and its removal. -/
def releasesApart : ClaimGuard where
  op _ o _ w := match o with
    | .get timelineKey => ∀ lookup ∈ w.lookups, lookup.2 ≠ timelineKey
    | _ => True

section

variable {w w' : ClaimWorld}

instance : Preorder ClaimWorld where
  le w w' := w.tickets ≤ w'.tickets
  le_refl w := le_rfl
  le_trans _ _ _ h h' := le_trans h h'

lemma ClaimWorld.act_cases {o : ClaimOp} (h : (w.act o).2 = w') : w' = w ∨
    (∃ timelineKey, o = .entry timelineKey ∧ w.holder = none ∧
      w' = { w with holder := some timelineKey }) ∨
    (∃ timelineKey, o = .get timelineKey ∧ w.holder ≠ some timelineKey ∧
      w' = { w with tickets := w.tickets + 1 }) ∨
    (∃ timelineKey, o = .get timelineKey ∧ w.holder = some timelineKey ∧
      w' = { w with lookups := (w.tickets, timelineKey) :: w.lookups, tickets := w.tickets + 1 }) ∨
    ∃ timelineKey ticket, o = .remove timelineKey ticket ∧ w' = { w with
        holder := none
        lookups := w.lookups.filter fun lookup => lookup.1 ≠ ticket
        removed := (w.holder.map fun holder => (timelineKey, holder)).toList ++ w.removed } := by
  subst h
  cases o with
  | entry timelineKey =>
    cases hholder : w.holder with
    | some holder => exact .inl (by simp [act, hholder])
    | none => exact .inr (.inl ⟨timelineKey, rfl, rfl, by simp [act, hholder]⟩)
  | get timelineKey =>
    by_cases hmine : w.holder = some timelineKey
    · exact .inr (.inr (.inr (.inl ⟨timelineKey, rfl, hmine, by simp [act, hmine]⟩)))
    · exact .inr (.inr (.inl ⟨timelineKey, rfl, hmine, by simp [act, hmine]⟩))
  | remove timelineKey ticket => exact .inr (.inr (.inr (.inr ⟨timelineKey, ticket, rfl, rfl⟩)))

def ClaimAllowed : ClaimOp → ClaimWorld → Prop
  | .remove timelineKey ticket, w => (ticket, timelineKey) ∈ w.lookups
  | _, _ => True

def claimUses : ClaimOp → Option Nat
  | .remove _ ticket => some ticket
  | _ => none

def claimGrants : (o : ClaimOp) → o.Reply → Option Nat
  | .get _, (_, ticket) => some ticket
  | _, _ => none

def LookupKept (ticket : Nat) (w w' : ClaimWorld) : Prop :=
  ∀ timelineKey, (ticket, timelineKey) ∈ w.lookups → (ticket, timelineKey) ∈ w'.lookups

def claimTenure : Tenure claimMachine Nat where
  Inv _ := True
  Allowed := ClaimAllowed
  Issued w ticket := ticket < w.tickets
  uses := claimUses
  grants := claimGrants
  Keeps := LookupKept
  issued_mono hle h := lt_of_lt_of_le h hle
  keeps_refl _ _ _ h := h
  keeps_trans h h' timelineKey hmem := h' timelineKey (h timelineKey hmem)
  exec_inv _ _ _ := trivial
  exec_le _ _ hexec := by
    obtain rfl | ⟨_, -, -, rfl⟩ | ⟨_, -, -, rfl⟩ | ⟨_, -, -, rfl⟩ | ⟨_, _, -, rfl⟩ :=
      ClaimWorld.act_cases (congrArg Prod.snd (Option.some.inj hexec))
    · exact le_rfl
    · exact Nat.le_refl _
    · exact Nat.le_succ _
    · exact Nat.le_succ _
    · exact Nat.le_refl _
  exec_keeps _ _ hexec huses := by
    intro timelineKey hmem
    obtain rfl | ⟨_, -, -, rfl⟩ | ⟨_, -, -, rfl⟩ | ⟨_, -, -, rfl⟩ | ⟨_, ticket, rfl, rfl⟩ :=
      ClaimWorld.act_cases (congrArg Prod.snd (Option.some.inj hexec))
    · exact hmem
    · exact hmem
    · exact hmem
    · exact List.mem_cons_of_mem _ hmem
    · refine List.mem_filter.mpr ⟨hmem, decide_eq_true fun heq => huses ?_⟩
      exact congrArg some heq.symm
  exec_grants {a o c w r w' t} hexec hgrants := by
    cases o with
    | get timelineKey =>
      obtain ⟨rfl, rfl⟩ := Prod.mk.inj (Option.some.inj hexec)
      obtain rfl := Option.some.inj hgrants
      exact ⟨Nat.lt_irrefl _, Nat.lt_succ_self _⟩
    | entry timelineKey => cases hgrants
    | remove timelineKey ticket => cases hgrants
  env_inv {e} := e.elim
  env_le {e} := e.elim
  env_keeps {e} := e.elim

structure ClaimSettled (w : ClaimWorld) : Prop where
  lookups : ∀ lookup ∈ w.lookups, w.holder = some lookup.2
  single : w.lookups.length ≤ 1
  removed : ∀ removal ∈ w.removed, removal.1 = removal.2

lemma ClaimSettled.act {o : ClaimOp} (h : ClaimSettled w) (hallowed : ClaimAllowed o w)
    (hguard : releasesApart.op () o () w) (hact : (w.act o).2 = w') : ClaimSettled w' := by
  obtain rfl | ⟨_, rfl, hvacant, rfl⟩ | ⟨_, rfl, -, rfl⟩ | ⟨tk, rfl, hmine, rfl⟩ |
    ⟨tk, ticket, rfl, rfl⟩ := ClaimWorld.act_cases hact
  · exact h
  · refine ⟨fun look hlook => ?_, h.single, h.removed⟩
    have hholder := h.lookups look hlook
    cases hvacant.symm.trans hholder
  · exact ⟨h.lookups, h.single, h.removed⟩
  · -- an open lookup would be one for the same timeline
    have hnone : w.lookups = [] := by
      refine List.eq_nil_iff_forall_not_mem.mpr fun look hlook => ?_
      have hsame := (h.lookups look hlook).symm.trans hmine
      exact hguard look hlook (Option.some.inj hsame)
    refine ⟨fun look hlook => ?_, ?_, h.removed⟩
    · rw [hnone] at hlook
      rw [List.mem_singleton.mp hlook]
      exact hmine
    · rw [hnone]
      exact le_rfl
  · have hlook : (ticket, tk) ∈ w.lookups := hallowed
    have hmine : w.holder = some tk := h.lookups _ hlook
    have honly : w.lookups = [(ticket, tk)] := by
      obtain ⟨only, honly⟩ : ∃ only, w.lookups = [only] :=
        List.length_eq_one_iff.mp (le_antisymm h.single (List.length_pos_of_mem hlook))
      rw [honly, List.mem_singleton] at hlook
      rw [honly, hlook]
    refine ⟨fun look hrest => ?_, ?_, fun removal hremoval => ?_⟩
    · simp [honly] at hrest
    · simp [honly]
    rw [hmine] at hremoval
    rcases List.mem_cons.mp hremoval with rfl | hold
    · rfl
    · exact h.removed removal hold

end

lemma claimSafe_claim (tk : String) (w : ClaimWorld) :
    claimTenure.Safe () (claimDedicatedEntry tk) ∅ (OnOk fun _ _ _ => True) w := by
  intro w1 _ _
  refine ⟨fun t ht => (by cases ht), trivial, fun c r w2 _ => ?_⟩
  cases r with
  | none => exact fun _ _ => trivial
  | some holder =>
    simp only [Prog.bind]
    split
    · exact fun _ _ => trivial
    · exact fun _ _ => trivial

lemma claimSafe_release (tk : String) (w : ClaimWorld) :
    claimTenure.Safe () (releaseDedicatedEntry tk) ∅ (OnOk fun _ _ _ => True) w := by
  intro w1 _ _
  refine ⟨fun t ht => (by cases ht), trivial, fun c r w2 hexec => ?_⟩
  cases hexec
  cases hholder : w1.holder with
  | none => exact fun _ _ => trivial
  | some holder =>
    simp only [Prog.bind]
    split
    · next hmine =>
      subst hmine
      intro w3 hrely _
      have hopen := hrely.2 w1.tickets (.inr rfl) holder (by simp)
      refine ⟨fun t ht => ?_, hopen, fun _ _ _ _ _ _ => trivial⟩
      cases ht
      exact .inr rfl
    · exact fun _ _ => trivial

/-- In every run of claims and releases in which no two releases for one timeline overlap, a release
removes only claims of the timeline that it is called for. -/
theorem releases_remove_own_claims (holder : Option String)
    {s : Sys claimSig Unit ClaimWorld TsoError Bool} (h : ClaimRun releasesApart holder s) :
    ∀ removal ∈ s.world.removed, removal.1 = removal.2 := by
  have hcode : ∀ (a : Unit) (e : ClaimCall) w, claimTenure.Inv w → releasesApart.entry a e →
      claimTenure.Safe a (claimCode a e) ∅ (OnOk fun _ _ _ => True) w := by
    intro a e w _ _
    cases e with
    | claim tk => exact claimSafe_claim tk w
    | release tk => exact claimSafe_release tk w
  have hsettled : ClaimSettled (.initial holder) := ⟨by simp [ClaimWorld.initial],
    Nat.zero_le _, by simp [ClaimWorld.initial]⟩
  have hfinal : ClaimSettled s.world := by
    refine reach_invariant trivial hsettled hcode ?_ (fun e => e.elim) h
    intro _ o _ w r w' _ hw hallowed hguard hexec
    exact hw.act hallowed hguard (congrArg Prod.snd (Option.some.inj hexec))
  exact hfinal.removed

instance : releasesApart.Checked where
  op _ o _ w :=
    match o with
    | .get timelineKey =>
      inferInstanceAs (Decidable (∀ lookup ∈ w.lookups, lookup.2 ≠ timelineKey))
    | .entry _ => .isTrue trivial
    | .remove .. => .isTrue trivial

/-- One release after the other: `b` has claimed the generator in between and keeps it. -/
theorem releases_remove_own_claims_sample : ∃ s, ClaimRun releasesApart (some "a") s ∧
    s.world.holder = some "b" ∧ s.world.removed = [("a", "a")] ∧
      ∀ removal ∈ s.world.removed, removal.1 = removal.2 := by
  have hrun : (script claimMachine claimCode releasesApart (fun _ => ())
      [.label (.spawn () (.release "a")), .drive 0 2, .label (.spawn () (.claim "b")), .drive 1 1,
        .label (.spawn () (.release "a")), .drive 2 2] ⟨.initial (some "a"), []⟩).any
      (fun s => s.world.holder = some "b" && s.world.removed = [("a", "a")]) = true := by
    decide +kernel
  obtain ⟨s, hs, hP⟩ := Reach.exists_of_script hrun
  obtain ⟨hholder, hremoved⟩ : s.world.holder = some "b" ∧ s.world.removed = [("a", "a")] := by
    simpa using hP
  exact ⟨s, hs, hholder, hremoved, releases_remove_own_claims (some "a") hs⟩

/-- Two releases for `a` find its claim. One removes it, `b` claims the generator, and the other one
removes the claim of `b`. -/
theorem release_removes_other_claim : ∃ s, ClaimRun Guard.free (some "a") s ∧
    s.world.holder = none ∧ s.world.removed = [("a", "b"), ("a", "a")] := by
  have hrun : (script claimMachine claimCode Guard.free (fun _ => ())
      [.label (.spawn () (.release "a")), .label (.spawn () (.release "a")), .drive 0 1, .drive 1 1,
        .drive 0 1, .label (.spawn () (.claim "b")), .drive 2 1, .drive 1 1]
      ⟨.initial (some "a"), []⟩).any
      (fun s => s.world.holder = none && s.world.removed = [("a", "b"), ("a", "a")]) = true := by
    decide +kernel
  obtain ⟨s, hs, hP⟩ := Reach.exists_of_script hrun
  obtain ⟨hholder, hremoved⟩ : s.world.holder = none ∧
      s.world.removed = [("a", "b"), ("a", "a")] := by
    simpa using hP
  exact ⟨s, hs, hholder, hremoved⟩

end Chronos
