import Chronos.Dedicated.Worker

/-! What each program of the worker does to the ledger of dedicated generators. -/

namespace Chronos

open Interleaving Claims List Option

structure Regime (C : Cluster) (p : Nat) (allowed : Op → Choice → World → Prop)
    (J : Ledger Nat String → Prop) (strict remote : Prop) (key : String) : Prop where
  release {l : Ledger Nat String} {g : Nat} {h : String} : J l → J (l.release g h)
  assign {l : Ledger Nat String} {x : Option Nat} : J l →
    (∀ g, x = some g → l.claim g = some key) → J (l.assign key x)
  take {g : Nat} {c : Choice} {w : World} : allowed (.claimDedicated g key) c w →
    (w.ledger C p).claim g = none → J (w.ledger C p) → J ((w.ledger C p).take g key)
  owned {g : Nat} {c : Choice} {w : World} {route : TimelineRoute} : strict →
    allowed (.claimDedicated g key) c w → (w.ledger C p).claim g = none →
    w.route key = some route → route.resourceTier = .dedicated → route.generatorId = g →
    C.isLocalEndpoint p route.ownerWorkerEndpoint = true
  loaded {g : Nat} {out : StoreOutcome} {w : World} : strict → remote →
    allowed (.loadGenerator g) (.store out) w → (w.ledger C p).claim g = some key →
    (w.ledger C p).seat key ≠ some g → out = .done
  answered {write : TimelineWrite} {revision : Nat} {record : TimelineRecord} {e : TsoError}
    {w : World} : strict →
    allowed (.compareExchangeTimeline write key revision record) (.store (.lost e)) w →
    write = .activate

/-- A property of the ledger and of what is known of the timeline's route: that it is a certain
one, or that there is none if nobody else may create the timeline. -/
def Tied (C : Cluster) (p : Nat) (fixed : String → Prop) (A : World → Prop) : Prop :=
  ∀ w w', Drifts C p fixed w w' → A w → A w'

structure Mid (C : Cluster) (p : Nat) (fixed : String → Prop) (strict : Prop) (key : String)
    (X : Option (Option TimelineRoute))
    (S : Nat → Prop) (w : World) : Prop where
  route : ∀ x, X = some x → (x = none → fixed key) → w.route key = x
  own : strict → ∀ g, (w.ledger C p).claim g = some key → S g
  others : strict → (w.ledger C p).BackedBut key

structure Got (C : Cluster) (p : Nat) (fixed : String → Prop) (strict : Prop) (key : String)
    (X : Option (Option TimelineRoute))
    (S : Nat → Prop) (g : Nat) (claimed : Bool) (w : World) : Prop where
  mid : Mid C p fixed strict key X (fun r => S r ∨ (claimed = true ∧ r = g)) w
  held : (w.ledger C p).claim g = some key
  owned : strict → claimed = true → ∀ route, X = some (some route) →
    route.resourceTier = .dedicated →
    route.generatorId = g → C.isLocalEndpoint p route.ownerWorkerEndpoint = true

def OrMid (C : Cluster) (p : Nat) (fixed : String → Prop) (strict : Prop) (key : String)
    (X : Option (Option TimelineRoute))
    (S : Nat → Prop) {α : Type} (R : α → World → Prop) : Except TsoError α → World → Prop
  | .ok x => R x
  | .error _ => Mid C p fixed strict key X S

def Refused {α : Type} (A : World → Prop) : Except TsoError α → World → Prop
  | .ok _ => fun _ => False
  | .error _ => A

def Fit (C : Cluster) (p : Nat) (strict : Prop) (w : World) : Prop := strict → (w.ledger C p).Backed

abbrev WorkerWp (C : Cluster) (p : Nat) (allowed : Op → Choice → World → Prop)
    (fixed : String → Prop) (J : Ledger Nat String → Prop) {α : Type} (prog : Service α)
    (Q : Except TsoError α → World → Prop) (w : World) : Prop :=
  (workerSetting C p allowed fixed).Wp (fun w => J (w.ledger C p)) prog Q w

variable {C : Cluster} {p : Nat} {allowed : Op → Choice → World → Prop} {fixed : String → Prop}
  {J : Ledger Nat String → Prop} {strict rem : Prop} {key : String}
    {X : Option (Option TimelineRoute)}
  {S : Nat → Prop} {g : Nat} {w w' : World} {α β : Type} {A : World → Prop}
  {Q : Except TsoError α → World → Prop}

lemma Mid.tied : Tied C p fixed (Mid C p fixed strict key X S) := by
  intro w w' hd h
  refine ⟨fun x hx hfixed => ?_, ?_, ?_⟩
  · have hroute := h.route x hx hfixed
    cases x with
    | none => rw [hd.absent key (hfixed rfl), hroute]
    | some route => exact hd.kept key route hroute
  · rw [hd.ledger]
    exact h.own
  · rw [hd.ledger]
    exact h.others

lemma Got.tied {claimed : Bool} : Tied C p fixed (Got C p fixed strict key X S g claimed) := by
  intro w w' hd h
  exact ⟨Mid.tied w w' hd h.mid, by rw [hd.ledger]; exact h.held, h.owned⟩

lemma Fit.tied : Tied C p fixed (Fit C p strict) := by
  intro w w' hd h hstrict
  rw [hd.ledger]
  exact h hstrict

lemma Mid.mono {S' : Nat → Prop} (h : Mid C p fixed strict key X S w)
    (hS : strict → ∀ g, S g → S' g) : Mid C p fixed strict key X S' w :=
  ⟨h.route, fun hs g hg => hS hs g (h.own hs g hg), h.others⟩

lemma Mid.fit (h : Mid C p fixed strict key X S w)
    (hS : strict → ∀ g, S g → (w.ledger C p).seat key = some g) : Fit C p strict w := by
  intro hstrict
  exact Ledger.backed_iff.mpr ⟨h.others hstrict, fun g hg => hS hstrict g (h.own hstrict g hg)⟩

lemma Fit.mid (h : Fit C p strict w) (hX : ∀ x, X = some x → w.route key = x) :
    Mid C p fixed strict key X (fun g => (w.ledger C p).seat key = some g) w := by
  refine ⟨fun x hx _ => hX x hx, fun hstrict g hg => h hstrict g key hg, fun hstrict => ?_⟩
  exact (Ledger.backed_iff.mp (h hstrict)).1

lemma World.seat_of_route {route : TimelineRoute} (h : w.route key = some route) :
    (w.ledger C p).seat key = C.dedicatedSeat p route := by
  simp only [World.ledger, h, bind_some]

section

def Op.settled (o : Op) : Prop := o.part = .rest ∨ o.part = .cache

variable {o : Op} {prog : Service α}

lemma drifts_of_settled {c : Choice} {r : o.Reply} {e : Effect} (ho : o.settled)
    (h : act C p w o c = some (r, e)) : Drifts C p fixed w (w.apply p e) := by
  have hrecords : e.part ≠ .records := part_ne_of_act h (by rcases ho with ho | ho <;> simp [ho])
    (by decide)
  have hclaims : e.part ≠ .claims := part_ne_of_act h (by rcases ho with ho | ho <;> simp [ho])
    (by decide)
  exact ⟨World.ledger_apply hrecords hclaims, fun _ _ hr => by rwa [World.route_apply hrecords],
    fun _ _ => World.route_apply hrecords⟩

lemma wp_settled (hA : Tied C p fixed A) (huses : prog.Uses Op.settled)
    (h : A w) : WorkerWp C p allowed fixed J prog (fun _ => A) w := by
  refine Setting.Wp.of_uses huses (fun w1 w2 h1 hd => hA w1 w2 hd h1) ?_ h
  intro o c r w1 w2 ho _ hexec
  obtain ⟨-, e, hact, rfl⟩ := workerExec_cases hexec
  have hd : Drifts C p fixed w1 (w1.apply p e) := drifts_of_settled ho hact
  exact ⟨fun hJ => by rwa [hd.ledger], hA w1 _ hd⟩

lemma wp_leasing (hA : Tied C p fixed A) (huses : prog.Uses Op.leasing)
    (h : A w) : WorkerWp C p allowed fixed J prog (fun _ => A) w :=
  wp_settled hA (huses.imp fun _ => .inl) h

lemma wp_call {k : o.Reply → Service α}
    (h : ∀ w1, Drifts C p fixed w w1 → ∀ c r e, allowed o c w1 → inTurn o c = true →
      act C p w1 o c = some (r, e) → (J (w1.ledger C p) → J ((w1.apply p e).ledger C p)) ∧
        WorkerWp C p allowed fixed J (k r) Q (w1.apply p e)) :
    WorkerWp C p allowed fixed J (call o >>= k) Q w := by
  intro w1 hd hJ c r w2 hc hexec
  obtain ⟨hturn, e, hact, rfl⟩ := workerExec_cases hexec
  obtain ⟨hJ2, hwp⟩ := h w1 hd c r e hc hturn hact
  exact ⟨hJ2 hJ, hwp⟩

lemma wp_settled_call {k : o.Reply → Service α} (hA : Tied C p fixed A) (ho : o.settled)
    (h : A w) (hnext : ∀ r w1, A w1 → WorkerWp C p allowed fixed J (k r) Q w1) :
    WorkerWp C p allowed fixed J (call o >>= k) Q w := by
  refine wp_call fun w1 hd c r e _ _ hact => ?_
  have hd1 : Drifts C p fixed w1 (w1.apply p e) := drifts_of_settled ho hact
  exact ⟨fun hJ => by rwa [hd1.ledger], hnext r _ (hA w1 _ hd1 (hA w w1 hd h))⟩

lemma wp_end {x : Except TsoError α} (hQ : Tied C p fixed (Q x)) (h : Q x w) :
    WorkerWp C p allowed fixed J (.ofExcept x) Q w :=
  Setting.wp_ofExcept fun _ hd => hQ _ _ hd h

lemma wp_return {x : α} (hQ : Tied C p fixed (Q (.ok x))) (h : Q (.ok x) w) :
    WorkerWp C p allowed fixed J (pure x) Q w := wp_end hQ h

lemma wp_value {x : α} {R : α → World → Prop} (hR : Tied C p fixed (R x)) (h : R x w) :
    WorkerWp C p allowed fixed J (pure x) (OrMid C p fixed strict key X S R) w :=
  wp_end (x := .ok x) hR h

lemma wp_error {e : TsoError} (hQ : Tied C p fixed (Q (.error e))) (h : Q (.error e) w) :
    WorkerWp C p allowed fixed J (.fail e) Q w := wp_end hQ h

end

section

variable (hR : Regime C p allowed J strict rem key)

include hR

lemma wp_claim_bind {k : Except TsoError Bool → Service α} (h : Mid C p fixed strict key X S w)
    (hok : ∀ claimed w1, Got C p fixed strict key X S g claimed w1 →
      WorkerWp C p allowed fixed J (k (.ok claimed)) Q w1)
    (herr : ∀ e w1, Mid C p fixed strict key X S w1 →
      WorkerWp C p allowed fixed J (k (.error e)) Q w1) :
    WorkerWp C p allowed fixed J (call (.claimDedicated g key) >>= k) Q w := by
  refine wp_call fun w1 hd c r e hc _ hact => ?_
  have h1 := Mid.tied _ _ hd h
  cases c <;> simp only [act, reduceCtorEq] at hact
  split at hact
  · next owner hown =>
    cases hact
    refine ⟨id, ?_⟩
    split_ifs with hkey
    · exact herr _ w1 h1
    · obtain rfl : owner = key := not_not.mp hkey
      exact hok false w1 ⟨h1.mono fun _ _ hg => .inl hg, hown, fun _ hf => by cases hf⟩
  · next hfree =>
    cases hact
    refine ⟨fun hJ => World.ledger_take ▸ hR.take hc hfree hJ, hok true _ ⟨⟨?_, ?_, ?_⟩, ?_, ?_⟩⟩
    · intro x hx hfixed
      exact h1.route x hx hfixed
    · intro hstrict g' hg'
      rw [World.ledger_take, Ledger.take_claim] at hg'
      split_ifs at hg' with heq
      · exact .inr ⟨rfl, heq⟩
      · exact .inl (h1.own hstrict g' hg')
    · intro hstrict
      rw [World.ledger_take]
      exact (h1.others hstrict).take
    · rw [World.ledger_take, Ledger.take_claim, if_pos rfl]
    · intro hstrict _ route hroute htier hgen
      exact hR.owned hstrict hc hfree (h1.route _ hroute nofun) htier hgen

lemma wp_release_bind {k : Unit → Service α} (h : Mid C p fixed strict key X S w)
    (hnext : ∀ w1, Mid C p fixed strict key X (fun r => S r ∧ r ≠ g) w1 →
      WorkerWp C p allowed fixed J (k ()) Q w1) :
    WorkerWp C p allowed fixed J (call (.releaseDedicated g key) >>= k) Q w := by
  refine wp_call fun w1 hd c r e _ _ hact => ?_
  have h1 := Mid.tied _ _ hd h
  cases c <;> simp only [act, reduceCtorEq] at hact
  cases hact
  refine ⟨fun hJ => World.ledger_release ▸ hR.release hJ, hnext _ ⟨?_, ?_, ?_⟩⟩
  · intro x hx hfixed
    rw [World.route_apply (by split_ifs <;> simp [Effect.part])]
    exact h1.route x hx hfixed
  · intro hstrict g' hg'
    rw [World.ledger_release] at hg'
    obtain ⟨hclaim, hne⟩ := Ledger.claim_of_release hg'
    exact ⟨h1.own hstrict g' hclaim, fun heq => hne ⟨heq, rfl⟩⟩
  · intro hstrict
    rw [World.ledger_release]
    exact (h1.others hstrict).release

lemma wp_claimSpecificDedicated (h : Mid C p fixed strict key X S w) :
    WorkerWp C p allowed fixed J (claimSpecificDedicated C p g key)
      (OrMid C p fixed strict key X S fun claimed => Got C p fixed strict key X S g claimed) w := by
  unfold claimSpecificDedicated
  split
  · exact wp_error Mid.tied h
  · exact wp_claim_bind hR h (fun claimed w1 h1 => wp_end Got.tied h1)
      fun e w1 h1 => wp_end Mid.tied h1

lemma wp_claimFirstDedicated (generators : List Nat) (h : Mid C p fixed strict key X S w) :
    WorkerWp C p allowed fixed J (claimFirstDedicated C p key generators)
      (OrMid C p fixed strict key X S fun x => Got C p fixed strict key X S x.1 x.2) w := by
  induction generators generalizing w with
  | nil => exact wp_error Mid.tied h
  | cons g rest ih =>
    unfold claimFirstDedicated
    split
    · refine wp_claim_bind hR h (fun claimed w1 h1 => wp_value Got.tied h1) fun e w1 h1 => ?_
      split
      · next heq => cases heq
      · exact ih h1
      · exact wp_error Mid.tied h1
    · exact ih h

lemma wp_claimDedicated (h : Mid C p fixed strict key X S w) :
    WorkerWp C p allowed fixed J (claimDedicated C p key)
      (OrMid C p fixed strict key X S fun x => Got C p fixed strict key X S x.1 x.2) w := by
  refine wp_call fun w1 hd c r e _ _ hact => ?_
  have h1 := Mid.tied _ _ hd h
  cases c <;> simp only [act, reduceCtorEq] at hact <;> split_ifs at hact with hclaim <;> cases hact
  · exact ⟨id, wp_claimFirstDedicated hR _ h1⟩
  · refine ⟨id, wp_value Got.tied ⟨h1.mono fun _ _ hg => .inl hg, hclaim, ?_⟩⟩
    exact nofun

lemma wp_pickGeneratorId (tier : ResourceTier) (h : Mid C p fixed strict key X S w) :
    WorkerWp C p allowed fixed J (pickGeneratorId C p key tier)
      (OrMid C p fixed strict key X S fun g w1 =>
        Mid C p fixed strict key X (fun r => S r ∨ (tier = .dedicated ∧ r = g)) w1 ∧
          (tier = .dedicated → (w1.ledger C p).claim g = some key)) w := by
  have hshared : ∀ x : Except TsoError Nat, tier ≠ .dedicated →
      WorkerWp C p allowed fixed J (.ofExcept x) (OrMid C p fixed strict key X S fun g w1 =>
        Mid C p fixed strict key X (fun r => S r ∨ (tier = .dedicated ∧ r = g)) w1 ∧
          (tier = .dedicated → (w1.ledger C p).claim g = some key)) w := by
    intro x htier
    cases x with
    | error e => exact wp_error Mid.tied h
    | ok g =>
      refine Setting.wp_pure fun w1 hd => ⟨?_, fun ht => absurd ht htier⟩
      exact (Mid.tied _ _ hd h).mono fun _ _ hg => .inl hg
  cases tier with
  | shared => exact hshared _ (by decide)
  | warm => exact hshared _ (by decide)
  | dedicated =>
    refine (wp_claimDedicated hR h).bind (fun x w1 h1 => ?_) fun _ _ h1 => h1
    refine Setting.wp_pure fun w2 hd => ?_
    have h2 := Got.tied _ _ hd h1
    exact ⟨h2.mid.mono fun _ g hg => hg.imp_right fun heq => ⟨rfl, heq.2⟩, fun _ => h2.held⟩

end

section

def Selected (C : Cluster) (p : Nat) (fixed : String → Prop) (strict : Prop) (key : String)
    (X : Option (Option TimelineRoute))
    (S : Nat → Prop) (selection : TransferTargetSelection) (w : World) : Prop :=
  match selection.claimedDedicated with
  | none => selection.targetResourceTier ≠ .dedicated ∧ Mid C p fixed strict key X S w
  | some (g, claimed) => selection.targetResourceTier = .dedicated ∧
      selection.newGeneratorId = g ∧ Got C p fixed strict key X S g claimed w

variable {selection : TransferTargetSelection} {plan : TransferPlan} {floor : Option Nat}
  {route : TimelineRoute}

lemma Selected.tied : Tied C p fixed (Selected C p fixed strict key X S selection) := by
  intro w w' hd h
  unfold Selected at h ⊢
  split at h
  · exact ⟨h.1, Mid.tied w w' hd h.2⟩
  · exact ⟨h.1, h.2.1, Got.tied w w' hd h.2.2⟩

lemma Selected.mid (h : Selected C p fixed strict key X S selection w) :
    Mid C p fixed strict key X (fun r => S r ∨
      (selection.targetResourceTier = .dedicated ∧ r = selection.newGeneratorId)) w := by
  unfold Selected at h
  split at h
  · exact h.2.mono fun _ _ hg => .inl hg
  · obtain ⟨htier, hnew, hgot⟩ := h
    exact hgot.mid.mono fun _ g hg => hg.imp_right fun heq => ⟨htier, heq.2.trans hnew.symm⟩

lemma Selected.held (h : Selected C p fixed strict key X S selection w)
    (htier : selection.targetResourceTier = .dedicated) :
    (w.ledger C p).claim selection.newGeneratorId = some key := by
  unfold Selected at h
  split at h
  · exact absurd htier h.1
  · rw [h.2.1]
    exact h.2.2.held

abbrev Settled (C : Cluster) (p : Nat) (fixed : String → Prop) (strict : Prop) (key : String)
    (route : TimelineRoute)
    (w : World) : Prop :=
  Mid C p fixed strict key (some (some route)) (fun g => C.dedicatedSeat p route = some g) w

lemma Settled.fit (h : Settled C p fixed strict key route w) : Fit C p strict w := by
  refine Mid.fit h fun _ g hg => ?_
  rw [World.seat_of_route (h.route _ rfl fun hn => by cases hn)]
  exact hg

lemma Fit.settled (h : Fit C p strict w) (hroute : w.route key = some route) :
    Settled C p fixed strict key route w := by
  refine (h.mid fun x hx => some.inj hx ▸ hroute).mono fun _ g hg => ?_
  rwa [World.seat_of_route hroute] at hg

abbrev SelectedFor (C : Cluster) (p : Nat) (fixed : String → Prop) (strict : Prop) (key : String)
    (route : TimelineRoute)
    (selection : TransferTargetSelection) (w : World) : Prop :=
  Selected C p fixed strict key (some (some route)) (fun g => C.dedicatedSeat p route = some g)
    selection w

variable (hR : Regime C p allowed J strict rem key)

include hR

lemma wp_rejectTransfer {err : TsoError}
    (hroute : strict → X = some (some route) ∧ ∀ g, C.dedicatedSeat p route = some g → S g)
    (h : Selected C p fixed strict key X S selection w) :
    WorkerWp C p allowed fixed J (rejectTransfer key route selection err : Service α)
      (Refused (Mid C p fixed strict key X S)) w := by
  unfold rejectTransfer
  unfold Selected at h
  split at h
  · next hnone =>
    rw [hnone]
    exact wp_error Mid.tied h.2
  · next g claimed hsome =>
    obtain ⟨-, -, hgot⟩ := h
    rw [hsome]
    unfold releaseClaimedDedicatedIfNeeded
    dsimp only
    split
    · refine wp_release_bind hR hgot.mid fun w1 h1 => wp_error Mid.tied (h1.mono ?_)
      rintro - r ⟨hr | ⟨-, heq⟩, hne⟩
      · exact hr
      · exact absurd heq hne
    · next hkeep =>
      -- nothing was taken, or the timeline is served by this very generator
      refine wp_error Mid.tied (hgot.mid.mono ?_)
      rintro hstrict r (hr | ⟨hclaimed, rfl⟩)
      · exact hr
      obtain ⟨htier, hgen⟩ : route.resourceTier = .dedicated ∧ route.generatorId = r := by
        simpa [shouldReleaseClaimedDedicatedGenerator, hclaimed, not_or] using hkeep
      have hlocal := hgot.owned hstrict hclaimed route (hroute hstrict).1 htier hgen
      refine (hroute hstrict).2 r ?_
      rw [Cluster.dedicatedSeat, if_pos ⟨htier, hlocal⟩, hgen]

lemma wp_firstTransferTarget (h : Mid C p fixed strict key X S w) :
    WorkerWp C p allowed fixed J (firstTransferTarget C p key plan)
      (OrMid C p fixed strict key X S (Selected C p fixed strict key X S)) w := by
  unfold firstTransferTarget
  split
  · split
    · exact wp_error Mid.tied h
    split
    · next htier =>
      refine (wp_claimSpecificDedicated hR h).bind (fun claimed w1 h1 => ?_) fun _ _ h1 => h1
      exact wp_value Selected.tied ⟨htier, rfl, h1⟩
    · next htier => exact wp_value Selected.tied ⟨htier, h⟩
  · split
    · next htier =>
      refine (wp_claimDedicated hR h).bind (fun claim w1 h1 => ?_) fun _ _ h1 => h1
      exact wp_value Selected.tied ⟨htier, rfl, h1⟩
    · next htier =>
      refine (wp_pickGeneratorId hR plan.resourceTier h).bind (fun g w1 h1 => ?_) fun _ _ h1 => h1
      refine wp_value Selected.tied ⟨htier, h1.1.mono fun _ r hr => ?_⟩
      exact hr.resolve_right fun hd => htier hd.1

lemma wp_isolateJumpAhead (h : Selected C p fixed strict key X S selection w) :
    WorkerWp C p allowed fixed J (isolateJumpAhead C p key plan floor selection)
      (OrMid C p fixed strict key X S (Selected C p fixed strict key X S)) w := by
  unfold isolateJumpAhead
  split
  · exact wp_value Selected.tied h
  split
  · exact wp_value Selected.tied h
  · next htier =>
    refine (wp_leasing Selected.tied uses_requiredJumpMsForGenerator h).bind
      (fun jump w1 h1 => ?_) fun _ w1 h1 => ?_
    · have hmid1 := h1.mid.mono fun _ r hr => hr.resolve_right fun hd => htier hd.1
      split
      · split
        · exact wp_error Mid.tied hmid1
        · refine (wp_claimDedicated hR hmid1).bind (fun claim w2 h2 => ?_) fun _ _ h2 => h2
          exact wp_value Selected.tied ⟨rfl, rfl, h2⟩
      · exact wp_value Selected.tied h1
    · exact h1.mid.mono fun _ r hr => hr.resolve_right fun hd => htier hd.1

lemma wp_checkTransferTarget (hremote : C.isLocalEndpoint p plan.ownerEndpoint = false → rem)
    (h : SelectedFor C p fixed strict key route selection w) :
    WorkerWp C p allowed fixed J (checkTransferTarget C p key route plan selection)
      (OrMid C p fixed strict key (some (some route)) (fun g => C.dedicatedSeat p route = some g)
        (SelectedFor C p fixed strict key route)) w := by
  have hreject : ∀ error w1, SelectedFor C p fixed strict key route selection w1 →
      WorkerWp C p allowed fixed J
        (rejectTransfer key route selection error : Service TransferTargetSelection)
        (OrMid C p fixed strict key (some (some route)) (fun g => C.dedicatedSeat p route = some g)
          (SelectedFor C p fixed strict key route)) w1 := by
    intro error w1 h1
    refine (wp_rejectTransfer hR (fun _ => ⟨rfl, fun _ => id⟩) h1).imp fun out w2 h2 => ?_
    cases out with
    | ok x => exact h2.elim
    | error e => exact h2
  unfold checkTransferTarget
  dsimp only
  split
  · split
    · exact wp_value Selected.tied h
    · exact hreject _ w h
  · next hforeign =>
    split
    · exact wp_value Selected.tied h
    split
    · exact hreject _ w h
    refine wp_call fun w1 hd c r e hc _ hact => ?_
    have h1 := Selected.tied _ _ hd h
    cases c with
    | store outcome =>
      cases hact
      -- an unanswered request leaves nothing behind unless a claim was taken
      have hfail : outcome ≠ .done → Settled C p fixed strict key route w1 := by
        intro hout
        refine h1.mid.mono ?_
        rintro hstrict r (hr | ⟨htier, rfl⟩)
        · exact hr
        by_contra hseat
        refine hout (hR.loaded hstrict (hremote (by simpa using hforeign)) hc (h1.held htier) ?_)
        rwa [World.seat_of_route (h1.mid.route _ rfl fun hn => by cases hn)]
      refine ⟨id, ?_⟩
      cases outcome with
      | lost e => exact wp_error Mid.tied (hfail (by simp))
      | down e => exact wp_error Mid.tied (hfail (by simp))
      | done =>
        split
        · next heq => cases heq
        · exact wp_value Selected.tied h1
        refine wp_settled_call Selected.tied (.inl rfl) h1 fun now w2 h2 => ?_
        split
        · exact hreject _ w2 h2
        · exact wp_value Selected.tied h2
    | _ => simp [act] at hact

lemma wp_selectTransferTarget (hremote : C.isLocalEndpoint p plan.ownerEndpoint = false → rem)
    (h : Settled C p fixed strict key route w) :
    WorkerWp C p allowed fixed J (selectTransferTarget C p key route plan floor)
      (OrMid C p fixed strict key (some (some route)) (fun g => C.dedicatedSeat p route = some g)
        (SelectedFor C p fixed strict key route)) w := by
  refine (wp_firstTransferTarget hR h).bind (fun first w1 h1 => ?_) fun _ _ h1 => h1
  refine (wp_isolateJumpAhead hR h1).bind (fun selection w2 h2 => ?_) fun _ _ h2 => h2
  refine Setting.Wp.attempt_bind
    (wp_leasing Selected.tied uses_validateRecoveryCatchupBudgetForTarget h2) fun budget w3 h3 => ?_
  split
  · refine (wp_rejectTransfer hR (fun _ => ⟨rfl, fun _ => id⟩) h3).imp fun out w4 h4 => ?_
    cases out with
    | ok x => exact h4.elim
    | error e => exact h4
  · exact wp_checkTransferTarget hR hremote h3

end

section

variable {record : TimelineRecord} {rev fuel : Nat} {write : TimelineWrite}
  {route : TimelineRoute}

lemma wp_loadTimeline_bind {k : Except TsoError (Option (TimelineRecord × Nat)) → Service α}
    (hA : Tied C p fixed A) (h : A w)
    (hok : ∀ found w1, A w1 → w1.timelineRecord key = found →
      WorkerWp C p allowed fixed J (k (.ok found)) Q w1)
    (herr : ∀ e w1, A w1 → WorkerWp C p allowed fixed J (k (.error e)) Q w1) :
    WorkerWp C p allowed fixed J (call (.loadTimeline key) >>= k) Q w := by
  refine wp_call fun w1 hd c r e _ _ hact => ?_
  have h1 := hA w w1 hd h
  cases c with
  | store out =>
    cases hact
    cases out with
    | done => exact ⟨id, hok _ w1 h1 rfl⟩
    | lost e => exact ⟨id, herr e w1 h1⟩
    | down e => exact ⟨id, herr e w1 h1⟩
  | _ => simp [act] at hact

lemma World.route_of_timelineRecord {x : TimelineRecord × Nat}
    (h : w.timelineRecord key = some x) : w.route key = some x.1.route := by
  obtain ⟨v, hv, rfl⟩ := map_eq_some_iff.mp h
  simp [World.route, hv]

lemma World.route_of_no_timelineRecord (h : w.timelineRecord key = none) :
    w.route key = none := by
  have hnone := map_eq_none_iff.mp h
  simp [World.route, hnone]

lemma wp_loadTimelineWithSingleflight_bind
    {k : Option (TimelineRecord × Nat) → Service α} (hA : Tied C p fixed A) (h : A w)
    (hfound : ∀ x w1, A w1 → w1.route key = some x.1.route →
      WorkerWp C p allowed fixed J (k (some x)) Q w1)
    (hnone : ∀ w1, A w1 → (w1.ledger C p).seat key = none → (fixed key → w1.route key = none) →
      WorkerWp C p allowed fixed J (k none) Q w1)
    (herror : ∀ e w1, A w1 → Q (.error e) w1) :
    WorkerWp C p allowed fixed J (loadTimelineWithSingleflight key >>= k) Q w := by
  have hload : WorkerWp C p allowed fixed J (loadTimelineWithSingleflight key) (fun out w1 =>
      A w1 ∧ (∀ x, out = .ok (some x) → w1.route key = some x.1.route) ∧
        (out = .ok none → (w1.ledger C p).seat key = none ∧
          (fixed key → w1.route key = none))) w := by
    refine (wp_leasing hA uses_checkRequestCancellation h).bind (fun _ w1 h1 => ?_)
      fun e w1 h1 => ⟨h1, nofun, fun hx => by cases hx⟩
    refine wp_call fun w2 hd c r e _ hturn hact => ?_
    have h2 := hA w1 w2 hd h1
    cases c with
    | version i =>
      obtain rfl : i = 0 := by simpa [inTurn] using hturn
      cases hact
      refine ⟨id, Setting.wp_ofExcept fun w3 hd3 => ⟨hA w2 w3 hd3 h2, fun x hx => ?_, fun hx => ?_⟩⟩
      · refine hd3.kept key _ (World.route_of_timelineRecord ?_)
        rw [World.timelineRecord, head?_eq_getElem?]
        exact Except.ok.inj hx
      have hroute : w2.route key = none := World.route_of_no_timelineRecord (by
        rw [World.timelineRecord, head?_eq_getElem?]
        exact Except.ok.inj hx)
      refine ⟨?_, fun hfixed => (hd3.absent key hfixed).trans hroute⟩
      rw [hd3.ledger]
      show (w2.route key).bind _ = none
      rw [hroute, bind_none]
    | error e =>
      cases hact
      refine ⟨id, Setting.wp_ofExcept fun w3 hd3 => ⟨hA w2 w3 hd3 h2, ?_, ?_⟩⟩
      · exact nofun
      · exact nofun
    | _ => simp [act] at hact
  refine hload.bind (fun found w1 h1 => ?_) fun e w1 h1 => herror e w1 h1.1
  cases found with
  | none => exact hnone w1 h1.1 (h1.2.2 rfl).1 (h1.2.2 rfl).2
  | some x => exact hfound x w1 h1.1 (h1.2.1 x rfl)

lemma wp_rewrite_bind {k : Except TsoError Nat → Service α}
    (h : Mid C p fixed strict key (some (some record.route)) S w)
    (hnext : ∀ res w1, Mid C p fixed strict key (some (some record.route)) S w1 →
      WorkerWp C p allowed fixed J (k res) Q w1) :
    WorkerWp C p allowed fixed J (call (.compareExchangeTimeline write key rev record) >>= k)
      Q w := by
  refine wp_call fun w1 hd c r e _ _ hact => ?_
  have h1 := Mid.tied w w1 hd h
  have hroute := h1.route _ rfl nofun
  cases c <;> simp only [act, reduceCtorEq] at hact
  rcases storeWrite_cases (some.inj hact) with ⟨-, rfl, -⟩ | ⟨rfl, -⟩
  · have hledger := World.ledger_commit_same (C := C) (p := p)
      (v := ⟨w1.revision + 1, record, write⟩) hroute
    refine ⟨fun hJ => by rwa [hledger], hnext r _ ⟨fun x hx _ => ?_, ?_, ?_⟩⟩
    · rw [World.route_commit, if_pos rfl]
      exact some.inj hx
    · rw [hledger]
      exact h1.own
    · rw [hledger]
      exact h1.others
  · exact ⟨id, hnext r w1 h1⟩

lemma wp_activateLocalTimelineRecord (leaseFuel fuel : Nat)
    (h : Mid C p fixed strict key (some (some record.route)) S w) :
    WorkerWp C p allowed fixed J (activateLocalTimelineRecord C p key leaseFuel fuel record rev)
      (fun out w1 => Mid C p fixed strict key (some (some record.route)) S w1 ∧
        ∀ x, out = .ok x → x.1.route = record.route) w := by
  induction fuel generalizing w record rev with
  | zero => exact Setting.wp_fail fun w1 hd => ⟨Mid.tied w w1 hd h, fun _ hx => by cases hx⟩
  | succ fuel ih =>
    have hreturn : ∀ w1, Mid C p fixed strict key (some (some record.route)) S w1 →
        WorkerWp C p allowed fixed J (pure (record, rev))
          (fun out w1 => Mid C p fixed strict key (some (some record.route)) S w1 ∧
            ∀ x, out = .ok x → x.1.route = record.route) w1 := by
      intro w1 h1
      refine Setting.wp_pure fun w2 hd => ⟨Mid.tied w1 w2 hd h1, fun x hx => ?_⟩
      rw [← Except.ok.inj hx]
    have hfail : ∀ (e : TsoError) w1, Mid C p fixed strict key (some (some record.route)) S w1 →
        Mid C p fixed strict key (some (some record.route)) S w1 ∧
          ∀ x : TimelineRecord × Nat, (.error e : Except TsoError _) = .ok x →
            x.1.route = record.route :=
      fun e w1 h1 => ⟨h1, fun _ hx => by cases hx⟩
    refine (wp_leasing Mid.tied uses_checkRequestCancellation h).bind (fun _ w1 h1 => ?_) hfail
    split
    · exact hreturn w1 h1
    split
    · exact hreturn w1 h1
    · exact (wp_leasing Mid.tied uses_ensureGeneratorLease h1).bind
        (fun _ w2 h2 => hreturn w2 h2) hfail
    refine wp_settled_call Mid.tied (.inl rfl) h1 fun now w2 h2 => ?_
    split
    · exact hreturn w2 h2
    refine (wp_leasing Mid.tied uses_ensureGeneratorLease h2).bind (fun _ w3 h3 => ?_) hfail
    refine wp_settled_call Mid.tied (.inl rfl) h3 fun now' w4 h4 => ?_
    have hactivated := h4
    refine wp_rewrite_bind hactivated fun res w5 h5 => ?_
    split
    · refine Setting.wp_pure fun w6 hd => ⟨Mid.tied w5 w6 hd h5, fun x hx => ?_⟩
      rw [← Except.ok.inj hx]
      rfl
    · refine (wp_leasing Mid.tied (uses_backoffAfterMetadataContention (by rfl)
        (show Prog.Uses _ (pure ()) from trivial)) h5).bind (fun _ w6 h6 => ?_) hfail
      refine wp_loadTimelineWithSingleflight_bind Mid.tied h6 (fun x w7 h7 hx => ?_)
        (fun w7 h7 _ _ => Setting.wp_fail fun w8 hd => hfail _ w8 (Mid.tied w7 w8 hd h7)) hfail
      have hsame : x.1.route = record.route := some.inj
        (hx.symm.trans (h7.route _ rfl fun hn => by cases hn))
      replace h7 : Mid C p fixed strict key (some (some x.1.route)) S w7 := hsame ▸ h7
      rw [← hsame]
      exact ih h7
    · exact Setting.wp_fail fun w6 hd => hfail _ w6 (Mid.tied w5 w6 hd h5)

end

section

variable {record : TimelineRecord} {rev fuel : Nat} {write : TimelineWrite}
  {route : TimelineRoute} {selection : TransferTargetSelection} {plan : TransferPlan}
  {prep : TransferPreparation}

abbrev Chosen (selection : TransferTargetSelection) (g : Nat) : Prop :=
  selection.targetResourceTier = .dedicated ∧ g = selection.newGeneratorId

structure SentTo (selection : TransferTargetSelection) (plan : TransferPlan)
    (record : TimelineRecord) : Prop where
  tier : record.route.resourceTier = selection.targetResourceTier
  generatorId : record.route.generatorId = selection.newGeneratorId
  owner : record.route.ownerWorkerEndpoint = plan.ownerEndpoint

lemma SentTo.seat (h : SentTo selection plan record)
    (hseat : C.dedicatedSeat p record.route = some g) : Chosen selection g := by
  unfold Cluster.dedicatedSeat at hseat
  split_ifs at hseat with hlocal
  exact ⟨h.tier.symm.trans hlocal.1, (some.inj hseat).symm.trans h.generatorId⟩

lemma SentTo.fit (h : SentTo selection plan record)
    (hlocal : C.isLocalEndpoint p plan.ownerEndpoint = true)
    (hmid : Mid C p fixed strict key (some (some record.route)) (Chosen selection) w) :
    Fit C p strict w := by
  refine hmid.fit fun _ g hg => ?_
  rw [World.seat_of_route (hmid.route _ rfl fun hn => by cases hn), Cluster.dedicatedSeat,
    if_pos ⟨h.tier.trans hg.1, h.owner.symm ▸ hlocal⟩, h.generatorId, hg.2]

lemma Selected.forget (hstrict : ¬ strict) (h : Selected C p fixed strict key X S selection w)
    (hclaim : (w'.ledger C p).claim = (w.ledger C p).claim) :
    Selected C p fixed strict key none S selection w' := by
  have hmid : ∀ S', Mid C p fixed strict key none S' w' := fun S' =>
    ⟨nofun, fun hs => absurd hs hstrict, fun hs => absurd hs hstrict⟩
  unfold Selected at h ⊢
  split at h
  · exact ⟨h.1, hmid S⟩
  · exact ⟨h.1, h.2.1, hmid _, by rw [hclaim]; exact h.2.2.held, fun hs => absurd hs hstrict⟩

variable (hR : Regime C p allowed J strict rem key)

include hR

lemma wp_move_bind {k : Except TsoError Nat → Service α} (hwrite : write ≠ .activate)
    (hsent : SentTo selection plan record) (h : Selected C p fixed strict key X S selection w)
    (hok : ∀ newRev w1, Mid C p fixed strict key (some (some record.route))
      (fun g => S g ∨ Chosen selection g) w1 →
      WorkerWp C p allowed fixed J (k (.ok newRev)) Q w1)
    (herr : ∀ e X' w1, (strict → X' = X) → Selected C p fixed strict key X' S selection w1 →
      WorkerWp C p allowed fixed J (k (.error e)) Q w1) :
    WorkerWp C p allowed fixed J (call (.compareExchangeTimeline write key rev record) >>= k)
      Q w := by
  refine wp_call fun w1 hd c r e hc _ hact => ?_
  have h1 := Selected.tied w w1 hd h
  have hkeep : ∀ e, WorkerWp C p allowed fixed J (k (.error e)) Q w1 :=
    fun e => herr e X w1 (fun _ => rfl) h1
  have hledger : (w1.apply p (.commitTimeline key ⟨w1.revision + 1, record, write⟩)).ledger C p =
      (w1.ledger C p).assign key (C.dedicatedSeat p record.route) := World.ledger_commit
  have hJ : J (w1.ledger C p) → J ((w1.apply p
      (.commitTimeline key ⟨w1.revision + 1, record, write⟩)).ledger C p) := by
    intro hJ
    rw [hledger]
    refine hR.assign hJ fun g hg => ?_
    obtain ⟨htier, rfl⟩ := hsent.seat hg
    exact h1.held htier
  cases c with
  | store out =>
    simp only [act] at hact
    cases hholds : w1.timelineRevisionIs key rev with
    | false =>
      -- the record has moved on: nothing is written
      rw [hholds] at hact
      cases out <;> obtain ⟨rfl, rfl⟩ := Prod.mk.inj (Option.some.inj hact) <;> exact ⟨id, hkeep _⟩
    | true =>
      rw [hholds] at hact
      cases out with
      | done =>
        cases hact
        refine ⟨hJ, hok _ _ ⟨fun x hx _ => ?_, ?_, ?_⟩⟩
        · rw [World.route_commit, if_pos rfl]
          exact Option.some.inj hx
        · rw [hledger]
          exact h1.mid.own
        · rw [hledger]
          exact fun hs => (h1.mid.others hs).assign
      | lost e =>
        cases hact
        have hstrict : ¬ strict := fun hs => hwrite (hR.answered hs hc)
        refine ⟨hJ, herr e none _ (fun hs => absurd hs hstrict) (h1.forget hstrict ?_)⟩
        rw [hledger, Ledger.assign_claim]
      | down e =>
        cases hact
        exact ⟨id, hkeep e⟩
  | _ => simp [act] at hact

lemma wp_releasePreviousDedicated_bind {k : Unit → Service α} (h : Mid C p fixed strict key X
      (fun g => C.dedicatedSeat p route = some g ∨ Chosen selection g) w)
    (hnext : ∀ w1, Mid C p fixed strict key X (Chosen selection) w1 →
      WorkerWp C p allowed fixed J (k ()) Q w1) :
    WorkerWp C p allowed fixed J (releasePreviousDedicated key route (selection.target plan) >>= k)
      Q w := by
  unfold releasePreviousDedicated
  split
  · refine wp_release_bind hR h fun w1 h1 => hnext w1 (h1.mono ?_)
    rintro - g ⟨hg | hg, hne⟩
    · unfold Cluster.dedicatedSeat at hg
      split_ifs at hg
      exact absurd (some.inj hg).symm hne
    · exact hg
  · next hkeep =>
    refine hnext w (h.mono ?_)
    rintro - g (hg | hg)
    · unfold Cluster.dedicatedSeat at hg
      split_ifs at hg with hlocal
      have hsame : ¬ shouldReleasePreviousDedicatedGeneratorAfterRouteChange route.resourceTier
          route.generatorId selection.targetResourceTier selection.newGeneratorId = true := hkeep
      obtain ⟨htier, hgen⟩ : selection.targetResourceTier = .dedicated ∧
          route.generatorId = selection.newGeneratorId := by
        simpa [shouldReleasePreviousDedicatedGeneratorAfterRouteChange, hlocal.1] using hsame
      exact ⟨htier, (some.inj hg).symm.trans hgen⟩
    · exact hg

variable {floor target : Option Nat} {endpoint : String}

lemma wp_cacheTransferredTimeline (hsent : SentTo selection plan record) {cached : TimelineRecord}
    (h : Mid C p fixed strict key (some (some record.route)) (Chosen selection) w) :
    WorkerWp C p allowed fixed J (cacheTransferredTimeline C p key plan selection cached rev floor)
      (fun _ => Fit C p strict) w := by
  unfold cacheTransferredTimeline
  split
  · next hlocal =>
    refine wp_settled_call Mid.tied (.inr rfl) h fun _ w1 h1 => ?_
    exact wp_return Fit.tied (hsent.fit hlocal h1)
  refine wp_settled_call Mid.tied (.inr rfl) h fun _ w1 h1 => ?_
  split
  · refine wp_release_bind hR h1 fun w2 h2 => wp_return Fit.tied (h2.fit ?_)
    rintro - g ⟨hg, hne⟩
    exact absurd hg.2 hne
  · next htier =>
    refine wp_return Fit.tied (h1.fit ?_)
    rintro - g hg
    exact absurd hg.1 htier

lemma wp_synchronizeTransferCompletion (hsent : SentTo selection plan record)
    (h : Mid C p fixed strict key (some (some record.route))
      (fun g => C.dedicatedSeat p route = some g ∨ Chosen selection g) w) :
    WorkerWp C p allowed fixed J (synchronizeTransferCompletion C p key route plan selection record
      rev floor fuel) (fun _ => Fit C p strict) w := by
  refine wp_releasePreviousDedicated_bind hR h fun w1 h1 => ?_
  split
  · next hlocal =>
    have hlocal := (Bool.and_eq_true_iff.mp hlocal).1
    refine (wp_leasing Mid.tied uses_ensureGeneratorLease h1).bind (fun _ w2 h2 => ?_)
      fun _ w2 h2 => hsent.fit hlocal h2
    refine (wp_activateLocalTimelineRecord fuel fuel h2).bind (fun x w3 h3 => ?_)
      fun _ w3 h3 => hsent.fit hlocal h3.1
    exact wp_cacheTransferredTimeline hR hsent h3.1
  · exact wp_cacheTransferredTimeline hR hsent h1

lemma wp_refuse {error : TsoError} (hX : strict → X = some (some route))
    (h : Selected C p fixed strict key X (fun g => C.dedicatedSeat p route = some g) selection w) :
    WorkerWp C p allowed fixed J (rejectTransfer key route selection error : Service α)
      (fun _ => Fit C p strict) w := by
  refine (wp_rejectTransfer hR (fun hs => ⟨hX hs, fun _ => id⟩) h).imp fun out w1 h1 => ?_
  cases out with
  | ok x => exact h1.elim
  | error e =>
    intro hstrict
    obtain rfl := hX hstrict
    exact Settled.fit h1 hstrict

lemma wp_commitTransfer {state : TimelineLifecycleState}
    (h : SelectedFor C p fixed strict key record.route selection w) :
    WorkerWp C p allowed fixed J (commitTransfer C p key record rev plan prep selection state fuel)
      (fun _ => Fit C p strict) w := by
  have hsent : SentTo selection plan (transferredRecord record plan.reason prep.cachedLast
      prep.previousGeneratorFloor (selection.target plan) state prep.now) := ⟨rfl, rfl, rfl⟩
  refine wp_move_bind hR (by simp) hsent h (fun newRev w1 h1 => ?_)
    fun e X' w1 hX h1 => wp_refuse hR hX h1
  refine wp_settled_call Mid.tied (.inr rfl) h1 fun _ w2 h2 => ?_
  exact (wp_synchronizeTransferCompletion hR hsent h2).bind
    (fun _ w3 h3 => wp_return Fit.tied h3) fun _ w3 h3 => h3

lemma wp_applyUnfencedTransferPlan (hrem : C.isLocalEndpoint p plan.ownerEndpoint = false → rem)
    (h : Settled C p fixed strict key record.route w) :
    WorkerWp C p allowed fixed J (applyUnfencedTransferPlan C p key record rev plan prep fuel)
      (fun _ => Fit C p strict) w := by
  refine (wp_selectTransferTarget hR hrem h).bind (fun selection w1 h1 => ?_)
    fun _ w1 h1 => Settled.fit h1
  split
  · refine Setting.Wp.attempt_bind (wp_leasing Selected.tied uses_ensureGeneratorLease h1)
      fun leased w2 h2 => ?_
    split
    · exact wp_refuse hR (fun _ => rfl) h2
    · exact wp_commitTransfer hR h2
  · exact wp_commitTransfer hR h1

lemma wp_applyFencedLocalTransferPlan {handle : Nat} {timeline : TimelineState}
    (hlocal : C.isLocalEndpoint p plan.ownerEndpoint = true)
    (h : Settled C p fixed strict key record.route w) :
    WorkerWp C p allowed fixed J
      (applyFencedLocalTransferPlan C p key record plan prep handle timeline fuel)
      (fun _ => Fit C p strict) w := by
  refine (wp_selectTransferTarget hR (fun hf => by rw [hlocal] at hf; cases hf) h).bind
    (fun selection w1 h1 => ?_) fun _ w1 h1 => Settled.fit h1
  refine Setting.Wp.attempt_bind (wp_leasing Selected.tied uses_ensureGeneratorLease h1)
    fun leased w2 h2 => ?_
  split
  · exact wp_refuse hR (fun _ => rfl) h2
  have hsent : SentTo selection plan (fencedRecord record plan.reason prep.cachedLast timeline
      (selection.target plan) prep.now) := ⟨rfl, rfl, rfl⟩
  refine wp_move_bind hR (by simp) hsent h2 (fun newRev w3 h3 => ?_)
    fun e X' w3 hX h3 => wp_refuse hR hX h3
  refine wp_releasePreviousDedicated_bind hR h3 fun w4 h4 => ?_
  refine wp_settled_call Mid.tied (.inr rfl) h4 fun _ w5 h5 => ?_
  exact wp_return Fit.tied (hsent.fit hlocal h5)

lemma wp_applyTransferPlan (hrem : C.isLocalEndpoint p plan.ownerEndpoint = false → rem)
    (h : Settled C p fixed strict key record.route w) :
    WorkerWp C p allowed fixed J (applyTransferPlan C p key record rev plan fuel)
      (fun _ => Fit C p strict) w := by
  refine (wp_leasing Mid.tied uses_prepareTransferApplication h).bind (fun prep w1 h1 => ?_)
    fun _ w1 h1 => Settled.fit h1
  split
  · next hfenced =>
    have hlocal := (Bool.and_eq_true_iff.mp hfenced).2
    refine wp_settled_call Mid.tied (.inl rfl) h1 fun cached w2 h2 => ?_
    split
    · exact wp_applyUnfencedTransferPlan hR hrem h2
    refine wp_settled_call Mid.tied (.inr rfl) h2 fun timeline w3 h3 => ?_
    split
    · refine Setting.Wp.attempt_bind (wp_applyFencedLocalTransferPlan hR hlocal h3)
        fun res w4 h4 => ?_
      refine wp_settled_call Fit.tied (.inr rfl) h4 fun _ w5 h5 => ?_
      exact wp_end Fit.tied h5
    · refine wp_settled_call Mid.tied (.inr rfl) h3 fun _ w4 h4 => ?_
      exact wp_applyUnfencedTransferPlan hR hrem h4
  · exact wp_applyUnfencedTransferPlan hR hrem h1

lemma wp_transferTimelineForRpc
    {reason : TransferReason} (hrem : C.isLocalEndpoint p endpoint = false → rem)
    (h : Fit C p strict w) :
    WorkerWp C p allowed fixed J (transferTimelineForRpc C p key endpoint target reason fuel)
      (fun _ => Fit C p strict) w := by
  unfold transferTimelineForRpc
  split
  · exact wp_error Fit.tied h
  · exact wp_error Fit.tied h
  refine wp_loadTimeline_bind Fit.tied h (fun found w1 h1 hfound => ?_)
    fun e w1 h1 => wp_error Fit.tied h1
  cases found with
  | none => exact wp_error Fit.tied h1
  | some x =>
    dsimp only
    split
    · exact wp_error Fit.tied h1
    · exact wp_applyTransferPlan hR hrem (h1.settled (World.route_of_timelineRecord hfound))

lemma wp_transferTimeline {tier : ResourceTier}
    (hrem : C.isLocalEndpoint p endpoint = false → rem) (h : Fit C p strict w) :
    WorkerWp C p allowed fixed J (transferTimeline C p key tier endpoint target fuel)
      (fun _ => Fit C p strict) w := by
  unfold transferTimeline
  split
  · exact wp_error Fit.tied h
  · exact wp_error Fit.tied h
  refine wp_loadTimeline_bind Fit.tied h (fun found w1 h1 hfound => ?_)
    fun e w1 h1 => wp_error Fit.tied h1
  cases found with
  | none => exact wp_error Fit.tied h1
  | some x =>
    have hplan : WorkerWp C p allowed fixed J (applyTransferPlan C p key x.1 x.2
        ⟨tier, endpoint, target, .manual⟩ fuel) (fun _ => Fit C p strict) w1 :=
      wp_applyTransferPlan hR hrem (h1.settled (World.route_of_timelineRecord hfound))
    exact hplan.bind (fun _ w2 h2 => wp_return Fit.tied h2) fun _ w2 h2 => h2

end

end Chronos
