import Chronos.Flights.Coordinator

/-! At most one caller works on the lease of a generator, and nobody waits for a caller that is
gone: a channel has a sender exactly as long as its guard is in the map or on its way out. -/

namespace Chronos

open Option Function

namespace FlightState

variable (s : FlightState)

section

def place (part : FlightPhase → Option Nat) (i : Nat) : Option (Nat × Nat) :=
  (s.callers i).bind fun caller => (part caller.phase).map fun channel =>
    (caller.generator, channel)

def senders (channel : Nat) : Option (Nat × Nat) :=
  (s.channels channel).map fun found => (found.generator, found.arcs)

variable {s} {i j channel : Nat} {caller : FlightCaller} {phase : FlightPhase}
  {part : FlightPhase → Option Nat}

lemma place_eq (h : s.callers i = some caller) :
    s.place part i = (part caller.phase).map fun channel => (caller.generator, channel) := by
  rw [place, h, bind_some]

lemma place_setPhase (h : s.callers i = some caller) :
    (s.setPhase i phase).place part = update (s.place part) i
      ((part phase).map fun channel => (caller.generator, channel)) := by
  funext j
  by_cases hj : j = i
  · subst hj
    rw [update_self, place, setPhase]
    dsimp only
    rw [update_self, h, map_some, bind_some]
  · rw [update_of_ne hj, place, setPhase]
    dsimp only
    rw [update_of_ne hj]
    rfl

lemma senders_onChannel {f : FlightChannel → FlightChannel} :
    (s.onChannel channel f).senders = update s.senders channel
      ((s.channels channel).map fun found => ((f found).generator, (f found).arcs)) := by
  funext other
  by_cases hother : other = channel
  · subst hother
    rw [update_self, senders, onChannel]
    dsimp only
    rw [update_self, map_map]
    rfl
  · rw [update_of_ne hother, senders, onChannel]
    dsimp only
    rw [update_of_ne hother]
    rfl

variable {x : Nat × Nat}

lemma place_guard (h : s.place FlightPhase.guard i = some x) :
    s.place FlightPhase.registered i = some x ∨ s.place FlightPhase.leaving i = some x := by
  obtain ⟨caller, hcaller, hguard⟩ := bind_eq_some_iff.mp h
  rw [place_eq hcaller, place_eq hcaller]
  cases hphase : caller.phase <;> rw [hphase] at hguard
  case holding | dropping | sent => exact .inl hguard
  case removed => exact .inr hguard
  all_goals cases hguard

lemma place_guard_of_registered (h : s.place FlightPhase.registered i = some x) :
    s.place FlightPhase.guard i = some x := by
  obtain ⟨caller, hcaller, hregistered⟩ := bind_eq_some_iff.mp h
  rw [place_eq hcaller]
  cases hphase : caller.phase <;> rw [hphase] at hregistered
  case holding | dropping | sent => exact hregistered
  all_goals cases hregistered

lemma place_guard_of_leaving (h : s.place FlightPhase.leaving i = some x) :
    s.place FlightPhase.guard i = some x := by
  obtain ⟨caller, hcaller, hleaving⟩ := bind_eq_some_iff.mp h
  rw [place_eq hcaller]
  cases hphase : caller.phase <;> rw [hphase] at hleaving
  case removed => exact hleaving
  all_goals cases hleaving

end

structure Inv : Prop where
  fresh : ∀ channel, s.nextChannel ≤ channel → s.senders channel = none
  held : ∀ i g channel, s.place FlightPhase.registered i = some (g, channel) →
    s.flights g = some channel ∧ s.senders channel = some (g, 2)
  leaving : ∀ i g channel, s.place FlightPhase.leaving i = some (g, channel) →
    s.senders channel = some (g, 1)
  released : ∀ g channel n, s.senders channel = some (g, n) →
    (∀ i, s.place FlightPhase.guard i ≠ some (g, channel)) → n = 0
  entry : ∀ g channel, s.flights g = some channel →
    ∃ i, s.place FlightPhase.registered i = some (g, channel)
  alone : ∀ i j g g' channel, s.place FlightPhase.guard i = some (g, channel) →
    s.place FlightPhase.guard j = some (g', channel) → i = j
  listening : ∀ i g channel, s.place FlightPhase.listens i = some (g, channel) →
    ∃ n, s.senders channel = some (g, n)

structure Quiet (s s' : FlightState) : Prop where
  flights : s'.flights = s.flights
  nextChannel : s'.nextChannel = s.nextChannel
  senders : s'.senders = s.senders
  guard : s'.place FlightPhase.guard = s.place FlightPhase.guard
  registered : s'.place FlightPhase.registered = s.place FlightPhase.registered
  leaving : s'.place FlightPhase.leaving = s.place FlightPhase.leaving
  listens : ∀ i g channel, s'.place FlightPhase.listens i = some (g, channel) →
    s.place FlightPhase.listens i = some (g, channel) ∨ ∃ n, s.senders channel = some (g, n)

section

variable {s} {s' s'' : FlightState} {i j channel : Nat} {caller : FlightCaller}
  {phase : FlightPhase}

lemma Quiet.trans (h : Quiet s s') (h' : Quiet s' s'') : Quiet s s'' :=
  ⟨h'.flights.trans h.flights, h'.nextChannel.trans h.nextChannel, h'.senders.trans h.senders,
    h'.guard.trans h.guard, h'.registered.trans h.registered, h'.leaving.trans h.leaving,
    fun i g channel hx => (h'.listens i g channel hx).elim (h.listens i g channel) fun hn =>
      .inr (h.senders ▸ hn)⟩

lemma Quiet.setPhase (h : s.callers i = some caller) (hguard : phase.guard = caller.phase.guard)
    (hregistered : phase.registered = caller.phase.registered)
    (hleaving : phase.leaving = caller.phase.leaving)
    (hlistens : ∀ channel, phase.listens = some channel → caller.phase.listens = some channel ∨
      ∃ n, s.senders channel = some (caller.generator, n)) :
    Quiet s (s.setPhase i phase) := by
  have hsame : ∀ part : FlightPhase → Option Nat, part phase = part caller.phase →
      (s.setPhase i phase).place part = s.place part := by
    intro part hpart
    rw [place_setPhase h, hpart, ← place_eq h, update_eq_self]
  refine ⟨rfl, rfl, rfl, hsame _ hguard, hsame _ hregistered, hsame _ hleaving,
    fun j g channel hx => ?_⟩
  rw [place_setPhase h] at hx
  by_cases hj : j = i
  · subst hj
    rw [update_self] at hx
    obtain ⟨found, hfound, heq⟩ := map_eq_some_iff.mp hx
    cases heq
    rcases hlistens channel hfound with hold | hknown
    · rw [place_eq h, hold]
      exact .inl rfl
    · exact .inr hknown
  · rw [update_of_ne hj] at hx
    exact .inl hx

lemma Quiet.onChannel {f : FlightChannel → FlightChannel}
    (hf : ∀ found, (f found).generator = found.generator ∧ (f found).arcs = found.arcs) :
    Quiet s (s.onChannel channel f) := by
  refine ⟨rfl, rfl, ?_, rfl, rfl, rfl, fun _ _ _ hx => .inl hx⟩
  rw [senders_onChannel]
  have hsame : (s.channels channel).map (fun found => ((f found).generator, (f found).arcs)) =
      s.senders channel := by
    congr 1
    funext found
    rw [(hf found).1, (hf found).2]
  rw [hsame, update_eq_self]

lemma Inv.quiet (h : s.Inv) (hq : Quiet s s') : s'.Inv := by
  obtain ⟨hflights, hnext, hsenders, hguard, hregistered, hleaving, hlistens⟩ := hq
  constructor
  · rw [hnext, hsenders]
    exact h.fresh
  · rw [hregistered, hflights, hsenders]
    exact h.held
  · rw [hleaving, hsenders]
    exact h.leaving
  · rw [hguard, hsenders]
    exact h.released
  · rw [hregistered, hflights]
    exact h.entry
  · rw [hguard]
    exact h.alone
  rw [hsenders]
  intro i g channel hx
  exact (hlistens i g channel hx).elim (h.listening i g channel) id

end

section

variable {s} {s' : FlightState} {i : Nat} {caller : FlightCaller}

variable {phase : FlightPhase}

lemma Quiet.move (h : s.callers i = some caller)
    (hcaller : caller.phase.guard = none) (hphase : phase.guard = none)
    (hlistens : ∀ channel, phase.listens = some channel → caller.phase.listens = some channel ∨
      ∃ n, s.senders channel = some (caller.generator, n)) :
    Quiet s (s.setPhase i phase) := by
  have hparts : ∀ phase : FlightPhase, phase.guard = none →
      phase.registered = none ∧ phase.leaving = none := by
    intro phase hguard
    cases phase with
    | holding | dropping | sent | removed => cases hguard
    | _ => exact ⟨rfl, rfl⟩
  obtain ⟨hr, hl⟩ := hparts _ hcaller
  obtain ⟨hr', hl'⟩ := hparts _ hphase
  exact .setPhase h (hphase.trans hcaller.symm) (hr'.trans hr.symm) (hl'.trans hl.symm) hlistens

lemma Quiet.leave (h : s.callers i = some caller)
    (hcaller : caller.phase.guard = none) (hphase : phase.guard = none)
    (hlistens : phase.listens = none) : Quiet s (s.leave i caller phase) := by
  have hnothing : ∀ (t : FlightState) channel, phase.listens = some channel →
      caller.phase.listens = some channel ∨ ∃ n, t.senders channel = some (caller.generator, n) :=
    fun _ _ hsome => by rw [hlistens] at hsome; cases hsome
  unfold FlightState.leave
  split
  · exact .move h hcaller hphase (hnothing s)
  · next channel _ =>
    have hchannel : Quiet s (s.onChannel channel FlightChannel.unsubscribe) := .onChannel fun _ =>
      ⟨rfl, rfl⟩
    have hstill := h
    exact hchannel.trans (.move hstill hcaller hphase (hnothing _))

lemma Quiet.call {gen : Nat} {cancellation : Option Nat} (h : s.callers i = none) : Quiet s { s with
      callers := update s.callers i (some ⟨gen, cancellation, .looping⟩) } := by
  have hsame : ∀ part : FlightPhase → Option Nat, part .looping = none → place { s with
        callers := update s.callers i (some ⟨gen, cancellation, .looping⟩) } part =
      s.place part := by
    intro part hpart
    funext j
    unfold place
    dsimp only
    by_cases hj : j = i
    · rw [hj, update_self, h, bind_some, hpart]
      rfl
    · rw [update_of_ne hj]
  refine ⟨rfl, rfl, rfl, hsame _ rfl, hsame _ rfl, hsame _ rfl, fun j g channel hx => .inl ?_⟩
  rwa [hsame _ rfl] at hx

lemma Quiet.notify {cancellation : Nat} : Quiet s { s with
      callers := fun i => (s.callers i).map fun caller =>
        if caller.cancellation = some cancellation then { caller with phase := caller.phase.notify }
        else caller } := by
  have hsame : ∀ part : FlightPhase → Option Nat, (∀ phase, part phase.notify = part phase) →
      place { s with
        callers := fun i => (s.callers i).map fun caller =>
          if caller.cancellation = some cancellation then { caller with phase :=
            caller.phase.notify }
          else caller } part = s.place part := by
    intro part hpart
    funext j
    unfold place
    dsimp only
    cases s.callers j with
    | none => rfl
    | some caller =>
      rw [map_some, bind_some, bind_some]
      split_ifs
      · rw [hpart]
      · rfl
  refine ⟨rfl, rfl, rfl, hsame _ ?_, hsame _ ?_, hsame _ ?_, fun j g channel hx => .inl ?_⟩
  · intro phase
    cases phase <;> rfl
  · intro phase
    cases phase <;> rfl
  · intro phase
    cases phase <;> rfl
  · rwa [hsame _ fun phase => by cases phase <;> rfl] at hx

lemma Quiet.waiting {move : FlightMove} (hcaller : s.callers i = some caller)
    (hmove : s.stepCaller i caller move = some s')
    (hkind : move ∈ [.check, .borrow, .look, .wake, .wakeCancelled, .abandon]) : Quiet s s' := by
  cases move with
  | check =>
    simp only [stepCaller] at hmove
    split at hmove
    · next hphase =>
      cases hmove
      refine .move hcaller (by rw [hphase]; rfl) ?_ fun channel hsome => ?_
      · split_ifs <;> rfl
      · split_ifs at hsome <;> cases hsome
    · cases hmove
  | borrow =>
    simp only [stepCaller] at hmove
    split at hmove
    · next hphase =>
      obtain ⟨found, -, rfl⟩ := map_eq_some_iff.mp hmove
      have hguard : caller.phase.guard = none := by rw [hphase]; rfl
      split_ifs
      · exact .leave hcaller hguard rfl rfl
      · exact .move hcaller hguard rfl fun _ hsome => .inl (by rw [hphase]; exact hsome)
      · exact .move hcaller hguard rfl fun _ hsome => .inl (by rw [hphase]; exact hsome)
    · cases hmove
  | look =>
    simp only [stepCaller] at hmove
    split at hmove
    · next hphase =>
      cases hmove
      have hguard : caller.phase.guard = none := by rw [hphase]; rfl
      split_ifs
      · exact .leave hcaller hguard rfl rfl
      · exact .move hcaller hguard rfl fun _ hsome => .inl (by rw [hphase]; exact hsome)
    · cases hmove
  | wake =>
    simp only [stepCaller] at hmove
    split at hmove
    · next hphase =>
      split at hmove
      · split_ifs at hmove
        cases hmove
        exact .leave hcaller (by rw [hphase]; rfl) rfl rfl
      · cases hmove
    · cases hmove
  | wakeCancelled =>
    simp only [stepCaller] at hmove
    split at hmove
    · next hphase =>
      cases hmove
      exact .leave hcaller (by rw [hphase]; rfl) rfl rfl
    · cases hmove
  | abandon =>
    simp only [stepCaller] at hmove
    split_ifs at hmove with hguard
    cases hmove
    exact .leave hcaller (not_isSome_iff_eq_none.mp hguard) rfl rfl
  | _ => exact absurd hkind (by decide)

lemma Quiet.dropping {move : FlightMove} (hcaller : s.callers i = some caller)
    (hmove : s.stepCaller i caller move = some s') (hkind : move = .dropGuard ∨ move = .send) :
    Quiet s s' := by
  rcases hkind with rfl | rfl <;> simp only [stepCaller] at hmove <;> split at hmove
  · next hphase =>
    cases hmove
    refine .setPhase hcaller ?_ ?_ ?_ nofun
    all_goals
      rw [hphase]
      rfl
  · cases hmove
  · next channel hphase =>
    cases hmove
    have hchannel : Quiet s (s.onChannel channel fun found => found.send true) := by
      refine .onChannel fun found => ?_
      unfold FlightChannel.send
      split_ifs <;> exact ⟨rfl, rfl⟩
    refine hchannel.trans (.setPhase hcaller ?_ ?_ ?_ fun _ hsome => by cases hsome)
    all_goals
      rw [hphase]
      rfl
  · cases hmove

end

section

variable {s} {i g channel : Nat} {caller : FlightCaller}

variable {x : Nat × Nat} {j g' n : Nat} {s' : FlightState}

lemma update_eq_some {f : Nat → Option (Nat × Nat)} {y : Option (Nat × Nat)}
    (h : update f i y j = some x) : j = i ∧ y = some x ∨ j ≠ i ∧ f j = some x := by
  by_cases hj : j = i
  · subst hj
    rw [update_self] at h
    exact .inl ⟨rfl, h⟩
  · rw [update_of_ne hj] at h
    exact .inr ⟨hj, h⟩

lemma update_flight_eq_some {f : Nat → Option Nat}
    (h : update f g none g' = some channel) : g' ≠ g ∧ f g' = some channel := by
  by_cases hg : g' = g
  · rw [hg, update_self] at h
    cases h
  · rw [update_of_ne hg] at h
    exact ⟨hg, h⟩

lemma Inv.senders_guard (h : s.Inv) (hguard : s.place FlightPhase.guard i = some (g, channel)) :
    ∃ n, s.senders channel = some (g, n) := by
  rcases place_guard hguard with hplace | hplace
  · exact ⟨2, (h.held _ _ _ hplace).2⟩
  · exact ⟨1, h.leaving _ _ _ hplace⟩

lemma Inv.ne_next (h : s.Inv) (hsenders : s.senders channel = some x) :
    channel ≠ s.nextChannel := by
  intro heq
  cases (h.fresh channel (Nat.le_of_eq heq.symm)).symm.trans hsenders

lemma Inv.create (h : s.Inv) (hcaller : s.callers i = some caller)
    (hphase : caller.phase = .entering) (hnone : s.flights caller.generator = none) :
    (s.create i caller.generator).Inv := by
  let g := caller.generator
  let t := s.create i g
  have hplace : ∀ part : FlightPhase → Option Nat, t.place part = Function.update (s.place part) i
      ((part (.holding s.nextChannel)).map fun channel => (g, channel)) :=
    fun part => place_setPhase hcaller
  have hsenders : t.senders = Function.update s.senders s.nextChannel (some (g, 2)) := by
    have hchannels : t.channels =
        Function.update s.channels s.nextChannel (some ⟨g, false, 0, 2, 0⟩) := rfl
    funext channel
    unfold FlightState.senders
    rw [hchannels]
    by_cases hchannel : channel = s.nextChannel
    · rw [hchannel, Function.update_self, Function.update_self]
      rfl
    · rw [Function.update_of_ne hchannel, Function.update_of_ne hchannel]
  have hflights : t.flights = Function.update s.flights g (some s.nextChannel) := rfl
  -- what was known of a channel stays so, since the new one is another
  have hkept : ∀ channel x, s.senders channel = some x → t.senders channel = some x := by
    intro channel x hx
    rw [hsenders, Function.update_of_ne (h.ne_next hx), hx]
  have hstill : ∀ j x, s.place FlightPhase.guard j = some x → j ≠ i := by
    intro j x hj heq
    rw [heq, place_eq hcaller, hphase] at hj
    cases hj
  constructor
  · intro channel hle
    have hlt : s.nextChannel < channel := hle
    rw [hsenders, Function.update_of_ne (Nat.ne_of_gt hlt), h.fresh channel (Nat.le_of_lt hlt)]
  · intro j g' channel hj
    rw [hplace] at hj
    rcases update_eq_some hj with ⟨-, heq⟩ | ⟨-, hold⟩
    · cases heq
      rw [hflights, hsenders, Function.update_self, Function.update_self]
      exact ⟨rfl, rfl⟩
    obtain ⟨hflight, hsender⟩ := h.held j g' channel hold
    have hne : g' ≠ g := fun heq => by
      rw [heq, hnone] at hflight
      cases hflight
    rw [hflights, Function.update_of_ne hne]
    exact ⟨hflight, hkept channel _ hsender⟩
  · intro j g' channel hj
    rw [hplace] at hj
    rcases update_eq_some hj with ⟨-, heq⟩ | ⟨-, hold⟩
    · cases heq
    · exact hkept channel _ (h.leaving j g' channel hold)
  · intro g' channel n hsender hno
    rw [hsenders] at hsender
    rcases update_eq_some hsender with ⟨rfl, heq⟩ | ⟨-, hold⟩
    · cases heq
      refine absurd ?_ (hno i)
      rw [hplace, Function.update_self]
      rfl
    · refine h.released g' channel n hold fun j hj => hno j ?_
      rw [hplace, Function.update_of_ne (hstill j _ hj), hj]
  · intro g' channel hflight
    rw [hflights] at hflight
    by_cases hg : g' = g
    · rw [hg, Function.update_self] at hflight
      cases hflight
      refine ⟨i, ?_⟩
      rw [hplace, Function.update_self, hg]
      rfl
    · rw [Function.update_of_ne hg] at hflight
      obtain ⟨j, hj⟩ := h.entry g' channel hflight
      refine ⟨j, ?_⟩
      rw [hplace, Function.update_of_ne (hstill j _ (place_guard_of_registered hj)), hj]
  · intro j j' g1 g2 channel hj hj'
    rw [hplace] at hj hj'
    rcases update_eq_some hj with ⟨rfl, heq⟩ | ⟨-, hold⟩ <;>
      rcases update_eq_some hj' with ⟨rfl, heq'⟩ | ⟨-, hold'⟩
    · rfl
    · cases heq
      exact absurd rfl (h.ne_next (h.senders_guard hold').choose_spec)
    · cases heq'
      exact absurd rfl (h.ne_next (h.senders_guard hold).choose_spec)
    · exact h.alone j j' g1 g2 channel hold hold'
  · intro j g' channel hj
    rw [hplace] at hj
    rcases update_eq_some hj with ⟨-, heq⟩ | ⟨-, hold⟩
    · cases heq
    · obtain ⟨n, hn⟩ := h.listening j g' channel hold
      exact ⟨n, hkept channel _ hn⟩

lemma Inv.subscribe (h : s.Inv) (hcaller : s.callers i = some caller)
    (hphase : caller.phase = .entering) (hflight : s.flights caller.generator = some channel)
    (seen : Nat) :
    ((s.onChannel channel FlightChannel.subscribe).setPhase i (.subscribed channel seen)).Inv := by
  let t := s.onChannel channel FlightChannel.subscribe
  have hquiet : Quiet s t := .onChannel fun _ => ⟨rfl, rfl⟩
  have ht : t.Inv := h.quiet hquiet
  have hstill : t.callers i = some caller := hcaller
  -- the entry that was found belongs to a guard
  obtain ⟨j, hj⟩ := ht.entry caller.generator channel hflight
  refine ht.quiet (.move hstill (by rw [hphase]; rfl) rfl fun other hother => .inr ?_)
  cases hother
  exact ⟨2, (ht.held j _ _ hj).2⟩

lemma Inv.ne_channel (h : s.Inv) {channel' : Nat}
    (hguard : s.place FlightPhase.guard i = some (g, channel))
    (hother : s.place FlightPhase.guard j = some (g', channel')) (hne : j ≠ i) :
    channel' ≠ channel := by
  rintro rfl
  exact hne (h.alone j i g' g channel' hother hguard)

lemma senders_release (h : s.senders channel = some (g, n)) :
    (s.onChannel channel FlightChannel.release).senders =
      update s.senders channel (some (g, n - 1)) := by
  obtain ⟨found, hfound, heq⟩ := map_eq_some_iff.mp h
  obtain ⟨rfl, rfl⟩ := Prod.mk.inj heq
  rw [senders_onChannel, hfound]
  rfl

lemma Inv.letGo {t : FlightState} {phase : FlightPhase} (h : s.Inv)
    (hguard : s.place FlightPhase.guard i = some (g, channel))
    (hphase : phase = .removed channel ∧ n = 1 ∨ phase = .gone ∧ n = 0)
    (hnext : t.nextChannel = s.nextChannel)
    (hflights : ∀ g' channel', t.flights g' = some channel' ↔ s.flights g' = some channel' ∧
      channel' ≠ channel)
    (hsenders : t.senders = Function.update s.senders channel (some (g, n)))
    (hplace : ∀ part : FlightPhase → Option Nat, t.place part = Function.update (s.place part) i
      ((part phase).map fun channel => (g, channel))) : t.Inv := by
  obtain ⟨m, hsender⟩ := h.senders_guard hguard
  have hregistered : phase.registered = none := by rcases hphase with ⟨rfl, -⟩ | ⟨rfl, -⟩ <;> rfl
  have hlistens : phase.listens = none := by rcases hphase with ⟨rfl, -⟩ | ⟨rfl, -⟩ <;> rfl
  -- the other guards have other channels
  have hkept : ∀ j g' channel' x, s.place FlightPhase.guard j = some (g', channel') → j ≠ i →
      s.senders channel' = some x → t.senders channel' = some x := by
    intro j g' channel' x hj hne hx
    rw [hsenders, Function.update_of_ne (h.ne_channel hguard hj hne), hx]
  have hback : ∀ j x, t.place FlightPhase.guard j = some x →
      s.place FlightPhase.guard j = some x := by
    intro j x hj
    rw [hplace] at hj
    rcases update_eq_some hj with ⟨rfl, heq⟩ | ⟨-, hold⟩
    · rcases hphase with ⟨rfl, -⟩ | ⟨rfl, -⟩
      · rw [hguard, ← heq]
        rfl
      · cases heq
    · exact hold
  constructor
  · intro channel' hle
    have hfresh := h.fresh channel' (hnext ▸ hle)
    have hne : channel' ≠ channel := fun heq => by
      rw [heq, hsender] at hfresh
      cases hfresh
    rw [hsenders, Function.update_of_ne hne, hfresh]
  · intro j g' channel' hj
    rw [hplace, hregistered] at hj
    rcases update_eq_some hj with ⟨-, heq⟩ | ⟨hne, hold⟩
    · cases heq
    have hold' := place_guard_of_registered hold
    obtain ⟨hflight, hsender'⟩ := h.held j g' channel' hold
    exact ⟨(hflights g' channel').mpr ⟨hflight, h.ne_channel hguard hold' hne⟩,
      hkept j g' channel' _ hold' hne hsender'⟩
  · intro j g' channel' hj
    rw [hplace] at hj
    rcases update_eq_some hj with ⟨-, heq⟩ | ⟨hne, hold⟩
    · rcases hphase with ⟨rfl, rfl⟩ | ⟨rfl, -⟩
      · cases heq
        rw [hsenders, Function.update_self]
      · cases heq
    · exact hkept j g' channel' _ (place_guard_of_leaving hold) hne (h.leaving j g' channel' hold)
  · intro g' channel' n' hn hno
    rw [hsenders] at hn
    rcases update_eq_some hn with ⟨rfl, heq⟩ | ⟨hne, hold⟩
    · cases heq
      rcases hphase with ⟨rfl, -⟩ | ⟨-, hzero⟩
      · refine absurd ?_ (hno i)
        rw [hplace, Function.update_self]
        rfl
      · exact hzero
    · refine h.released g' channel' n' hold fun j hj => hno j ?_
      have hji : j ≠ i := fun heq => by
        rw [heq, hguard] at hj
        cases hj
        exact hne rfl
      rw [hplace, Function.update_of_ne hji, hj]
  · intro g' channel' hflight
    obtain ⟨hold, hne⟩ := (hflights g' channel').mp hflight
    obtain ⟨j, hj⟩ := h.entry g' channel' hold
    have hji : j ≠ i := fun heq => by
      have hj' := place_guard_of_registered hj
      rw [heq, hguard] at hj'
      cases hj'
      exact hne rfl
    exact ⟨j, by rw [hplace, Function.update_of_ne hji, hj]⟩
  · intro j j' g1 g2 channel' hj hj'
    exact h.alone j j' g1 g2 channel' (hback j _ hj) (hback j' _ hj')
  · intro j g' channel' hj
    rw [hplace, hlistens] at hj
    rcases update_eq_some hj with ⟨-, heq⟩ | ⟨-, hold⟩
    · cases heq
    obtain ⟨k, hk⟩ := h.listening j g' channel' hold
    rw [hsenders]
    by_cases hchannel : channel' = channel
    · rw [hchannel, hsender] at hk
      cases hk
      exact ⟨n, by rw [hchannel, Function.update_self]⟩
    · exact ⟨k, by rw [Function.update_of_ne hchannel, hk]⟩

lemma Inv.remove (h : s.Inv) (hcaller : s.callers i = some caller)
    (hphase : caller.phase = .sent channel) :
    ((s.takeEntry caller.generator).setPhase i (.removed channel)).Inv := by
  let g := caller.generator
  have hregistered : s.place FlightPhase.registered i = some (g, channel) := by
    rw [place_eq hcaller, hphase]
    rfl
  obtain ⟨hflight, hsender⟩ := h.held i g channel hregistered
  have htake : s.takeEntry g = { s.onChannel channel FlightChannel.release with
      flights := Function.update s.flights g none } := by
    unfold takeEntry
    rw [hflight]
  rw [htake]
  refine h.letGo (place_guard_of_registered hregistered) (.inl ⟨rfl, rfl⟩) rfl
    (fun g' channel' => ⟨fun hg' => ?_, fun hg' => ?_⟩) (senders_release hsender)
    fun part => place_setPhase hcaller
  · obtain ⟨hne, hold⟩ := update_flight_eq_some hg'
    refine ⟨hold, fun heq => hne ?_⟩
    -- an entry for this channel is an entry for its generator
    obtain ⟨j, hj⟩ := h.entry g' channel' hold
    have hsender' := (h.held j g' channel' hj).2
    rw [heq, hsender] at hsender'
    cases hsender'
    rfl
  · have hne : g' ≠ g := fun heq => by
      rw [heq, hflight] at hg'
      exact hg'.2 (Option.some.inj hg'.1).symm
    exact (Function.update_of_ne hne none s.flights).trans hg'.1

lemma Inv.dropSender (h : s.Inv) (hcaller : s.callers i = some caller)
    (hphase : caller.phase = .removed channel) :
    ((s.onChannel channel FlightChannel.release).setPhase i .gone).Inv := by
  have hleaving : s.place FlightPhase.leaving i = some (caller.generator, channel) := by
    rw [place_eq hcaller, hphase]
    rfl
  have hsender := h.leaving i caller.generator channel hleaving
  refine h.letGo (place_guard_of_leaving hleaving) (.inr ⟨rfl, rfl⟩) rfl
    (fun g' channel' => ⟨fun hg' => ⟨hg', fun heq => ?_⟩, And.left⟩) (senders_release hsender)
    fun part => place_setPhase hcaller
  -- the map has no reference left
  obtain ⟨j, hj⟩ := h.entry g' channel' hg'
  have hsender' := (h.held j g' channel' hj).2
  rw [heq, hsender] at hsender'
  cases hsender'

lemma inv_initial : initial.Inv where
  fresh _ _ := rfl
  held _ _ _ h := by cases h
  leaving _ _ _ h := by cases h
  released _ _ _ h := by cases h
  entry _ _ h := by cases h
  alone _ _ _ _ _ h := by cases h
  listening _ _ _ h := by cases h

lemma Inv.stepCaller {move : FlightMove} (h : s.Inv)
    (hcaller : s.callers i = some caller) (hmove : s.stepCaller i caller move = some s') :
    s'.Inv := by
  cases move with
  | check | borrow | look | wake | wakeCancelled | abandon =>
    exact h.quiet (.waiting hcaller hmove (by decide))
  | dropGuard => exact h.quiet (.dropping hcaller hmove (.inl rfl))
  | send => exact h.quiet (.dropping hcaller hmove (.inr rfl))
  | enter =>
    simp only [FlightState.stepCaller] at hmove
    split at hmove
    · next hphase =>
      split at hmove
      · next hnone =>
        cases hmove
        exact h.create hcaller hphase hnone
      · next channel hflight =>
        obtain ⟨found, -, rfl⟩ := map_eq_some_iff.mp hmove
        exact h.subscribe hcaller hphase hflight found.version
    · cases hmove
  | remove =>
    simp only [FlightState.stepCaller] at hmove
    split at hmove
    · next hphase =>
      cases hmove
      exact h.remove hcaller hphase
    · cases hmove
  | dropSender =>
    simp only [FlightState.stepCaller] at hmove
    split at hmove
    · next hphase =>
      cases hmove
      exact h.dropSender hcaller hphase
    · cases hmove

lemma Inv.step {l : FlightLabel} (h : s.Inv) (hstep : s.step l = some s') : s'.Inv := by
  cases l with
  | call i gen cancellation =>
    simp only [FlightState.step] at hstep
    split at hstep
    · cases hstep
    · next hnone =>
      cases hstep
      exact h.quiet (.call hnone)
  | cancel cancellation =>
    cases hstep
    exact h.quiet ⟨rfl, rfl, rfl, rfl, rfl, rfl, fun _ _ _ hx => .inl hx⟩
  | notify cancellation =>
    simp only [FlightState.step] at hstep
    split_ifs at hstep
    cases hstep
    exact h.quiet .notify
  | move i move =>
    obtain ⟨caller, hcaller, hmove⟩ := bind_eq_some_iff.mp hstep
    exact h.stepCaller hcaller hmove

variable (s)

def Flying (g i : Nat) : Prop := ∃ channel, s.place FlightPhase.registered i = some (g, channel)

def Guarding (g i : Nat) : Prop := ∃ channel, s.place FlightPhase.guard i = some (g, channel)

def Blocked (g i : Nat) : Prop :=
  ∃ cancellation channel seen notified,
    s.callers i = some ⟨g, cancellation, .waiting channel seen notified⟩

variable {s}

lemma Inv.flying_unique (h : s.Inv) (hi : s.Flying g i) (hj : s.Flying g j) : i = j := by
  obtain ⟨channel, hchannel⟩ := hi
  obtain ⟨channel', hchannel'⟩ := hj
  have hflight := (h.held i g channel hchannel).1
  cases ((h.held j g channel' hchannel').1).symm.trans hflight
  exact h.alone i j g g _ (place_guard_of_registered hchannel) (place_guard_of_registered hchannel')

lemma Inv.flights_isSome_iff (h : s.Inv) : (s.flights g).isSome ↔ ∃ i, s.Flying g i := by
  constructor
  · intro hsome
    obtain ⟨channel, hchannel⟩ := isSome_iff_exists.mp hsome
    obtain ⟨i, hi⟩ := h.entry g channel hchannel
    exact ⟨i, channel, hi⟩
  · rintro ⟨i, channel, hi⟩
    rw [(h.held i g channel hi).1]
    rfl

lemma Inv.wake_of_blocked (h : s.Inv) (hfree : ∀ j, ¬ s.Guarding g j) (hi : s.Blocked g i) :
    (s.step (.move i .wake)).isSome := by
  obtain ⟨cancellation, channel, seen, notified, hcaller⟩ := hi
  have hlistens : s.place FlightPhase.listens i = some (g, channel) := by
    rw [place_eq hcaller]
    rfl
  obtain ⟨n, hn⟩ := h.listening i g channel hlistens
  have hzero := h.released g channel n hn fun j hj => hfree j ⟨channel, hj⟩
  obtain ⟨found, hfound, heq⟩ := map_eq_some_iff.mp hn
  have harcs : found.arcs = 0 := (Prod.mk.inj heq).2.trans hzero
  simp [FlightState.step, hcaller, FlightState.stepCaller, hfound, FlightChannel.changed, harcs]

end

end FlightState

abbrev FlightRun : FlightState → Prop :=
  Transition.Reach FlightState.step (fun _ _ => True) .initial

lemma FlightRun.inv {s : FlightState} (h : FlightRun s) : s.Inv :=
  h.invariant FlightState.inv_initial fun _ _ _ hs _ hstep => hs.step hstep

/-- At most one guard of a generator is live, the map has an entry exactly from its creation until
its drop removes it, and once nobody has a guard every caller that waits can go on. -/
theorem lease_flight_is_single {s : FlightState} (h : FlightRun s) (g : Nat) :
    (∀ i j, s.Flying g i → s.Flying g j → i = j) ∧ ((s.flights g).isSome ↔ ∃ i, s.Flying g i) ∧
      ((∀ j, ¬ s.Guarding g j) → ∀ i, s.Blocked g i → (s.step (.move i .wake)).isSome) :=
  ⟨fun _ _ => h.inv.flying_unique, h.inv.flights_isSome_iff, fun hfree _ =>
    h.inv.wake_of_blocked hfree⟩

/-- Two callers for generator 7: the second subscribes after the completion was sent to nobody, and
before the entry is removed. -/
def lateSubscriber : List FlightLabel :=
  [.call 0 7 none, .move 0 .check, .move 0 .enter, .call 1 7 none, .move 1 .check,
    .move 0 .dropGuard, .move 0 .send, .move 1 .enter, .move 1 .borrow, .move 0 .remove,
    .move 0 .dropSender]

/-- The late subscriber waits, and wakes because the sender is gone. -/
theorem late_subscriber_wakes : ∃ s, FlightRun s ∧ (∀ j, ¬ s.Guarding 7 j) ∧ s.Blocked 7 1 ∧
      (s.step (.move 1 .wake)).isSome := by
  have hsome : (Transition.run FlightState.step (fun _ _ => True) lateSubscriber .initial).isSome :=
    rfl
  let s := (Transition.run FlightState.step (fun _ _ => True) lateSubscriber .initial).get hsome
  have hs : FlightRun s := Transition.Reach.refl.of_run (some_get hsome).symm
  have hfree : ∀ j, ¬ s.Guarding 7 j := by
    rintro j ⟨channel, hj⟩
    have hnone : s.place FlightPhase.guard j = none := by
      match j with
      | 0 => rfl
      | 1 => rfl
      | j + 2 => rfl
    cases hnone.symm.trans hj
  have hblocked : s.Blocked 7 1 := ⟨none, 0, 0, false, rfl⟩
  exact ⟨s, hs, hfree, hblocked, (lease_flight_is_single hs 7).2.2 hfree 1 hblocked⟩

end Chronos
