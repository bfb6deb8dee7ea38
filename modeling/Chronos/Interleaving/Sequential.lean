import Chronos.Interleaving.Alone
import Chronos.Interleaving.History
import Chronos.Transition.Run

/-! One actor that performs one program at a time. Others may change the world between two of its
operations, in the ways a drift relation allows; an actor that restarts loses the program it was in.
-/

namespace Interleaving

open List

variable {S : Signature} {Actor Choice Event World Entry ε α β : Type}

section

def Prog.Uses (P : S.Op → Prop) : Prog S ε α → Prop
  | .ret _ => True
  | .fail _ => True
  | .call o k => P o ∧ ∀ r, (k r).Uses P

variable {P : S.Op → Prop}

lemma Prog.uses_op {o : S.Op} (h : P o) : (Prog.op o : Prog S ε (S.Reply o)).Uses P :=
  ⟨h, fun _ => trivial⟩

lemma Prog.uses_ofExcept {x : Except ε α} : (Prog.ofExcept x : Prog S ε α).Uses P := by
  cases x with
  | error e => trivial
  | ok y => trivial

variable {p : Prog S ε α} {f : α → Prog S ε β}

lemma Prog.Uses.bind (hp : p.Uses P) (hf : ∀ x, (f x).Uses P) : (p >>= f).Uses P := by
  induction p with
  | ret x => exact hf x
  | fail e => trivial
  | call o k ih => exact ⟨hp.1, fun r => ih r (hp.2 r)⟩

lemma Prog.Uses.imp {P' : S.Op → Prop} (hp : p.Uses P) (h : ∀ o, P o → P' o) : p.Uses P' := by
  induction p with
  | ret x => trivial
  | fail e => trivial
  | call o k ih => exact ⟨h o hp.1, fun r => ih r (hp.2 r)⟩

lemma Prog.Uses.attempt (hp : p.Uses P) : p.attempt.Uses P := by
  induction p with
  | ret x => trivial
  | fail e => trivial
  | call o k ih => exact ⟨hp.1, fun r => ih r (hp.2 r)⟩

lemma Prog.Uses.bind_of_ends {Q : α → Prop}
    (hp : p.Uses P) (hends : p.Ends (fun _ _ => True) (fun _ => True) Q)
    (hf : ∀ x, Q x → (f x).Uses P) : (p >>= f).Uses P := by
  induction p with
  | ret x => exact hf x hends
  | fail e => trivial
  | call o k ih => exact ⟨hp.1, fun r => ih r (hp.2 r) (hends r trivial)⟩

section

variable {M : Machine S Actor Choice Event World} {code : Actor → Entry → Prog S ε α}
  {G : Guard S Actor Choice Event World Entry} {s0 s : Sys S Actor World ε α}

lemma Reach.uses (h : Reach M code G s0 s) (hcode : ∀ a e, G.entry a e → (code a e).Uses P)
    (h0 : ∀ t ∈ s0.threads, t.prog.Uses P) : ∀ t ∈ s.threads, t.prog.Uses P := by
  induction h with
  | refl => exact h0
  | @tail s s' l _ hG hstep ih =>
    intro t ht
    obtain ⟨a, e, rfl, rfl⟩ | ⟨i, c, a, o, k, r, w, rfl, hi, -, rfl⟩ | ⟨i, rfl, rfl⟩ |
      ⟨e, w, rfl, -, rfl⟩ := step_cases hstep
    · rcases mem_append.mp ht with ht | ht
      · exact ih t ht
      · rw [mem_singleton.mp ht]
        exact hcode a e hG
    · rcases mem_or_eq_of_mem_set ht with ht | rfl
      · exact ih t ht
      · exact (ih _ (mem_of_getElem? hi)).2 r
    · exact ih t (mem_of_mem_eraseIdx ht)
    · exact ih t ht

lemma Reach.invariant_of_uses {I : World → Prop} (h : Reach M code G s0 s)
    (hcode : ∀ a e, G.entry a e → (code a e).Uses P)
    (hthreads : ∀ t ∈ s0.threads, t.prog.Uses P) (h0 : I s0.world)
    (hexec : ∀ a o c w r w', P o → I w → M.exec a o c w = some (r, w') → I w')
    (henv : ∀ e w w', I w → M.env e w = some w' → I w') : I s.world := by
  induction h with
  | refl => exact h0
  | @tail s s' l hreach _ hstep ih =>
    obtain ⟨a, e, rfl, rfl⟩ | ⟨i, c, a, o, k, r, w, rfl, hi, hx, rfl⟩ | ⟨i, rfl, rfl⟩ |
      ⟨e, w, rfl, hx, rfl⟩ := step_cases hstep
    · exact ih
    · have huses := hreach.uses hcode hthreads _ (mem_of_getElem? hi)
      exact hexec a o c _ r w huses.1 ih hx
    · exact ih
    · exact henv e _ w ih hx

end

end

structure Setting (S : Signature) (Actor Choice Event World : Type) where
  machine : Machine S Actor Choice Event World
  actor : Actor
  Allowed : S.Op → Choice → World → Prop
  Drift : World → World → Prop
  drift_refl (w : World) : Drift w w
  drift_trans {w₁ w₂ w₃ : World} : Drift w₁ w₂ → Drift w₂ w₃ → Drift w₁ w₃

namespace Setting

def alone (M : Machine S Actor Choice Event World) (a : Actor) :
    Setting S Actor Choice Event World where
  machine := M
  actor := a
  Allowed _ _ _ := True
  Drift w w' := w' = w
  drift_refl _ := rfl
  drift_trans h₁ h₂ := h₂.trans h₁

variable (L : Setting S Actor Choice Event World) (I : World → Prop)

/-- From `w` on every operation of the program keeps `I`, and the program ends as `Q` says. -/
def Wp : Prog S ε α → (Except ε α → World → Prop) → World → Prop
  | .ret x, Q, w => ∀ w₁, L.Drift w w₁ → Q (.ok x) w₁
  | .fail e, Q, w => ∀ w₁, L.Drift w w₁ → Q (.error e) w₁
  | .call o k, Q, w => ∀ w₁, L.Drift w w₁ → I w₁ → ∀ c r w₂, L.Allowed o c w₁ →
      L.machine.exec L.actor o c w₁ = some (r, w₂) → I w₂ ∧ Wp (k r) Q w₂

variable {L I} {p : Prog S ε α} {Q : Except ε α → World → Prop} {w w' : World}

lemma Wp.drift (h : L.Wp I p Q w) (hd : L.Drift w w') : L.Wp I p Q w' := by
  cases p with
  | ret x => exact fun w1 h1 => h w1 (L.drift_trans hd h1)
  | fail e => exact fun w1 h1 => h w1 (L.drift_trans hd h1)
  | call o k => exact fun w1 h1 => h w1 (L.drift_trans hd h1)

section

lemma wp_pure {x : α} (h : ∀ w1, L.Drift w w1 → Q (.ok x) w1) :
    L.Wp I (pure x : Prog S ε α) Q w := h

lemma wp_fail {e : ε} (h : ∀ w1, L.Drift w w1 → Q (.error e) w1) :
    L.Wp I (.fail e : Prog S ε α) Q w := h

lemma wp_ofExcept {x : Except ε α} (h : ∀ w1, L.Drift w w1 → Q x w1) :
    L.Wp I (.ofExcept x) Q w := by
  cases x with
  | error e => exact h
  | ok y => exact h

lemma wp_op {o : S.Op} {Q : Except ε (S.Reply o) → World → Prop}
    (h : ∀ w1, L.Drift w w1 → I w1 → ∀ c r w2, L.Allowed o c w1 →
      L.machine.exec L.actor o c w1 = some (r, w2) → I w2 ∧ ∀ w3, L.Drift w2 w3 → Q (.ok r) w3) :
    L.Wp I (.op o : Prog S ε (S.Reply o)) Q w := h

lemma Wp.imp {R : Except ε α → World → Prop} (h : L.Wp I p Q w)
    (himp : ∀ out w1, Q out w1 → R out w1) : L.Wp I p R w := by
  induction p generalizing w with
  | ret x => exact fun w1 h1 => himp _ _ (h w1 h1)
  | fail e => exact fun w1 h1 => himp _ _ (h w1 h1)
  | call o k ih =>
    intro w1 h1 hI c r w2 hc hexec
    obtain ⟨hI2, hrest⟩ := h w1 h1 hI c r w2 hc hexec
    exact ⟨hI2, ih r hrest⟩

lemma Wp.bind {f : α → Prog S ε β} {R : Except ε α → World → Prop}
    {Q : Except ε β → World → Prop} (h : L.Wp I p R w)
    (hok : ∀ x w1, R (.ok x) w1 → L.Wp I (f x) Q w1)
    (herr : ∀ e w1, R (.error e) w1 → Q (.error e) w1) : L.Wp I (p >>= f) Q w := by
  induction p generalizing w with
  | ret x => exact hok x w (h w (L.drift_refl w))
  | fail e => exact fun w1 h1 => herr e w1 (h w1 h1)
  | call o k ih =>
    intro w1 h1 hI c r w2 hc hexec
    obtain ⟨hI2, hrest⟩ := h w1 h1 hI c r w2 hc hexec
    exact ⟨hI2, ih r hrest⟩

lemma Wp.attempt_bind {f : Except ε α → Prog S ε β} {R : Except ε α → World → Prop}
    {Q : Except ε β → World → Prop} (h : L.Wp I p R w)
    (hnext : ∀ out w1, R out w1 → L.Wp I (f out) Q w1) : L.Wp I (p.attempt >>= f) Q w := by
  induction p generalizing w with
  | ret x => exact hnext _ w (h w (L.drift_refl w))
  | fail e => exact hnext _ w (h w (L.drift_refl w))
  | call o k ih =>
    intro w1 h1 hI c r w2 hc hexec
    obtain ⟨hI2, hrest⟩ := h w1 h1 hI c r w2 hc hexec
    exact ⟨hI2, ih r hrest⟩

variable {J : World → Prop}

lemma Wp.retry {η : Type} {request : Prog S ε (Except η α)} {again : Prog S ε Bool}
    {R : Except η α → World → Prop}
    (hdrift : ∀ r w1 w2, R r w1 → L.Drift w1 w2 → R r w2)
    (hrequest : ∀ w1, J w1 → L.Wp I request (fun out w2 => ∃ r, out = .ok r ∧ R r w2) w1)
    (hagain : ∀ e w1, R (.error e) w1 →
      L.Wp I again (fun out w2 => (∃ b, out = .ok b) ∧ R (.error e) w2) w1)
    (hfailed : ∀ e w1, R (.error e) w1 → J w1) (n : Nat) (h : J w) :
    L.Wp I (request.retry again n) (fun out w1 => ∃ r, out = .ok r ∧ R r w1) w := by
  induction n generalizing w with
  | zero => exact hrequest w h
  | succ n ih =>
    refine Wp.bind (hrequest w h) (fun r w1 hr => ?_) fun e w1 hr => ?_
    · obtain ⟨r', heq, hr⟩ := hr
      cases heq
      cases r with
      | ok x => exact fun w2 h2 => ⟨_, rfl, hdrift _ _ _ hr h2⟩
      | error e =>
        refine Wp.bind (hagain e w1 hr) (fun allowed w2 hnext => ?_) fun e' w2 hnext => ?_
        · split
          · exact ih (hfailed e w2 hnext.2)
          · exact fun w3 h3 => ⟨_, rfl, hdrift _ _ _ hnext.2 h3⟩
        · obtain ⟨b, hb⟩ := hnext.1
          cases hb
    · obtain ⟨r, heq, -⟩ := hr
      cases heq

lemma Wp.of_uses {P : S.Op → Prop} (hp : p.Uses P) (hdrift : ∀ w1 w2, J w1 → L.Drift w1 w2 → J w2)
    (hop : ∀ o c r w1 w2, P o → L.Allowed o c w1 →
      L.machine.exec L.actor o c w1 = some (r, w2) → (I w1 → I w2) ∧ (J w1 → J w2))
    (hJ : J w) : L.Wp I p (fun _ => J) w := by
  induction p generalizing w with
  | ret x => exact fun w1 h1 => hdrift w w1 hJ h1
  | fail e => exact fun w1 h1 => hdrift w w1 hJ h1
  | call o k ih =>
    intro w1 h1 hI c r w2 hc hexec
    obtain ⟨hI2, hJ2⟩ := hop o c r w1 w2 hp.1 hc hexec
    exact ⟨hI2 hI, ih r (hp.2 r) (hJ2 (hdrift w w1 hJ h1))⟩

end

lemma Wp.of_alone {M : Machine S Actor Choice Event World} {a : Actor} {out : Except ε α}
    (h : (alone M a).Wp (fun _ => True) p Q w) (hrun : Alone M a p w out w') : Q out w' := by
  induction hrun with
  | ret => exact h _ rfl
  | fail => exact h _ rfl
  | @call o k c r w w1 out w2 hexec _ ih => exact ih (h w rfl trivial c r w1 trivial hexec).2

end Setting

section

/-- A world and the program the actor is in, with the entry that started it. -/
structure Single (S : Signature) (World Entry ε α : Type) where
  world : World
  running : Option (Entry × Prog S ε α)

inductive Turn (Entry Choice Event : Type) where
  | start (e : Entry)
  | call (c : Choice)
  | finish
  | env (e : Event)
  | restart

def turn (M : Machine S Actor Choice Event World) (a : Actor) (code : Entry → Prog S ε α)
    (reset : World → World) (s : Single S World Entry ε α) :
    Turn Entry Choice Event → Option (Single S World Entry ε α)
  | .start e =>
    match s.running with
    | none => some { s with running := some (e, code e) }
    | some _ => none
  | .call c =>
    match s.running with
    | some (e, .call o k) => (M.exec a o c s.world).map fun x => ⟨x.2, some (e, k x.1)⟩
    | _ => none
  | .finish =>
    match s.running with
    | some (_, .ret _) | some (_, .fail _) => some { s with running := none }
    | _ => none
  | .env e => (M.env e s.world).map fun w => { s with world := w }
  | .restart => some ⟨reset s.world, none⟩

variable {M : Machine S Actor Choice Event World} {a : Actor} {code : Entry → Prog S ε α}
  {reset : World → World} {G : Single S World Entry ε α → Turn Entry Choice Event → Prop}
  {s0 s s' : Single S World Entry ε α}

def Single.outcome (s : Single S World Entry ε α) : Option (Entry × Except ε α) :=
  match s.running with
  | some (e, .ret x) => some (e, .ok x)
  | some (e, .fail err) => some (e, .error err)
  | _ => none

variable {t : Turn Entry Choice Event}

lemma turn_cases (h : turn M a code reset s t = some s') :
    (∃ e, t = .start e ∧ s.running = none ∧ s' = { s with running := some (e, code e) }) ∨
    (∃ c e o k r w, t = .call c ∧ s.running = some (e, .call o k) ∧
      M.exec a o c s.world = some (r, w) ∧ s' = ⟨w, some (e, k r)⟩) ∨
    (∃ e out, t = .finish ∧ s.outcome = some (e, out) ∧
      s.running = some (e, .ofExcept out) ∧ s' = { s with running := none }) ∨
    (∃ e w, t = .env e ∧ M.env e s.world = some w ∧ s' = { s with world := w }) ∨
    (t = .restart ∧ s' = ⟨reset s.world, none⟩) := by
  obtain ⟨w, running⟩ := s
  cases t with
  | start e =>
    cases running with
    | none => exact .inl ⟨e, rfl, rfl, (Option.some.inj h).symm⟩
    | some x => cases h
  | call c =>
    match running, h with
    | some (e, .call o k), h =>
      obtain ⟨⟨r, w'⟩, hexec, rfl⟩ := Option.map_eq_some_iff.mp h
      exact .inr (.inl ⟨c, e, o, k, r, w', rfl, rfl, hexec, rfl⟩)
  | finish =>
    match running, h with
    | some (e, .ret x), h =>
      exact .inr (.inr (.inl ⟨e, .ok x, rfl, rfl, rfl, (Option.some.inj h).symm⟩))
    | some (e, .fail x), h =>
      exact .inr (.inr (.inl ⟨e, .error x, rfl, rfl, rfl, (Option.some.inj h).symm⟩))
  | env e =>
    obtain ⟨w', henv, rfl⟩ := Option.map_eq_some_iff.mp h
    exact .inr (.inr (.inr (.inl ⟨e, w', rfl, henv, rfl⟩)))
  | restart => exact .inr (.inr (.inr (.inr ⟨rfl, (Option.some.inj h).symm⟩)))

structure Keeps (M : Machine S Actor Choice Event World) (a : Actor) (code : Entry → Prog S ε α)
    (reset : World → World) (G : Single S World Entry ε α → Turn Entry Choice Event → Prop)
    (L : Entry → Setting S Actor Choice Event World) (I Rest : World → Prop)
    (Q : Entry → Except ε α → World → Prop) : Prop where
  machine e : (L e).machine = M
  actor e : (L e).actor = a
  start e w : G ⟨w, none⟩ (.start e) → I w → Rest w → (L e).Wp I (code e) (Q e) w
  allowed e o k c w : G ⟨w, some (e, .call o k)⟩ (.call c) → (L e).Allowed o c w
  finish e out w : G ⟨w, some (e, .ofExcept out)⟩ .finish → I w → Q e out w → Rest w
  drift e p ev w w' : G ⟨w, some (e, p)⟩ (.env ev) → M.env ev w = some w' → (L e).Drift w w'
  env s ev w' : G s (.env ev) → M.env ev s.world = some w' → I s.world → I w'
  env_rest ev w w' : G ⟨w, none⟩ (.env ev) → M.env ev w = some w' → I w → Rest w → Rest w'
  restart s : G s .restart → I s.world → I (reset s.world) ∧ Rest (reset s.world)

structure OnTheWay (L : Entry → Setting S Actor Choice Event World) (I Rest : World → Prop)
    (Q : Entry → Except ε α → World → Prop) (s : Single S World Entry ε α) : Prop where
  inv : I s.world
  rest : s.running = none → Rest s.world
  busy : ∀ e p, s.running = some (e, p) → (L e).Wp I p (Q e) s.world

variable {L : Entry → Setting S Actor Choice Event World} {I Rest : World → Prop}
  {Q : Entry → Except ε α → World → Prop}

lemma OnTheWay.turn (hK : Keeps M a code reset G L I Rest Q) (h : OnTheWay L I Rest Q s)
    (hG : G s t) (hstep : turn M a code reset s t = some s') :
    OnTheWay L I Rest Q s' := by
  obtain ⟨w, running⟩ := s
  rcases turn_cases hstep with ⟨e, rfl, hidle, rfl⟩ | ⟨c, e, o, k, r, w', rfl, hrun, hexec, rfl⟩ |
    ⟨e, out, rfl, -, hrun, rfl⟩ | ⟨ev, w', rfl, henv, rfl⟩ | ⟨rfl, rfl⟩
  · obtain rfl : running = none := hidle
    refine ⟨h.inv, (fun hnone => by cases hnone), fun e' p' hrun => ?_⟩
    obtain ⟨rfl, rfl⟩ := Prod.mk.inj (Option.some.inj hrun)
    exact hK.start e w hG h.inv (h.rest rfl)
  · obtain rfl : running = some (e, .call o k) := hrun
    have hallowed := hK.allowed e o k c w hG
    obtain ⟨hI, hwp⟩ := h.busy e _ rfl w ((L e).drift_refl w) h.inv c r w' hallowed
      (by rw [hK.machine e, hK.actor e]; exact hexec)
    refine ⟨hI, (fun hnone => by cases hnone), fun e' p' hrun => ?_⟩
    obtain ⟨rfl, rfl⟩ := Prod.mk.inj (Option.some.inj hrun)
    exact hwp
  · obtain rfl : running = some (e, .ofExcept out) := hrun
    have hQ : Q e out w := by
      have hend := h.busy e _ rfl
      cases out with
      | ok x => exact hend w ((L e).drift_refl w)
      | error x => exact hend w ((L e).drift_refl w)
    exact ⟨h.inv, fun _ => hK.finish e out w hG h.inv hQ, fun _ _ hrun => by cases hrun⟩
  · refine ⟨hK.env _ ev w' hG henv h.inv, fun hnone => ?_, fun e p hrun => ?_⟩
    · obtain rfl : running = none := hnone
      exact hK.env_rest ev w w' hG henv h.inv (h.rest rfl)
    · obtain rfl : running = some (e, p) := hrun
      exact (h.busy e p rfl).drift (hK.drift e p ev w w' hG henv)
  · obtain ⟨hI, hrest⟩ := hK.restart _ hG h.inv
    exact ⟨hI, fun _ => hrest, fun _ _ hrun => by cases hrun⟩

lemma OnTheWay.outcome (h : OnTheWay L I Rest Q s) {e : Entry} {out : Except ε α}
    (hout : s.outcome = some (e, out)) : Q e out s.world := by
  unfold Single.outcome at hout
  split at hout
  · next hrun =>
    cases hout
    exact h.busy _ _ hrun _ ((L e).drift_refl _)
  · next hrun =>
    cases hout
    exact h.busy _ _ hrun _ ((L e).drift_refl _)
  · cases hout

lemma Keeps.reach (hK : Keeps M a code reset G L I Rest Q) {w0 : World} (hI : I w0)
    (hrest : Rest w0) (h : Transition.Reach (turn M a code reset) G ⟨w0, none⟩ s) :
    OnTheWay L I Rest Q s :=
  h.invariant ⟨hI, fun _ => hrest, fun _ _ hrun => by cases hrun⟩
    fun _ _ _ hs hG hstep => hs.turn hK hG hstep

section

def carryOut (M : Machine S Actor Choice Event World) (a : Actor) (code : Entry → Prog S ε α)
    (reset : World → World) (G : Single S World Entry ε α → Turn Entry Choice Event → Prop)
    [∀ s t, Decidable (G s t)] (pick : S.Op → Choice) :
    Nat → Single S World Entry ε α → Option (Single S World Entry ε α)
  | 0, _ => none
  | n + 1, s =>
    match s.running with
    | some (_, .call o _) =>
      if G s (.call (pick o)) then
        (turn M a code reset s (.call (pick o))).bind (carryOut M a code reset G pick n)
      else none
    | _ => if G s .finish then turn M a code reset s .finish else none

def carryOutAll (M : Machine S Actor Choice Event World) (a : Actor) (code : Entry → Prog S ε α)
    (reset : World → World) (G : Single S World Entry ε α → Turn Entry Choice Event → Prop)
    [∀ s t, Decidable (G s t)] (n : Nat) :
    List (Entry × (S.Op → Choice)) → Single S World Entry ε α → Option (Single S World Entry ε α)
  | [], s => some s
  | (e, pick) :: rest, s =>
    if G s (.start e) then
      ((turn M a code reset s (.start e)).bind (carryOut M a code reset G pick n)).bind
        (carryOutAll M a code reset G n rest)
    else none

variable [∀ s t, Decidable (G s t)] {pick : S.Op → Choice}

variable {n : Nat} {entries : List (Entry × (S.Op → Choice))}

lemma reach_of_carryOut (hs : Transition.Reach (turn M a code reset) G s0 s)
    (h : carryOut M a code reset G pick n s = some s') :
    Transition.Reach (turn M a code reset) G s0 s' := by
  induction n generalizing s with
  | zero => cases h
  | succ n ih =>
    unfold carryOut at h
    split at h
    · split_ifs at h with hG
      obtain ⟨s1, hstep, hrest⟩ := Option.bind_eq_some_iff.mp h
      exact ih (hs.tail hG hstep) hrest
    · split_ifs at h with hG
      exact hs.tail hG h

lemma reach_of_carryOutAll (hs : Transition.Reach (turn M a code reset) G s0 s)
    (h : carryOutAll M a code reset G n entries s = some s') :
    Transition.Reach (turn M a code reset) G s0 s' := by
  induction entries generalizing s with
  | nil => exact Option.some.inj h ▸ hs
  | cons entry rest ih =>
    obtain ⟨e, pick⟩ := entry
    unfold carryOutAll at h
    split_ifs at h with hG
    obtain ⟨s2, hone, hrest⟩ := Option.bind_eq_some_iff.mp h
    obtain ⟨s1, hstart, hcarry⟩ := Option.bind_eq_some_iff.mp hone
    exact ih (reach_of_carryOut (hs.tail hG hstart) hcarry) hrest

lemma exists_of_carryOutAll {P : Single S World Entry ε α → Bool}
    (h : (carryOutAll M a code reset G n entries s0).any P = true) :
    ∃ s, Transition.Reach (turn M a code reset) G s0 s ∧ P s = true := by
  obtain ⟨s, hs, hP⟩ := (Option.any_eq_true ..).mp h
  exact ⟨s, reach_of_carryOutAll .refl hs, hP⟩

end

end

end Interleaving
