import Mathlib.Order.Basic
import Mathlib.Data.List.Basic

/-! Fallible programs over atomic operations and their interleavings. A program is a tree of
operations; a machine says what each operation does to a shared world, with every
nondeterministic outcome resolved by an explicit choice, so that runs can be evaluated. -/

namespace Interleaving

open Option

structure Signature where
  Op : Type
  Reply : Op → Type

/-- A program stops with a value or an error, or performs one atomic operation and goes on. -/
inductive Prog (S : Signature) (ε α : Type) where
  | ret (value : α)
  | fail (error : ε)
  | call (op : S.Op) (next : S.Reply op → Prog S ε α)

namespace Prog

variable {S : Signature} {ε α β : Type}

def bind : Prog S ε α → (α → Prog S ε β) → Prog S ε β
  | ret a, f => f a
  | fail e, _ => fail e
  | call o k, f => call o fun r => (k r).bind f

def attempt : Prog S ε α → Prog S ε (Except ε α)
  | ret a => ret (.ok a)
  | fail e => ret (.error e)
  | call o k => call o fun r => (k r).attempt

instance : Monad (Prog S ε) where
  pure := ret
  bind := bind

/-- Makes a request again, up to `n` times, while it fails and `again` allows it. -/
def retry {η : Type} (request : Prog S ε (Except η α)) (again : Prog S ε Bool) :
    Nat → Prog S ε (Except η α)
  | 0 => request
  | n + 1 => request.bind fun
    | .ok a => ret (.ok a)
    | .error e => again.bind fun allowed =>
      if allowed then retry request again n else ret (.error e)

def op (o : S.Op) : Prog S ε (S.Reply o) := call o ret

def ofExcept : Except ε α → Prog S ε α
  | .ok a => ret a
  | .error e => fail e

def answer (reply : (o : S.Op) → Option (S.Reply o)) : Prog S ε α → Option (Except ε α)
  | ret a => some (.ok a)
  | fail e => some (.error e)
  | call o k => (reply o).bind fun r => (k r).answer reply

end Prog

structure Machine (S : Signature) (Actor Choice Event World : Type) where
  exec : Actor → (o : S.Op) → Choice → World → Option (S.Reply o × World)
  env : Event → World → Option World

structure Thread (S : Signature) (Actor ε α : Type) where
  actor : Actor
  prog : Prog S ε α

structure Sys (S : Signature) (Actor World ε α : Type) where
  world : World
  threads : List (Thread S Actor ε α)

def Sys.result {S : Signature} {Actor World ε α : Type} (s : Sys S Actor World ε α) (i : Nat) :
    Option α :=
  match s.threads[i]? with
  | some ⟨_, .ret x⟩ => some x
  | _ => none

variable {i : Nat}

lemma Sys.mem_threads_of_result {S : Signature} {Actor World ε α : Type}
    {s : Sys S Actor World ε α} {x : α} (h : s.result i = some x) :
    ∃ a, ⟨a, .ret x⟩ ∈ s.threads := by
  unfold Sys.result at h
  split at h
  · next a y ht =>
    cases h
    exact ⟨a, List.mem_of_getElem? ht⟩
  · cases h

def Sys.failure {S : Signature} {Actor World ε α : Type} (s : Sys S Actor World ε α) (i : Nat) :
    Option (Actor × ε) :=
  match s.threads[i]? with
  | some ⟨a, .fail e⟩ => some (a, e)
  | _ => none

lemma Sys.mem_threads_of_failure {S : Signature} {Actor World ε α : Type}
    {s : Sys S Actor World ε α} {a : Actor} {e : ε} (h : s.failure i = some (a, e)) :
    ⟨a, .fail e⟩ ∈ s.threads := by
  unfold Sys.failure at h
  split at h
  · next ht =>
    cases h
    exact List.mem_of_getElem? ht
  · cases h

/-- One scheduling decision. `stop` abandons a program between two of its operations. -/
inductive Label (Actor Entry Choice Event : Type) where
  | spawn (a : Actor) (e : Entry)
  | call (i : Nat) (c : Choice)
  | stop (i : Nat)
  | env (e : Event)

section

variable {S : Signature} {Actor Choice Event World Entry ε α : Type}

def step (M : Machine S Actor Choice Event World) (code : Actor → Entry → Prog S ε α)
    (s : Sys S Actor World ε α) :
    Label Actor Entry Choice Event → Option (Sys S Actor World ε α)
  | .spawn a e => some { s with threads := s.threads ++ [⟨a, code a e⟩] }
  | .call i c =>
    match s.threads[i]? with
    | some ⟨a, .call o k⟩ =>
      match M.exec a o c s.world with
      | some (r, w) => some ⟨w, s.threads.set i ⟨a, k r⟩⟩
      | none => none
    | _ => none
  | .stop i => some { s with threads := s.threads.eraseIdx i }
  | .env e => (M.env e s.world).map fun w => { s with world := w }

structure Guard (S : Signature) (Actor Choice Event World Entry : Type) where
  entry : Actor → Entry → Prop := fun _ _ => True
  op : Actor → S.Op → Choice → World → Prop := fun _ _ _ _ => True
  env : Event → World → Prop := fun _ _ => True

def Guard.free : Guard S Actor Choice Event World Entry := {}

/-- What a guard asks can be decided; what it leaves out needs no word. -/
class Guard.Checked (G : Guard S Actor Choice Event World Entry) where
  entry : ∀ a e, Decidable (G.entry a e) := by exact fun _ _ => .isTrue trivial
  op : ∀ a o c w, Decidable (G.op a o c w) := by exact fun _ _ _ _ => .isTrue trivial
  env : ∀ e w, Decidable (G.env e w) := by exact fun _ _ => .isTrue trivial

attribute [reducible, instance] Guard.Checked.entry Guard.Checked.op Guard.Checked.env

instance : (Guard.free : Guard S Actor Choice Event World Entry).Checked where

def Guard.Admits (G : Guard S Actor Choice Event World Entry) (s : Sys S Actor World ε α) :
    Label Actor Entry Choice Event → Prop
  | .spawn a e => G.entry a e
  | .call i c => ∀ a o k, s.threads[i]? = some ⟨a, .call o k⟩ → G.op a o c s.world
  | .stop _ => True
  | .env e => G.env e s.world

section

variable {G : Guard S Actor Choice Event World Entry} [G.Checked]

instance Guard.decidableAdmits (s : Sys S Actor World ε α) (l : Label Actor Entry Choice Event) :
    Decidable (G.Admits s l) :=
  match l with
  | .spawn a e => inferInstanceAs (Decidable (G.entry a e))
  | .stop _ => .isTrue trivial
  | .env e => inferInstanceAs (Decidable (G.env e s.world))
  | .call i c =>
    match h : s.threads[i]? with
    | some ⟨a, .call o _⟩ =>
      decidable_of_iff (G.op a o c s.world) ⟨fun hop a' o' k' h' => by
        cases Option.some.inj (h.symm.trans h')
        exact hop, fun hop => hop _ _ _ h⟩
    | some ⟨_, .ret _⟩ => .isTrue fun _ _ _ h' => by cases h.symm.trans h'
    | some ⟨_, .fail _⟩ => .isTrue fun _ _ _ h' => by cases h.symm.trans h'
    | none => .isTrue fun _ _ _ h' => by cases h.symm.trans h'

def guardedStep (M : Machine S Actor Choice Event World) (code : Actor → Entry → Prog S ε α)
    (G : Guard S Actor Choice Event World Entry) [G.Checked]
    (s : Sys S Actor World ε α) (l : Label Actor Entry Choice Event) :
    Option (Sys S Actor World ε α) :=
  if G.Admits s l then step M code s l else none

def drive (M : Machine S Actor Choice Event World) (code : Actor → Entry → Prog S ε α)
    (G : Guard S Actor Choice Event World Entry) [G.Checked]
    (pick : S.Op → Choice) (i : Nat) :
    Nat → Sys S Actor World ε α → Option (Sys S Actor World ε α)
  | 0, s => some s
  | n + 1, s =>
    match s.threads[i]? with
    | some ⟨_, .call o _⟩ =>
      match guardedStep M code G s (.call i (pick o)) with
      | some s' => drive M code G pick i n s'
      | none => none
    | _ => some s

inductive Command (Actor Entry Choice Event : Type) where
  | label (l : Label Actor Entry Choice Event)
  | drive (i n : Nat)

def script (M : Machine S Actor Choice Event World) (code : Actor → Entry → Prog S ε α)
    (G : Guard S Actor Choice Event World Entry) [G.Checked]
    (pick : S.Op → Choice) :
    List (Command Actor Entry Choice Event) → Sys S Actor World ε α →
      Option (Sys S Actor World ε α)
  | [], s => some s
  | .label l :: rest, s =>
    match guardedStep M code G s l with
    | some s' => script M code G pick rest s'
    | none => none
  | .drive i n :: rest, s =>
    match drive M code G pick i n s with
    | some s' => script M code G pick rest s'
    | none => none

end

inductive Reach (M : Machine S Actor Choice Event World) (code : Actor → Entry → Prog S ε α)
    (G : Guard S Actor Choice Event World Entry) (s₀ : Sys S Actor World ε α) :
    Sys S Actor World ε α → Prop where
  | refl : Reach M code G s₀ s₀
  | tail {s s' l} : Reach M code G s₀ s → G.Admits s l → step M code s l = some s' →
      Reach M code G s₀ s'

variable {M : Machine S Actor Choice Event World} {code : Actor → Entry → Prog S ε α}
  {G : Guard S Actor Choice Event World Entry} {s₀ s s' : Sys S Actor World ε α}

lemma step_call {c : Choice} (h : step M code s (.call i c) = some s') :
    ∃ a o k r w, s.threads[i]? = some ⟨a, .call o k⟩ ∧ M.exec a o c s.world = some (r, w) ∧
      s' = ⟨w, s.threads.set i ⟨a, k r⟩⟩ := by
  simp only [step] at h
  split at h
  · next a o k hi =>
    split at h
    · next r w hw => exact ⟨a, o, k, r, w, hi, hw, (some.inj h).symm⟩
    · cases h
  · cases h

variable {l : Label Actor Entry Choice Event}

lemma step_cases (h : step M code s l = some s') :
    (∃ a e, l = .spawn a e ∧ s' = { s with threads := s.threads ++ [⟨a, code a e⟩] }) ∨
    (∃ i c a o k r w, l = .call i c ∧ s.threads[i]? = some ⟨a, .call o k⟩ ∧
      M.exec a o c s.world = some (r, w) ∧ s' = ⟨w, s.threads.set i ⟨a, k r⟩⟩) ∨
    (∃ i, l = .stop i ∧ s' = { s with threads := s.threads.eraseIdx i }) ∨
    (∃ e w, l = .env e ∧ M.env e s.world = some w ∧ s' = { s with world := w }) := by
  cases l with
  | spawn a e => exact .inl ⟨a, e, rfl, by simpa [step] using h.symm⟩
  | stop i => exact .inr (.inr (.inl ⟨i, rfl, by simpa [step] using h.symm⟩))
  | env e =>
    obtain ⟨w, hw, rfl⟩ := map_eq_some_iff.mp h
    exact .inr (.inr (.inr ⟨e, w, rfl, hw, rfl⟩))
  | call i c =>
    obtain ⟨a, o, k, r, w, hrest⟩ := step_call h
    exact .inr (.inl ⟨i, c, a, o, k, r, w, rfl, hrest⟩)

lemma Reach.mono {G' : Guard S Actor Choice Event World Entry} (h : Reach M code G s₀ s)
    (hentry : ∀ a e, G.entry a e → G'.entry a e)
    (hop : ∀ a o c w, G.op a o c w → G'.op a o c w)
    (henv : ∀ e w, G.env e w → G'.env e w) : Reach M code G' s₀ s := by
  induction h with
  | refl => exact .refl
  | @tail s s' l _ hl hstep ih =>
    refine ih.tail ?_ hstep
    cases l with
    | spawn a e => exact hentry a e hl
    | call i c => exact fun a o k hi => hop _ _ _ _ (hl a o k hi)
    | stop i => trivial
    | env e => exact henv e _ hl

section

variable [G.Checked] {pick : S.Op → Choice}

lemma Reach.guardedStep (h : Reach M code G s₀ s)
    (hstep : guardedStep M code G s l = some s') : Reach M code G s₀ s' := by
  unfold Interleaving.guardedStep at hstep
  split_ifs at hstep with hl
  exact h.tail hl hstep

lemma Reach.drive {n : Nat} (h : Reach M code G s₀ s)
    (hdrive : drive M code G pick i n s = some s') : Reach M code G s₀ s' := by
  induction n generalizing s with
  | zero => exact some.inj hdrive ▸ h
  | succ n ih =>
    simp only [Interleaving.drive] at hdrive
    split at hdrive
    · split at hdrive
      · next s1 hs => exact ih (h.guardedStep hs) hdrive
      · cases hdrive
    · exact some.inj hdrive ▸ h

variable {commands : List (Command Actor Entry Choice Event)}

lemma Reach.script (h : Reach M code G s₀ s) (hscript : script M code G pick commands s = some s') :
    Reach M code G s₀ s' := by
  induction commands generalizing s with
  | nil => exact some.inj hscript ▸ h
  | cons command rest ih =>
    cases command with
    | label l =>
      simp only [Interleaving.script] at hscript
      split at hscript
      · next s1 hs => exact ih (h.guardedStep hs) hscript
      · cases hscript
    | drive i n =>
      simp only [Interleaving.script] at hscript
      split at hscript
      · next s1 hs => exact ih (h.drive hs) hscript
      · cases hscript

lemma Reach.exists_of_script {P : Sys S Actor World ε α → Bool}
    (hscript : (Interleaving.script M code G pick commands s₀).any P = true) :
    ∃ s, Reach M code G s₀ s ∧ P s = true := by
  obtain ⟨s, hs, hP⟩ := (any_eq_true ..).mp hscript
  exact ⟨s, Reach.refl.script hs, hP⟩

end

end

end Interleaving
