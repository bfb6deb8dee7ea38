import Chronos.Interleaving.Program
import Chronos.Transition.Run

/-! Properties that a program may break for a while, if it repairs them itself. -/

namespace Interleaving

variable {S : Signature} {Actor Choice Event World Entry ε α : Type}

def Prog.Ended : Prog S ε α → Prop
  | .call .. => False
  | .ret _ | .fail _ => True

instance (p : Prog S ε α) : Decidable p.Ended := by
  cases p <;> unfold Prog.Ended <;> infer_instance

def Label.Abandons : Label Actor Entry Choice Event → Prop
  | .stop _ => True
  | _ => False

instance (l : Label Actor Entry Choice Event) : Decidable l.Abandons := by
  cases l <;> unfold Label.Abandons <;> infer_instance

abbrev Unbroken (M : Machine S Actor Choice Event World) (code : Actor → Entry → Prog S ε α)
    (G : Guard S Actor Choice Event World Entry) (s₀ : Sys S Actor World ε α) :
    Sys S Actor World ε α → Prop :=
  Transition.Reach (step M code) (fun s l => G.Admits s l ∧ ¬ l.Abandons) s₀

section

variable {M : Machine S Actor Choice Event World} {code : Actor → Entry → Prog S ε α}
  {G : Guard S Actor Choice Event World Entry} {s₀ s s' : Sys S Actor World ε α}

lemma Unbroken.reach (h : Unbroken M code G s₀ s) : Reach M code G s₀ s := by
  induction h with
  | refl => exact .refl
  | tail _ hG hstep ih => exact ih.tail hG.1 hstep

end

/-- A property of worlds, and an invariant under which the programs keep it up. -/
structure Upkeep (World : Type) where
  Inv : World → Prop
  Good : World → Prop

namespace Upkeep

variable (U : Upkeep World) (M : Machine S Actor Choice Event World)
  (G : Guard S Actor Choice Event World Entry)

/-- From a world without the property the program comes to one with it, whatever others do. -/
def Repairs (a : Actor) : Prog S ε α → Prop
  | .ret _ | .fail _ => False
  | .call o k => ∀ c w r w', U.Inv w → ¬ U.Good w → G.op a o c w → M.exec a o c w = some (r, w') →
      U.Good w' ∨ Repairs a (k r)

/-- The program keeps the invariant, and after a step that breaks the property it repairs it. -/
def Careful (a : Actor) : Prog S ε α → Prop
  | .ret _ | .fail _ => True
  | .call o k => ∀ c w r w', U.Inv w → G.op a o c w → M.exec a o c w = some (r, w') →
      U.Inv w' ∧ (U.Good w → U.Good w' ∨ U.Repairs M G a (k r)) ∧ Careful a (k r)

structure Kept (s : Sys S Actor World ε α) : Prop where
  inv : U.Inv s.world
  careful : ∀ t ∈ s.threads, U.Careful M G t.actor t.prog
  good : U.Good s.world ∨ ∃ t ∈ s.threads, U.Repairs M G t.actor t.prog

variable {U M G}

variable {β : Type} {a : Actor} {p : Prog S ε α} {w : World}

lemma Repairs.bind {f : α → Prog S ε β} (h : U.Repairs M G a p) : U.Repairs M G a (p >>= f) := by
  induction p with
  | ret x => exact h.elim
  | fail e => exact h.elim
  | call o k ih =>
    intro c w r w' hinv hbad hG hexec
    exact (h c w r w' hinv hbad hG hexec).imp_right (ih r)

lemma Careful.bind {f : α → Prog S ε β}
    (h : U.Careful M G a p) (hf : ∀ x, U.Careful M G a (f x)) : U.Careful M G a (p >>= f) := by
  induction p with
  | ret x => exact hf x
  | fail e => trivial
  | call o k ih =>
    intro c w r w' hinv hG hexec
    obtain ⟨hinv', hbreak, hnext⟩ := h c w r w' hinv hG hexec
    exact ⟨hinv', fun hgood => (hbreak hgood).imp_right Repairs.bind, ih r hnext⟩

variable {code : Actor → Entry → Prog S ε α} {s s' : Sys S Actor World ε α}

lemma Kept.call {i : Nat} {o : S.Op} {c : Choice} {k : S.Reply o → Prog S ε α}
    {r : S.Reply o} (h : U.Kept M G s) (hi : s.threads[i]? = some ⟨a, .call o k⟩)
    (hG : G.op a o c s.world) (hexec : M.exec a o c s.world = some (r, w)) :
    U.Kept M G ⟨w, s.threads.set i ⟨a, k r⟩⟩ := by
  have hbound : i < s.threads.length := (List.getElem?_eq_some_iff.mp hi).1
  obtain ⟨hinv, hbreak, hnext⟩ := h.careful _ (List.mem_of_getElem? hi) c s.world r w h.inv hG hexec
  refine ⟨hinv, fun t ht => ?_, ?_⟩
  · rcases List.mem_or_eq_of_mem_set ht with ht | rfl
    · exact h.careful t ht
    · exact hnext
  by_cases hgood : U.Good s.world
  · exact (hbreak hgood).imp_right fun hrepairs => ⟨_, List.mem_set hbound _, hrepairs⟩
  obtain ⟨t, ht, hrepairs⟩ := h.good.resolve_left hgood
  obtain ⟨j, hj⟩ := List.mem_iff_getElem?.mp ht
  by_cases hji : j = i
  · -- the step is one of the repair
    subst hji
    cases hi.symm.trans hj
    refine (hrepairs c s.world r w h.inv hgood hG hexec).imp_right fun hrest => ?_
    exact ⟨_, List.mem_set hbound _, hrest⟩
  · refine .inr ⟨t, List.mem_of_getElem? (i := j) ?_, hrepairs⟩
    rw [List.getElem?_set_ne (Ne.symm hji)]
    exact hj

lemma Kept.step {l : Label Actor Entry Choice Event} (h : U.Kept M G s)
    (hcode : ∀ a e, G.entry a e → U.Careful M G a (code a e))
    (henv : ∀ e w w', U.Inv w → G.env e w → M.env e w = some w' → U.Inv w' ∧ (U.Good w → U.Good w'))
    (hG : G.Admits s l ∧ ¬ l.Abandons) (hstep : Interleaving.step M code s l = some s') :
    U.Kept M G s' := by
  obtain ⟨a, e, rfl, rfl⟩ | ⟨i, c, a, o, k, r, w, rfl, hi, hexec, rfl⟩ | ⟨i, rfl, rfl⟩ |
    ⟨e, w, rfl, hw, rfl⟩ := step_cases hstep
  · refine ⟨h.inv, fun t ht => ?_, h.good.imp_right fun ⟨t, ht, hrepairs⟩ =>
      ⟨t, List.mem_append_left _ ht, hrepairs⟩⟩
    rcases List.mem_append.mp ht with ht | ht
    · exact h.careful t ht
    · rw [List.mem_singleton.mp ht]
      exact hcode a e hG.1
  · exact h.call hi (hG.1 a o k hi) hexec
  · exact absurd trivial hG.2
  · obtain ⟨hinv, hgood⟩ := henv e s.world w h.inv hG.1 hw
    exact ⟨hinv, h.careful, h.good.imp_left hgood⟩

lemma good_of_ended (hinv : U.Inv w) (hgood : U.Good w)
    (hcode : ∀ a e, G.entry a e → U.Careful M G a (code a e))
    (henv : ∀ e w w', U.Inv w → G.env e w → M.env e w = some w' → U.Inv w' ∧ (U.Good w → U.Good w'))
    (hrun : Unbroken M code G ⟨w, []⟩ s) (hended : ∀ t ∈ s.threads, t.prog.Ended) :
    U.Good s.world := by
  have hkept : U.Kept M G s := by
    refine Transition.Reach.invariant hrun ⟨hinv, by simp, .inl hgood⟩ ?_
    exact fun _ _ _ h hG hstep => h.step hcode henv hG hstep
  rcases hkept.good with h | ⟨t, ht, hrepairs⟩
  · exact h
  have ht' := hended t ht
  rcases t with ⟨a, _ | _ | _⟩
  · exact hrepairs.elim
  · exact hrepairs.elim
  · exact ht'.elim

end Upkeep

end Interleaving
