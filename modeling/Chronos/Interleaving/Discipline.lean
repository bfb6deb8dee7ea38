import Chronos.Interleaving.Program

/-! A safety logic for interleaved programs. A discipline fixes what every program may assume of the
world, how the world grows, and what a program must know before each operation. -/

namespace Interleaving

open List

variable {S : Signature} {Actor Choice Event World Entry ε α β : Type} [Preorder World]

/-- The invariant a program may rely on, and the knowledge (`Allowed`) it must have before each of
its operations. -/
structure Discipline (M : Machine S Actor Choice Event World) where
  Inv : World → Prop
  Allowed : Actor → S.Op → World → Prop
  exec_inv {a o c w r w'} : Inv w → Allowed a o w → M.exec a o c w = some (r, w') → Inv w'
  exec_le {a o c w r w'} : Inv w → Allowed a o w → M.exec a o c w = some (r, w') → w ≤ w'
  env_inv {e w w'} : Inv w → M.env e w = some w' → Inv w'
  env_le {e w w'} : Inv w → M.env e w = some w' → w ≤ w'

namespace Discipline

variable {M : Machine S Actor Choice Event World} (D : Discipline M)

/-- From `w` on, whatever the other threads do, every operation of the program is allowed
when it is performed, and the outcome meets `Q`. -/
def Safe (a : Actor) : Prog S ε α → (Except ε α → World → Prop) → World → Prop
  | .ret x, Q, w => ∀ w₁, w ≤ w₁ → Q (.ok x) w₁
  | .fail e, Q, w => ∀ w₁, w ≤ w₁ → Q (.error e) w₁
  | .call o k, Q, w => ∀ w₁, w ≤ w₁ → D.Inv w₁ → D.Allowed a o w₁ ∧
      ∀ c r w₂, M.exec a o c w₁ = some (r, w₂) → Safe a (k r) Q w₂

variable {D} {a : Actor} {p : Prog S ε α} {Q : Except ε α → World → Prop} {w w' : World}

lemma Safe.mono (h : D.Safe a p Q w) (hle : w ≤ w') : D.Safe a p Q w' := by
  cases p with
  | ret x => exact fun w1 h1 => h w1 (hle.trans h1)
  | fail e => exact fun w1 h1 => h w1 (hle.trans h1)
  | call o k => exact fun w1 h1 => h w1 (hle.trans h1)

def OnOk (R : α → World → Prop) : Except ε α → World → Prop
  | .ok x, w => R x w
  | .error _, _ => True

section

variable {R : α → World → Prop}

lemma safe_fail {e : ε} : D.Safe a (.fail e : Prog S ε α) (OnOk R) w := fun _ _ => trivial

lemma safe_pure {x : α} (h : ∀ w1, w ≤ w1 → R x w1) :
    D.Safe a (pure x : Prog S ε α) (OnOk R) w := h

lemma safe_done {x : α} : D.Safe a (pure x : Prog S ε α) (OnOk fun _ _ => True) w :=
  fun _ _ => trivial

lemma safe_ofExcept {x : Except ε α} (h : ∀ y, x = .ok y → ∀ w1, w ≤ w1 → R y w1) :
    D.Safe a (.ofExcept x) (OnOk R) w := by
  cases x with
  | error e => exact safe_fail
  | ok y => exact h y rfl

lemma safe_op {o : S.Op} {R : S.Reply o → World → Prop}
    (h : ∀ w1, w ≤ w1 → D.Inv w1 → D.Allowed a o w1 ∧
      ∀ c r w2, M.exec a o c w1 = some (r, w2) → ∀ w3, w2 ≤ w3 → R r w3) :
    D.Safe a (.op o : Prog S ε (S.Reply o)) (OnOk R) w := h

end

lemma Safe.imp {R' : Except ε α → World → Prop} (h : D.Safe a p Q w)
    (himp : ∀ x w1, Q x w1 → R' x w1) : D.Safe a p R' w := by
  induction p generalizing w with
  | ret x => exact fun w1 hle => himp _ _ (h w1 hle)
  | fail e => exact fun w1 hle => himp _ _ (h w1 hle)
  | call o k ih =>
    intro w1 hle h1
    obtain ⟨hallowed, hnext⟩ := h w1 hle h1
    exact ⟨hallowed, fun c r w2 hexec => ih r (hnext c r w2 hexec)⟩

lemma Safe.bind {f : α → Prog S ε β} {R : α → World → Prop} {R' : β → World → Prop}
    (h : D.Safe a p (OnOk R) w) (hinv : D.Inv w)
    (hok : ∀ x w1, w ≤ w1 → D.Inv w1 → R x w1 → D.Safe a (f x) (OnOk R') w1) :
    D.Safe a (p >>= f) (OnOk R') w := by
  induction p generalizing w with
  | ret x => exact hok x w le_rfl hinv (h w le_rfl)
  | fail e => exact fun _ _ => trivial
  | call o k ih =>
    intro w1 hle h1
    obtain ⟨hallowed, hnext⟩ := h w1 hle h1
    refine ⟨hallowed, fun c r w2 hexec => ?_⟩
    have hgrow : w ≤ w2 := hle.trans (D.exec_le h1 hallowed hexec)
    exact ih r (hnext c r w2 hexec) (D.exec_inv h1 hallowed hexec)
      fun x w3 h3 => hok x w3 (hgrow.trans h3)

lemma Safe.attempt (h : D.Safe a p Q w) : D.Safe a p.attempt (OnOk Q) w := by
  induction p generalizing w with
  | ret x => exact h
  | fail e => exact h
  | call o k ih =>
    intro w1 hle h1
    obtain ⟨hallowed, hnext⟩ := h w1 hle h1
    exact ⟨hallowed, fun c r w2 hexec => ih r (hnext c r w2 hexec)⟩

lemma Safe.retry {η : Type} {request : Prog S ε (Except η α)} {again : Prog S ε Bool}
    {R : α → World → Prop} (hmono : ∀ x w1 w2, w1 ≤ w2 → R x w1 → R x w2)
    (hrequest : ∀ w1, w ≤ w1 → D.Inv w1 →
      D.Safe a request (OnOk fun r w2 => ∀ x, r = .ok x → R x w2) w1)
    (hagain : ∀ w1, w ≤ w1 → D.Inv w1 → D.Safe a again (OnOk fun _ _ => True) w1)
    (hinv : D.Inv w) (n : Nat) :
    D.Safe a (request.retry again n) (OnOk fun r w2 => ∀ x, r = .ok x → R x w2) w := by
  induction n generalizing w with
  | zero => exact hrequest w le_rfl hinv
  | succ n ih =>
    refine Safe.bind (hrequest w le_rfl hinv) hinv fun r w1 h1 hinv1 hr => ?_
    cases r with
    | ok x => exact fun w2 h2 y hy => hmono y w1 w2 h2 (hr y hy)
    | error e =>
      refine Safe.bind (hagain w1 h1 hinv1) hinv1 fun allowed w2 h2 hinv2 _ => ?_
      have hlater : w ≤ w2 := h1.trans h2
      split
      · exact ih (fun w3 h3 => hrequest w3 (hlater.trans h3))
          (fun w3 h3 => hagain w3 (hlater.trans h3)) hinv2
      · exact fun _ _ _ hx => nomatch hx

section

variable {code : Actor → Entry → Prog S ε α} {G : Guard S Actor Choice Event World Entry}
  {Post : Actor → Except ε α → World → Prop} {s0 s s' : Sys S Actor World ε α}

structure Holds (D : Discipline M) (Post : Actor → Except ε α → World → Prop)
    (s : Sys S Actor World ε α) : Prop where
  inv : D.Inv s.world
  safe : ∀ t ∈ s.threads, D.Safe t.actor t.prog (Post t.actor) s.world

lemma Holds.allowed (h : D.Holds Post s) {i : Nat} {o : S.Op}
    {k : S.Reply o → Prog S ε α} (hi : s.threads[i]? = some ⟨a, .call o k⟩) :
    D.Allowed a o s.world :=
  (h.safe _ (mem_of_getElem? hi) s.world le_rfl h.inv).1

lemma Holds.post (h : D.Holds Post s) {x : α} (ht : ⟨a, .ret x⟩ ∈ s.threads) :
    Post a (.ok x) s.world :=
  h.safe _ ht s.world le_rfl

lemma Holds.step {l : Label Actor Entry Choice Event} (h : D.Holds Post s)
    (hcode : ∀ a e w, D.Inv w → G.entry a e → D.Safe a (code a e) (Post a) w)
    (hG : G.Admits s l) (hstep : Interleaving.step M code s l = some s') : D.Holds Post s' := by
  obtain ⟨a, e, rfl, rfl⟩ | ⟨i, c, a, o, k, r, w, rfl, hi, hexec, rfl⟩ | ⟨i, rfl, rfl⟩ |
    ⟨e, w, rfl, henv, rfl⟩ := step_cases hstep
  · refine ⟨h.inv, fun t ht => ?_⟩
    rcases mem_append.mp ht with ht | ht
    · exact h.safe t ht
    · rw [mem_singleton.mp ht]
      exact hcode a e _ h.inv hG
  · have hmem := mem_of_getElem? hi
    obtain ⟨hallowed, hnext⟩ := h.safe _ hmem s.world le_rfl h.inv
    refine ⟨D.exec_inv h.inv hallowed hexec, fun t ht => ?_⟩
    rcases mem_or_eq_of_mem_set ht with ht | rfl
    · exact (h.safe t ht).mono (D.exec_le h.inv hallowed hexec)
    · exact hnext c r w hexec
  · exact ⟨h.inv, fun t ht => h.safe t (mem_of_mem_eraseIdx ht)⟩
  · exact ⟨D.env_inv h.inv henv, fun t ht => (h.safe t ht).mono (D.env_le h.inv henv)⟩

lemma Holds.reach (h : D.Holds Post s0)
    (hcode : ∀ a e w, D.Inv w → G.entry a e → D.Safe a (code a e) (Post a) w)
    (hreach : Reach M code G s0 s) : D.Holds Post s := by
  induction hreach with
  | refl => exact h
  | tail _ hG hstep ih => exact ih.step hcode hG hstep

lemma Holds.le_of_reach (h : D.Holds Post s0)
    (hcode : ∀ a e w, D.Inv w → G.entry a e → D.Safe a (code a e) (Post a) w)
    (hreach : Reach M code G s0 s) : s0.world ≤ s.world := by
  induction hreach with
  | refl => exact le_rfl
  | @tail s s' l hreach hG hstep ih =>
    have hs := h.reach hcode hreach
    refine ih.trans ?_
    obtain ⟨a, e, rfl, rfl⟩ | ⟨i, c, a, o, k, r, w, rfl, hi, hexec, rfl⟩ | ⟨i, rfl, rfl⟩ |
      ⟨e, w, rfl, henv, rfl⟩ := step_cases hstep
    · exact le_rfl
    · exact D.exec_le hs.inv (hs.allowed hi) hexec
    · exact le_rfl
    · exact D.env_le hs.inv henv

/-- The invariant rule: a property of worlds that every allowed operation and every event of a
guarded run preserves holds throughout the run. -/
lemma Holds.invariant {I : World → Prop} (h : D.Holds Post s0) (h0 : I s0.world)
    (hcode : ∀ a e w, D.Inv w → G.entry a e → D.Safe a (code a e) (Post a) w)
    (hexec : ∀ a o c w r w', D.Inv w → I w → D.Allowed a o w → G.op a o c w →
      M.exec a o c w = some (r, w') → I w')
    (henv : ∀ e w w', D.Inv w → I w → G.env e w → M.env e w = some w' → I w')
    (hreach : Reach M code G s0 s) : I s.world := by
  induction hreach with
  | refl => exact h0
  | @tail s s' l hreach hG hstep ih =>
    have hs := h.reach hcode hreach
    obtain ⟨a, e, rfl, rfl⟩ | ⟨i, c, a, o, k, r, w, rfl, hi, hx, rfl⟩ | ⟨i, rfl, rfl⟩ |
      ⟨e, w, rfl, hx, rfl⟩ := step_cases hstep
    · exact ih
    · exact hexec a o c _ r w hs.inv ih (hs.allowed hi) (hG a o k hi) hx
    · exact ih
    · exact henv e _ w hs.inv ih hG hx

end

end Discipline

end Interleaving
