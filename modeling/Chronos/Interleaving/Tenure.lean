import Chronos.Interleaving.Program
import Mathlib.Data.List.InsertIdx
import Mathlib.Data.Set.Lattice
import Mathlib.Order.CompletePartialOrder

/-! Rely-guarantee reasoning for interleaved programs that hold tokens. Some operations hand out a
token that was never issued before, and some may only be performed with one. -/

namespace Interleaving

variable {S : Signature} {Actor Choice Event World Entry Token ε α β : Type} [Preorder World]

/-- The invariant of a world, what an operation asks to be known before it (`Allowed`), and what all
steps without a token keep for the thread that has it (`Keeps`). -/
structure Tenure (M : Machine S Actor Choice Event World) (Token : Type) where
  Inv : World → Prop
  Allowed : S.Op → World → Prop
  Issued : World → Token → Prop
  uses : S.Op → Option Token
  grants : (o : S.Op) → S.Reply o → Option Token
  Keeps : Token → World → World → Prop
  issued_mono {w w' t} : w ≤ w' → Issued w t → Issued w' t
  keeps_refl : ∀ t w, Keeps t w w
  keeps_trans {t w₁ w₂ w₃} : Keeps t w₁ w₂ → Keeps t w₂ w₃ → Keeps t w₁ w₃
  exec_inv {a o c w r w'} : Inv w → Allowed o w → M.exec a o c w = some (r, w') → Inv w'
  exec_le {a o c w r w'} : Inv w → Allowed o w → M.exec a o c w = some (r, w') → w ≤ w'
  exec_keeps {a o c w r w' t} : Inv w → Allowed o w → M.exec a o c w = some (r, w') →
    uses o ≠ some t → Keeps t w w'
  exec_grants {a o c w r w' t} : M.exec a o c w = some (r, w') → grants o r = some t →
    ¬ Issued w t ∧ Issued w' t
  env_inv {e w w'} : Inv w → M.env e w = some w' → Inv w'
  env_le {e w w'} : Inv w → M.env e w = some w' → w ≤ w'
  env_keeps {e w w' t} : Inv w → M.env e w = some w' → Keeps t w w'

namespace Tenure

variable {M : Machine S Actor Choice Event World} (D : Tenure M Token)

def Rely (T : Set Token) (w w' : World) : Prop := w ≤ w' ∧ ∀ t ∈ T, D.Keeps t w w'

/-- From `w` on, whatever the other threads do, the program has the token and the knowledge for each
of its operations, and its outcome meets `Q`. -/
def Safe (a : Actor) : Prog S ε α → Set Token → (Except ε α → Set Token → World → Prop) →
    World → Prop
  | .ret x, T, Q, w => ∀ w₁, D.Rely T w w₁ → Q (.ok x) T w₁
  | .fail e, T, Q, w => ∀ w₁, D.Rely T w w₁ → Q (.error e) T w₁
  | .call o k, T, Q, w => ∀ w₁, D.Rely T w w₁ → D.Inv w₁ →
      (∀ t, D.uses o = some t → t ∈ T) ∧ D.Allowed o w₁ ∧
        ∀ c r w₂, M.exec a o c w₁ = some (r, w₂) →
        Safe a (k r) (T ∪ {t | D.grants o r = some t}) Q w₂

variable {D} {a : Actor} {p : Prog S ε α} {T : Set Token}
  {Q : Except ε α → Set Token → World → Prop} {w w₁ w₂ : World}

lemma Rely.refl (w : World) : D.Rely T w w := ⟨le_rfl, fun t _ => D.keeps_refl t w⟩

lemma Rely.trans (h : D.Rely T w w₁) (h' : D.Rely T w₁ w₂) : D.Rely T w w₂ :=
  ⟨h.1.trans h'.1, fun t ht => D.keeps_trans (h.2 t ht) (h'.2 t ht)⟩

lemma Safe.mono (h : D.Safe a p T Q w) (hrely : D.Rely T w w₁) : D.Safe a p T Q w₁ := by
  cases p with
  | ret x => exact fun w₂ h2 => h w₂ (hrely.trans h2)
  | fail e => exact fun w₂ h2 => h w₂ (hrely.trans h2)
  | call o k => exact fun w₂ h2 => h w₂ (hrely.trans h2)

def OnOk (R : α → Set Token → World → Prop) : Except ε α → Set Token → World → Prop
  | .ok x, T, w => R x T w
  | .error _, _, _ => True

section

variable {R : α → Set Token → World → Prop}

lemma safe_fail {e : ε} : D.Safe a (.fail e : Prog S ε α) T (OnOk R) w := fun _ _ => trivial

lemma safe_pure {x : α} (h : ∀ w₁, D.Rely T w w₁ → R x T w₁) :
    D.Safe a (pure x : Prog S ε α) T (OnOk R) w := h

lemma safe_done {x : α} : D.Safe a (pure x : Prog S ε α) T (OnOk fun _ _ _ => True) w :=
  fun _ _ => trivial

lemma safe_ofExcept {x : Except ε α} (h : ∀ y, x = .ok y → ∀ w₁, D.Rely T w w₁ → R y T w₁) :
    D.Safe a (.ofExcept x) T (OnOk R) w := by
  cases x with
  | error e => exact safe_fail
  | ok y => exact h y rfl

lemma safe_op {o : S.Op} {R : S.Reply o → Set Token → World → Prop}
    (huses : ∀ t, D.uses o = some t → t ∈ T)
    (h : ∀ w₁, D.Rely T w w₁ → D.Inv w₁ → D.Allowed o w₁ ∧
      ∀ c r w₂, M.exec a o c w₁ = some (r, w₂) →
        ∀ w3, D.Rely (T ∪ {t | D.grants o r = some t}) w₂ w3 →
          R r (T ∪ {t | D.grants o r = some t}) w3) :
    D.Safe a (.op o : Prog S ε (S.Reply o)) T (OnOk R) w := by
  intro w₁ h1 hinv
  obtain ⟨hallowed, hnext⟩ := h w₁ h1 hinv
  exact ⟨huses, hallowed, hnext⟩

end

lemma Safe.imp {Q' : Except ε α → Set Token → World → Prop} (h : D.Safe a p T Q w)
    (himp : ∀ x T' w₁, Q x T' w₁ → Q' x T' w₁) : D.Safe a p T Q' w := by
  induction p generalizing T w with
  | ret x => exact fun w₁ hrely => himp _ _ _ (h w₁ hrely)
  | fail e => exact fun w₁ hrely => himp _ _ _ (h w₁ hrely)
  | call o k ih =>
    intro w₁ hrely hinv
    obtain ⟨huses, hallowed, hnext⟩ := h w₁ hrely hinv
    exact ⟨huses, hallowed, fun c r w₂ hexec => ih r (hnext c r w₂ hexec)⟩

lemma Safe.bind {f : α → Prog S ε β} {R : α → Set Token → World → Prop}
    {R' : β → Set Token → World → Prop} (h : D.Safe a p T (OnOk R) w) (hinv : D.Inv w)
    (hok : ∀ x T' w₁, T ⊆ T' → w ≤ w₁ → D.Inv w₁ → (∀ w₂, D.Rely T' w₁ w₂ → R x T' w₂) →
      D.Safe a (f x) T' (OnOk R') w₁) :
    D.Safe a (p >>= f) T (OnOk R') w := by
  induction p generalizing T w with
  | ret x => exact hok x T w subset_rfl le_rfl hinv h
  | fail e => exact fun _ _ => trivial
  | call o k ih =>
    intro w₁ hrely h1
    obtain ⟨huses, hallowed, hnext⟩ := h w₁ hrely h1
    refine ⟨huses, hallowed, fun c r w₂ hexec => ?_⟩
    have hgrow : w ≤ w₂ := hrely.1.trans (D.exec_le h1 hallowed hexec)
    refine ih r (hnext c r w₂ hexec) (D.exec_inv h1 hallowed hexec) fun x T' w3 hT h3 => ?_
    exact hok x T' w3 (Set.subset_union_left.trans hT) (hgrow.trans h3)

lemma Safe.attempt (h : D.Safe a p T Q w) : D.Safe a p.attempt T (OnOk Q) w := by
  induction p generalizing T w with
  | ret x => exact h
  | fail e => exact h
  | call o k ih =>
    intro w₁ hrely h1
    obtain ⟨huses, hallowed, hnext⟩ := h w₁ hrely h1
    exact ⟨huses, hallowed, fun c r w₂ hexec => ih r (hnext c r w₂ hexec)⟩

def OnAnswer {η : Type} (R : α → Set Token → World → Prop) (P : Set Token → World → Prop) :
    Except η α → Set Token → World → Prop
  | .ok x, T, w => R x T w
  | .error _, T, w => P T w

lemma Safe.retry {η : Type} {request : Prog S ε (Except η α)} {again : Prog S ε Bool}
    {P : Set Token → World → Prop} {R : α → Set Token → World → Prop}
    (hrequest : ∀ T' w₁, P T' w₁ → D.Inv w₁ → D.Safe a request T' (OnOk (OnAnswer R P)) w₁)
    (hagain : ∀ T' w₁, P T' w₁ → D.Inv w₁ → D.Safe a again T' (OnOk fun _ T'' w₂ => P T'' w₂) w₁)
    (hP : P T w) (hinv : D.Inv w) (n : Nat) :
    D.Safe a (request.retry again n) T (OnOk fun r T'' w₂ => ∀ x, r = .ok x → R x T'' w₂) w := by
  induction n generalizing T w with
  | zero =>
    refine (hrequest T w hP hinv).imp fun r T' w₁ hr => ?_
    cases r with
    | error e => trivial
    | ok r =>
      intro x hx
      subst hx
      exact hr
  | succ n ih =>
    refine Safe.bind (hrequest T w hP hinv) hinv fun r T' w₁ _ _ hinv1 hr => ?_
    cases r with
    | ok x =>
      intro w₂ h2 y hy
      cases hy
      exact hr w₂ h2
    | error e =>
      have hP1 : P T' w₁ := hr w₁ (Rely.refl w₁)
      refine Safe.bind (hagain T' w₁ hP1 hinv1) hinv1 fun allowed T'' w₂ _ _ hinv2 hP2 => ?_
      split
      · exact ih (hP2 w₂ (Rely.refl w₂)) hinv2
      · exact fun _ _ _ hx => nomatch hx

section

variable {code : Actor → Entry → Prog S ε α} {G : Guard S Actor Choice Event World Entry}
  {Post : Actor → Except ε α → Set Token → World → Prop} {s0 s s' : Sys S Actor World ε α}

structure Holds (D : Tenure M Token) (Post : Actor → Except ε α → Set Token → World → Prop)
    (s : Sys S Actor World ε α) (owned : List (Thread S Actor ε α × Set Token)) : Prop where
  inv : D.Inv s.world
  threads : owned.map Prod.fst = s.threads
  safe : ∀ x ∈ owned, D.Safe x.1.actor x.1.prog x.2 (Post x.1.actor) s.world
  apart : owned.Pairwise fun x y => Disjoint x.2 y.2
  issued : ∀ x ∈ owned, ∀ t ∈ x.2, D.Issued s.world t

lemma rely_of_disjoint {T' : Set Token} (hdisjoint : Disjoint T T') (hle : w ≤ w₁)
    (hkeeps : ∀ t, t ∉ T → D.Keeps t w w₁) : D.Rely T' w w₁ :=
  ⟨hle, fun t ht => hkeeps t fun ht' => Set.disjoint_left.mp hdisjoint ht' ht⟩

variable {o : S.Op} {owned : List (Thread S Actor ε α × Set Token)} {i : Nat}

lemma Holds.owner (h : D.Holds Post s owned)
    {t : Thread S Actor ε α} (hi : s.threads[i]? = some t) :
    ∃ T, owned[i]? = some (t, T) := by
  rw [← h.threads, List.getElem?_map] at hi
  obtain ⟨⟨thread, T⟩, hx, rfl⟩ := Option.map_eq_some_iff.mp hi
  exact ⟨T, hx⟩

lemma Holds.call (h : D.Holds Post s owned)
    {c : Choice} {k : S.Reply o → Prog S ε α} {r : S.Reply o}
    (hi : s.threads[i]? = some ⟨a, .call o k⟩) (hexec : M.exec a o c s.world = some (r, w)) :
    ∃ owned', D.Holds Post ⟨w, s.threads.set i ⟨a, k r⟩⟩ owned' := by
  obtain ⟨T, hx⟩ := h.owner hi
  obtain ⟨huses, hallowed, hnext⟩ := h.safe _ (List.mem_of_getElem? hx) _ (Rely.refl _) h.inv
  have hle : s.world ≤ w := D.exec_le h.inv hallowed hexec
  -- the other threads are in front of this one and behind it
  obtain ⟨front, back, howned, hlen⟩ : ∃ front back, owned =
      front ++ (⟨a, .call o k⟩, T) :: back ∧ front.length = i := by
    obtain ⟨hlt, hget⟩ := List.getElem?_eq_some_iff.mp hx
    refine ⟨owned.take i, owned.drop (i + 1), ?_, List.length_take_of_le hlt.le⟩
    rw [← hget, List.getElem_cons_drop, List.take_append_drop]
  have hapart := h.apart
  rw [howned, List.pairwise_append, List.pairwise_cons] at hapart
  obtain ⟨hfront, ⟨hback, hbacks⟩, hcross⟩ := hapart
  have hrely : ∀ x ∈ front ++ back, Disjoint T x.2 := by
    intro x hx
    rcases List.mem_append.mp hx with hx | hx
    · exact (hcross x hx _ List.mem_cons_self).symm
    · exact hback x hx
  have hmem : ∀ x ∈ front ++ back, x ∈ owned := by
    intro x hx
    rw [howned]
    rcases List.mem_append.mp hx with hx | hx
    · exact List.mem_append_left _ hx
    · exact List.mem_append_right _ (List.mem_cons_of_mem _ hx)
  have hkeeps : ∀ t, t ∉ T → D.Keeps t s.world w := fun t ht =>
    D.exec_keeps h.inv hallowed hexec fun huse => ht (huses t huse)
  have hgranted : ∀ x ∈ front ++ back, Disjoint (T ∪ {t | D.grants o r = some t}) x.2 := by
    intro x hx
    refine Set.disjoint_union_left.mpr ⟨hrely x hx, Set.disjoint_left.mpr fun t ht hold => ?_⟩
    exact (D.exec_grants hexec ht).1 (h.issued x (hmem x hx) t hold)
  refine ⟨front ++ (⟨a, k r⟩, T ∪ {t | D.grants o r = some t}) :: back,
    D.exec_inv h.inv hallowed hexec, ?_, fun x hx => ?_, ?_, fun x hx t ht => ?_⟩
  · have hfronts : (front.map Prod.fst).length = i := by rw [List.length_map, hlen]
    rw [← h.threads, howned, List.map_append, List.map_append, List.map_cons, List.map_cons,
      ← hfronts]
    simp
  · rcases List.mem_append.mp hx with hx | hx
    · have hin := List.mem_append_left back hx
      exact (h.safe x (hmem x hin)).mono (rely_of_disjoint (hrely x hin) hle hkeeps)
    rcases List.mem_cons.mp hx with rfl | hx
    · exact hnext c r w hexec
    · have hin := List.mem_append_right front hx
      exact (h.safe x (hmem x hin)).mono (rely_of_disjoint (hrely x hin) hle hkeeps)
  · rw [List.pairwise_append, List.pairwise_cons]
    refine ⟨hfront, ⟨fun x hx => hgranted x (List.mem_append_right front hx), hbacks⟩, ?_⟩
    intro x hx y hy
    rcases List.mem_cons.mp hy with rfl | hy
    · exact (hgranted x (List.mem_append_left back hx)).symm
    · exact hcross x hx y (List.mem_cons_of_mem _ hy)
  · rcases List.mem_append.mp hx with hx | hx
    · exact D.issued_mono hle (h.issued x (hmem x (List.mem_append_left back hx)) t ht)
    rcases List.mem_cons.mp hx with rfl | hx
    · rcases ht with ht | ht
      · exact D.issued_mono hle (h.issued _ (howned ▸ List.mem_append_right _ List.mem_cons_self)
          t ht)
      · exact (D.exec_grants hexec ht).2
    · exact D.issued_mono hle (h.issued x (hmem x (List.mem_append_right front hx)) t ht)

lemma Holds.step {l : Label Actor Entry Choice Event} (h : D.Holds Post s owned)
    (hcode : ∀ a e w, D.Inv w → G.entry a e → D.Safe a (code a e) ∅ (Post a) w)
    (hG : G.Admits s l) (hstep : Interleaving.step M code s l = some s') :
    ∃ owned', D.Holds Post s' owned' := by
  obtain ⟨a, e, rfl, rfl⟩ | ⟨i, c, a, o, k, r, w, rfl, hi, hexec, rfl⟩ | ⟨i, rfl, rfl⟩ |
    ⟨e, w, rfl, henv, rfl⟩ := step_cases hstep
  · refine ⟨owned ++ [(⟨a, code a e⟩, ∅)], h.inv, by simp [h.threads], fun x hx => ?_, ?_,
      fun x hx t ht => ?_⟩
    · rcases List.mem_append.mp hx with hx | hx
      · exact h.safe x hx
      · rw [List.mem_singleton.mp hx]
        exact hcode a e _ h.inv hG
    · refine List.pairwise_append.mpr ⟨h.apart, List.pairwise_singleton _ _, fun x _ y hy => ?_⟩
      rw [List.mem_singleton.mp hy]
      exact Set.disjoint_empty _
    · rcases List.mem_append.mp hx with hx | hx
      · exact h.issued x hx t ht
      · rw [List.mem_singleton.mp hx] at ht
        exact ht.elim
  · exact h.call hi hexec
  · have hsub := List.eraseIdx_sublist owned i
    refine ⟨owned.eraseIdx i, h.inv, ?_, fun x hx => h.safe x (hsub.subset hx),
      h.apart.sublist hsub, fun x hx => h.issued x (hsub.subset hx)⟩
    rw [← h.threads, List.eraseIdx_map]
  · have hle : s.world ≤ w := D.env_le h.inv henv
    refine ⟨owned, D.env_inv h.inv henv, h.threads, fun x hx => ?_, h.apart,
      fun x hx t ht => D.issued_mono hle (h.issued x hx t ht)⟩
    exact (h.safe x hx).mono ⟨hle, fun t _ => D.env_keeps h.inv henv⟩

lemma Holds.allowed (h : D.Holds Post s owned) {k : S.Reply o → Prog S ε α}
    (hi : s.threads[i]? = some ⟨a, .call o k⟩) : D.Allowed o s.world := by
  obtain ⟨T, hx⟩ := h.owner hi
  exact (h.safe _ (List.mem_of_getElem? hx) _ (Rely.refl _) h.inv).2.1

lemma reach_holds (h0 : D.Inv w)
    (hcode : ∀ a e w, D.Inv w → G.entry a e → D.Safe a (code a e) ∅ (Post a) w)
    (hreach : Reach M code G ⟨w, []⟩ s) : ∃ owned, D.Holds Post s owned := by
  induction hreach with
  | refl => exact ⟨[], h0, rfl, by simp, List.Pairwise.nil, by simp⟩
  | tail _ hG hstep ih =>
    obtain ⟨owned, hs⟩ := ih
    exact hs.step hcode hG hstep

lemma reach_inv (h0 : D.Inv w)
    (hcode : ∀ a e w, D.Inv w → G.entry a e → D.Safe a (code a e) ∅ (Post a) w)
    (hreach : Reach M code G ⟨w, []⟩ s) : D.Inv s.world := by
  obtain ⟨owned, hs⟩ := reach_holds h0 hcode hreach
  exact hs.inv

lemma reach_invariant {I : World → Prop} (h0 : D.Inv w) (hI : I w)
    (hcode : ∀ a e w, D.Inv w → G.entry a e → D.Safe a (code a e) ∅ (Post a) w)
    (hexec : ∀ a o c w r w', D.Inv w → I w → D.Allowed o w → G.op a o c w →
      M.exec a o c w = some (r, w') → I w')
    (henv : ∀ e w w', D.Inv w → I w → G.env e w → M.env e w = some w' → I w')
    (hreach : Reach M code G ⟨w, []⟩ s) : I s.world := by
  induction hreach with
  | refl => exact hI
  | @tail s s' l hreach hG hstep ih =>
    obtain ⟨owned, hs⟩ := reach_holds h0 hcode hreach
    obtain ⟨a, e, rfl, rfl⟩ | ⟨i, c, a, o, k, r, w, rfl, hi, hx, rfl⟩ | ⟨i, rfl, rfl⟩ |
      ⟨e, w, rfl, hx, rfl⟩ := step_cases hstep
    · exact ih
    · exact hexec a o c _ r w hs.inv ih (hs.allowed hi) (hG a o k hi) hx
    · exact ih
    · exact henv e _ w hs.inv ih hG hx

end

end Tenure

end Interleaving
