import Chronos.Interleaving.Program

/-! Programs that run by themselves. No other thread takes a step between two operations; every
outcome the machine allows for an operation is still possible. -/

namespace Interleaving

variable {S : Signature} {Actor Choice Event World ε α β : Type}

inductive Alone (M : Machine S Actor Choice Event World) (a : Actor) :
    Prog S ε α → World → Except ε α → World → Prop where
  | ret {x w} : Alone M a (.ret x) w (.ok x) w
  | fail {e w} : Alone M a (.fail e) w (.error e) w
  | call {o k c r w w₁ out w₂} : M.exec a o c w = some (r, w₁) → Alone M a (k r) w₁ out w₂ →
      Alone M a (.call o k) w out w₂

variable {M : Machine S Actor Choice Event World} {a : Actor} {w w' : World}

section

variable {out : Except ε α} {o : S.Op}

@[simp] lemma alone_ret {x : α} :
    Alone M a (.ret x : Prog S ε α) w out w' ↔ out = .ok x ∧ w' = w := by
  constructor
  · rintro ⟨⟩
    exact ⟨rfl, rfl⟩
  · rintro ⟨rfl, rfl⟩
    exact .ret

@[simp] lemma alone_fail {e : ε} :
    Alone M a (.fail e : Prog S ε α) w out w' ↔ out = .error e ∧ w' = w := by
  constructor
  · rintro ⟨⟩
    exact ⟨rfl, rfl⟩
  · rintro ⟨rfl, rfl⟩
    exact .fail

lemma alone_call {k : S.Reply o → Prog S ε α} : Alone M a (.call o k) w out w' ↔
      ∃ c r w1, M.exec a o c w = some (r, w1) ∧ Alone M a (k r) w1 out w' := by
  constructor
  · intro h
    cases h with
    | call hexec hrest => exact ⟨_, _, _, hexec, hrest⟩
  · rintro ⟨c, r, w1, hexec, hrest⟩
    exact .call hexec hrest

end

section

def Prog.runAlone (M : Machine S Actor Choice Event World) (a : Actor) (pick : S.Op → Choice) :
    Prog S ε α → World → Option (Except ε α × World)
  | .ret x, w => some (.ok x, w)
  | .fail e, w => some (.error e, w)
  | .call o k, w =>
    match M.exec a o (pick o) w with
    | some (r, w₁) => (k r).runAlone M a pick w₁
    | none => none

variable {out : Except ε α} {pick : S.Op → Choice} {p : Prog S ε α} {f : α → Prog S ε β}

lemma Prog.runAlone_op_bind {o : S.Op} {k : S.Reply o → Prog S ε α}
    {r : S.Reply o} (h : M.exec a o (pick o) w = some (r, w')) :
    (Prog.op o >>= k).runAlone M a pick w = (k r).runAlone M a pick w' := by
  show (Prog.call o k).runAlone M a pick w = _
  rw [Prog.runAlone, h]

lemma Prog.runAlone_bind (h : p.runAlone M a pick w = some (out, w')) :
    (p >>= f).runAlone M a pick w = (Prog.ofExcept out >>= f).runAlone M a pick w' := by
  induction p generalizing w with
  | ret y | fail e =>
    cases h
    rfl
  | call o k ih =>
    show (Prog.call o fun r => (k r).bind f).runAlone M a pick w = _
    rw [Prog.runAlone] at h ⊢
    split at h
    · next r w1 hexec => exact ih r h
    · cases h

lemma Prog.runAlone_bind_ok {x : α} (h : p.runAlone M a pick w = some (.ok x, w')) :
    (p >>= f).runAlone M a pick w = (f x).runAlone M a pick w' := Prog.runAlone_bind h

lemma Prog.runAlone_bind_error {e : ε} (h : p.runAlone M a pick w = some (.error e, w')) :
    (p >>= f).runAlone M a pick w = some (.error e, w') := Prog.runAlone_bind h

lemma Alone.of_runAlone (h : p.runAlone M a pick w = some (out, w')) : Alone M a p w out w' := by
  induction p generalizing w with
  | ret x =>
    cases h
    exact .ret
  | fail e =>
    cases h
    exact .fail
  | call o k ih =>
    unfold Prog.runAlone at h
    split at h
    · next r w1 hexec => exact .call hexec (ih r h)
    · cases h

lemma Alone.exists_of_runAlone
    {P : Except ε α × World → Bool} (h : (p.runAlone M a pick w).any P = true) :
    ∃ out w', Alone M a p w out w' ∧ P (out, w') = true := by
  obtain ⟨⟨out, w'⟩, hrun, hP⟩ := (Option.any_eq_true ..).mp h
  exact ⟨out, w', .of_runAlone hrun, hP⟩

end

end Interleaving
