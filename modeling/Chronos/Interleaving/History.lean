import Chronos.Interleaving.Program

/-! What a single program has been told. A history lists the operations a program performed with
the replies it got; whatever other programs do in between shows only in these replies, so a
statement about all histories covers every interleaving. -/

namespace Interleaving

variable {S : Signature} {ε α β : Type}

structure Exchange (S : Signature) where
  op : S.Op
  reply : S.Reply op

namespace Prog

inductive Ran : Prog S ε α → List (Exchange S) → Prog S ε α → Prop where
  | refl (p : Prog S ε α) : Ran p [] p
  | call {o : S.Op} {k : S.Reply o → Prog S ε α} {history : List (Exchange S)} {p : Prog S ε α}
      (r : S.Reply o) : Ran (k r) history p → Ran (.call o k) (⟨o, r⟩ :: history) p

/-- However its operations are answered, within the replies `R` admits: the program returns a
value in `Q`, or an error in `E`. -/
def Ends (R : (o : S.Op) → S.Reply o → Prop) (E : ε → Prop) (Q : α → Prop) : Prog S ε α → Prop
  | ret a => Q a
  | fail e => E e
  | call o k => ∀ r, R o r → (k r).Ends R E Q

variable {R : (o : S.Op) → S.Reply o → Prop} {E E' : ε → Prop} {Q Q' : α → Prop} {Q1 : β → Prop}

lemma ends_true (p : Prog S ε α) : p.Ends R (fun _ => True) fun _ => True := by
  induction p with
  | ret a => trivial
  | fail e => trivial
  | call o k ih => exact fun r _ => ih r

variable {p : Prog S ε α} {o : S.Op} {history : List (Exchange S)} {y : β}

lemma Ends.imp (h : p.Ends R E Q) (hQ : ∀ a, Q a → Q' a) : p.Ends R E Q' := by
  induction p with
  | ret a => exact hQ a h
  | fail e => exact h
  | call o k ih => exact fun r hr => ih r (h r hr)

lemma Ends.bind {f : α → Prog S ε β} (hp : p.Ends R E Q)
    (hf : ∀ a, Q a → (f a).Ends R E Q1) : (p >>= f).Ends R E Q1 := by
  induction p with
  | ret a => exact hf a hp
  | fail e => exact hp
  | call o k ih => exact fun r hr => ih r (hp r hr)

lemma Ends.attempt (hp : p.Ends R E Q) : p.attempt.Ends R E' fun
      | .ok a => Q a
      | .error e => E e := by
  induction p with
  | ret a => exact hp
  | fail e => exact hp
  | call o k ih => exact fun r hr => ih r (hp r hr)

lemma ends_op : (Prog.op o : Prog S ε (S.Reply o)).Ends R E (R o) := fun _ hr => hr

lemma ends_ofExcept {x : Except ε α} (herror : ∀ e, x = .error e → E e)
    (hok : ∀ a, x = .ok a → Q a) : (Prog.ofExcept x : Prog S ε α).Ends R E Q := by
  cases x with
  | error e => exact herror e rfl
  | ok a => exact hok a rfl

lemma Ran.ends {p' : Prog S ε α} (h : Ran p history p')
    (hp : p.Ends R E Q) (hreplies : ∀ x ∈ history, R x.op x.reply) : p'.Ends R E Q := by
  induction h with
  | refl p => exact hp
  | @call o k history p' r _ ih =>
    rw [List.forall_mem_cons] at hreplies
    exact ih (hp r hreplies.1) hreplies.2

lemma exists_ran_of_answer {reply : (o : S.Op) → Option (S.Reply o)} {e : ε}
    (h : p.answer reply = some (.error e)) :
    ∃ history, Ran p history (.fail e) ∧ ∀ x ∈ history, reply x.op = some x.reply := by
  induction p with
  | ret a => cases h
  | fail e' =>
    cases h
    exact ⟨[], .refl _, fun _ hx => absurd hx List.not_mem_nil⟩
  | call o k ih =>
    obtain ⟨r, hr, hk⟩ := Option.bind_eq_some_iff.mp h
    obtain ⟨history, hran, hall⟩ := ih r hk
    refine ⟨⟨o, r⟩ :: history, .call r hran, ?_⟩
    rw [List.forall_mem_cons]
    exact ⟨hr, hall⟩

end Prog

end Interleaving
