import Mathlib.Data.List.Pairwise
import Mathlib.Data.Nat.Basic
import Mathlib.Order.Basic

/-! Processes that issue indices of one shared line, each from a private cursor and under grants
that are never revoked. -/

namespace Reservation

/-- `covered` holds of every index that has been granted to somebody; `issued` lists half-open
intervals in the order they were taken. -/
structure Ledger (P : Type) where
  cursor : P → Nat
  granted : P → Nat → Prop
  covered : Nat → Prop
  leader : Option P
  issued : List (Nat × Nat)

namespace Ledger

variable {P : Type} {s s' : Ledger P} {p q : P} {i start stop : Nat}

def Open (s : Ledger P) (p : P) (i : Nat) : Prop := s.cursor p ≤ i ∧ s.granted p i

def Within (i : Nat) (r : Nat × Nat) : Prop := r.1 ≤ i ∧ i < r.2

def Taken (s : Ledger P) (i : Nat) : Prop := ∃ r ∈ s.issued, Within i r

inductive Step (s s' : Ledger P) : Prop where
  | advance (cursor : ∀ p, s.cursor p ≤ s'.cursor p) (granted : s'.granted = s.granted)
      (covered : s'.covered = s.covered) (leader : s'.leader = s.leader)
      (issued : s'.issued = s.issued)
  | raise (cursor : s'.cursor = s.cursor) (granted : ∀ p i, s'.granted p i → s.granted p i)
      (covered : ∀ i, s.covered i → s'.covered i) (leader : s'.leader = none)
      (issued : s'.issued = s.issued)
  | grant (p : P) (may : s.leader = some p ∨ ∀ i, s.covered i → i < s.cursor p)
      (cursor : s'.cursor = s.cursor) (own : ∀ i, s'.granted p i → s'.covered i)
      (others : ∀ q, q ≠ p → ∀ i, s'.granted q i → s.granted q i)
      (covered : ∀ i, s.covered i → s'.covered i) (leader : s'.leader = some p)
      (issued : s'.issued = s.issued)
  | issue (p : P) (start stop : Nat) (from_cursor : s.cursor p ≤ start) (le : start ≤ stop)
      (may : ∀ i, Within i (start, stop) → s.granted p i) (cursor_eq : s'.cursor p = stop)
      (cursor_ne : ∀ q, q ≠ p → s'.cursor q = s.cursor q) (granted : s'.granted = s.granted)
      (covered : s'.covered = s.covered) (leader : s'.leader = s.leader)
      (issued : s'.issued = s.issued ++ [(start, stop)])

structure Sound (s : Ledger P) : Prop where
  granted_covered : ∀ p i, s.granted p i → s.covered i
  taken_covered : ∀ i, s.Taken i → s.covered i
  fresh : ∀ p i, s.Open p i → ¬ s.Taken i
  apart : ∀ p q i, s.Open p i → s.Open q i → p = q
  leads_taken : ∀ p, s.leader = some p → ∀ i, s.Taken i → i < s.cursor p
  leads_open : ∀ p, s.leader = some p → ∀ q i, q ≠ p → s.Open q i → i < s.cursor p
  disjoint : s.issued.Pairwise fun a b => ∀ i, Within i a → ¬ Within i b

lemma Taken.append {r : Nat × Nat} (hissued : s'.issued = s.issued ++ [r]) :
    s'.Taken i ↔ s.Taken i ∨ Within i r := by
  simp only [Taken, hissued, List.mem_append, List.mem_singleton, or_and_right, exists_or,
    exists_eq_left]

lemma Sound.advance (h : s.Sound) (hcursor : ∀ p, s.cursor p ≤ s'.cursor p)
    (hgranted : s'.granted = s.granted) (hcovered : s'.covered = s.covered)
    (hleader : s'.leader = s.leader) (hissued : s'.issued = s.issued) : s'.Sound := by
  have hopen : ∀ p i, s'.Open p i → s.Open p i := fun p i hi =>
    ⟨(hcursor p).trans hi.1, hgranted ▸ hi.2⟩
  have htaken : ∀ i, s'.Taken i → s.Taken i := fun i hi => by rwa [Taken, hissued] at hi
  constructor
  · rw [hgranted, hcovered]
    exact h.granted_covered
  · rw [hcovered]
    exact fun i hi => h.taken_covered i (htaken i hi)
  · exact fun p i hi ht => h.fresh p i (hopen p i hi) (htaken i ht)
  · exact fun p q i hp hq => h.apart p q i (hopen p i hp) (hopen q i hq)
  · rw [hleader]
    exact fun p hp i hi => (h.leads_taken p hp i (htaken i hi)).trans_le (hcursor p)
  · rw [hleader]
    exact fun p hp q i hq hi => (h.leads_open p hp q i hq (hopen q i hi)).trans_le (hcursor p)
  · rw [hissued]
    exact h.disjoint

lemma Sound.raise (h : s.Sound) (hcursor : s'.cursor = s.cursor)
    (hgranted : ∀ p i, s'.granted p i → s.granted p i)
    (hcovered : ∀ i, s.covered i → s'.covered i) (hleader : s'.leader = none)
    (hissued : s'.issued = s.issued) : s'.Sound := by
  have hopen : ∀ p i, s'.Open p i → s.Open p i := fun p i hi => ⟨hcursor ▸ hi.1, hgranted p i hi.2⟩
  have htaken : ∀ i, s'.Taken i → s.Taken i := fun i hi => by rwa [Taken, hissued] at hi
  constructor
  · exact fun p i hi => hcovered i (h.granted_covered p i (hgranted p i hi))
  · exact fun i hi => hcovered i (h.taken_covered i (htaken i hi))
  · exact fun p i hi ht => h.fresh p i (hopen p i hi) (htaken i ht)
  · exact fun p q i hp hq => h.apart p q i (hopen p i hp) (hopen q i hq)
  · simp [hleader]
  · simp [hleader]
  · rw [hissued]
    exact h.disjoint

lemma Sound.ahead (h : s.Sound) (hmay : s.leader = some p ∨ ∀ i, s.covered i → i < s.cursor p) :
    (∀ i, s.Taken i → i < s.cursor p) ∧ ∀ q i, q ≠ p → s.Open q i → i < s.cursor p := by
  rcases hmay with hlead | hpast
  · exact ⟨h.leads_taken p hlead, h.leads_open p hlead⟩
  · exact ⟨fun i hi => hpast i (h.taken_covered i hi),
      fun q i _ hi => hpast i (h.granted_covered q i hi.2)⟩

lemma Sound.grant (h : s.Sound) (hmay : s.leader = some p ∨ ∀ i, s.covered i → i < s.cursor p)
    (hcursor : s'.cursor = s.cursor) (hown : ∀ i, s'.granted p i → s'.covered i)
    (hothers : ∀ q, q ≠ p → ∀ i, s'.granted q i → s.granted q i)
    (hcovered : ∀ i, s.covered i → s'.covered i) (hleader : s'.leader = some p)
    (hissued : s'.issued = s.issued) : s'.Sound := by
  obtain ⟨htakenlt, hopenlt⟩ := h.ahead hmay
  have hopen : ∀ q i, q ≠ p → s'.Open q i → s.Open q i := fun q i hq hi =>
    ⟨hcursor ▸ hi.1, hothers q hq i hi.2⟩
  have htaken : ∀ i, s'.Taken i → s.Taken i := fun i hi => by rwa [Taken, hissued] at hi
  have hahead : ∀ i, s'.Open p i → s.cursor p ≤ i := fun i hi => hcursor ▸ hi.1
  constructor
  · intro q i hi
    by_cases hq : q = p
    · exact hown i (hq ▸ hi)
    · exact hcovered i (h.granted_covered q i (hothers q hq i hi))
  · exact fun i hi => hcovered i (h.taken_covered i (htaken i hi))
  · intro q i hi ht
    by_cases hq : q = p
    · exact absurd (htakenlt i (htaken i ht)) (hahead i (hq ▸ hi)).not_gt
    · exact h.fresh q i (hopen q i hq hi) (htaken i ht)
  · intro q r i hq hr
    by_cases hqp : q = p <;> by_cases hrp : r = p
    · rw [hqp, hrp]
    · exact absurd (hopenlt r i hrp (hopen r i hrp hr)) (hahead i (hqp ▸ hq)).not_gt
    · exact absurd (hopenlt q i hqp (hopen q i hqp hq)) (hahead i (hrp ▸ hr)).not_gt
    · exact h.apart q r i (hopen q i hqp hq) (hopen r i hrp hr)
  · intro q hq i hi
    cases hleader.symm.trans hq
    rw [hcursor]
    exact htakenlt i (htaken i hi)
  · intro q hq r i hr hi
    cases hleader.symm.trans hq
    rw [hcursor]
    exact hopenlt r i hr (hopen r i hr hi)
  · rw [hissued]
    exact h.disjoint

lemma Sound.issue (h : s.Sound) (hstart : s.cursor p ≤ start) (hle : start ≤ stop)
    (hmay : ∀ i, Within i (start, stop) → s.granted p i) (hcursor : s'.cursor p = stop)
    (hcursor' : ∀ q, q ≠ p → s'.cursor q = s.cursor q) (hgranted : s'.granted = s.granted)
    (hcovered : s'.covered = s.covered) (hleader : s'.leader = s.leader)
    (hissued : s'.issued = s.issued ++ [(start, stop)]) : s'.Sound := by
  have htaken : ∀ i, s'.Taken i ↔ s.Taken i ∨ Within i (start, stop) := fun i =>
    Taken.append hissued
  have hwas : ∀ i, Within i (start, stop) → s.Open p i := fun i hi => ⟨hstart.trans hi.1, hmay i hi⟩
  have hmono : ∀ q, s.cursor q ≤ s'.cursor q := fun q => by
    by_cases hq : q = p
    · rw [hq, hcursor]
      exact hstart.trans hle
    · rw [hcursor' q hq]
  have hopen : ∀ q i, s'.Open q i → s.Open q i := fun q i hi =>
    ⟨(hmono q).trans hi.1, hgranted ▸ hi.2⟩
  -- an index just taken is behind its own process and was open to nobody else
  have hclosed : ∀ q i, s'.Open q i → ¬ Within i (start, stop) := fun q i hi hw => by
    obtain rfl := h.apart q p i (hopen q i hi) (hwas i hw)
    exact absurd (hcursor ▸ hi.1) hw.2.not_ge
  constructor
  · rw [hgranted, hcovered]
    exact h.granted_covered
  · intro i hi
    rw [hcovered]
    rcases (htaken i).mp hi with hi | hi
    · exact h.taken_covered i hi
    · exact h.granted_covered p i (hmay i hi)
  · intro q i hi ht
    rcases (htaken i).mp ht with ht | ht
    · exact h.fresh q i (hopen q i hi) ht
    · exact hclosed q i hi ht
  · exact fun q r i hq hr => h.apart q r i (hopen q i hq) (hopen r i hr)
  · intro q hq i hi
    rw [hleader] at hq
    rcases (htaken i).mp hi with hi | hi
    · exact (h.leads_taken q hq i hi).trans_le (hmono q)
    by_cases hqp : q = p
    · rw [hqp, hcursor]
      exact hi.2
    · rw [hcursor' q hqp]
      exact h.leads_open q hq p i (Ne.symm hqp) (hwas i hi)
  · intro q hq r i hr hi
    rw [hleader] at hq
    exact (h.leads_open q hq r i hr (hopen r i hi)).trans_le (hmono q)
  · rw [hissued, List.pairwise_append]
    refine ⟨h.disjoint, List.pairwise_singleton _ _, fun a ha b hb i hia hib => ?_⟩
    rw [List.mem_singleton.mp hb] at hib
    exact h.fresh p i (hwas i hib) ⟨a, ha, hia⟩

lemma Step.sound (hstep : Step s s') (h : s.Sound) : s'.Sound := by
  cases hstep with
  | advance hcursor hgranted hcovered hleader hissued =>
      exact h.advance hcursor hgranted hcovered hleader hissued
  | raise hcursor hgranted hcovered hleader hissued =>
      exact h.raise hcursor hgranted hcovered hleader hissued
  | grant p hmay hcursor hown hothers hcovered hleader hissued =>
    exact h.grant hmay hcursor hown hothers hcovered hleader hissued
  | issue p start stop hstart hle hmay hcursor hcursor' hgranted hcovered hleader hissued =>
    exact h.issue hstart hle hmay hcursor hcursor' hgranted hcovered hleader hissued

end Ledger

end Reservation
