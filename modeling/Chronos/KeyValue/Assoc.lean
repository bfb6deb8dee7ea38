import Mathlib.Data.List.AList

/-! What a lookup in an association list finds after an insertion or a removal. -/

namespace KeyValue

variable {α β : Type} [DecidableEq α] {m : AList fun _ : α => β} {key other : α} {val found : β}

lemma lookup_insert_eq_some (h : (m.insert key val).lookup other = some found) :
    other = key ∧ found = val ∨ other ≠ key ∧ m.lookup other = some found := by
  by_cases hkey : other = key
  · subst hkey
    rw [AList.lookup_insert] at h
    exact .inl ⟨rfl, (Option.some.inj h).symm⟩
  · rw [AList.lookup_insert_ne hkey] at h
    exact .inr ⟨hkey, h⟩

lemma lookup_erase_eq_some (h : (m.erase key).lookup other = some found) :
    other ≠ key ∧ m.lookup other = some found := by
  by_cases hkey : other = key
  · subst hkey
    rw [AList.lookup_erase] at h
    cases h
  · rw [AList.lookup_erase_ne hkey] at h
    exact ⟨hkey, h⟩

lemma length_keys_insert (h : m.lookup key = none) :
    (m.insert key val).keys.length = m.keys.length + 1 := by
  have hnot : key ∉ m.keys := mt AList.mem_keys.mpr (AList.lookup_eq_none.mp h)
  rw [AList.keys_insert, List.erase_of_not_mem hnot]
  rfl

lemma length_keys_erase (h : m.lookup key = some found) :
    (m.erase key).keys.length + 1 = m.keys.length := by
  have hmem : key ∈ m.keys := AList.mem_keys.mp (AList.lookup_isSome.mp (by rw [h]; rfl))
  rw [AList.keys_erase, List.length_erase_add_one hmem]

end KeyValue
