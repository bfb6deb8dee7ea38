import Chronos.Pruning.Keys

/-! The namespaces of one store, whose keys all begin with the store's own prefix. -/

namespace Chronos

open Pruning List

/-- `namespace` of the source. -/
def namespaced (storePrefix suffix : String) : String :=
  if storePrefix.isEmpty then suffix else storePrefix ++ "/" ++ suffix

def namespacePrefixes : List String :=
  ["routes/", "generators/", "timeline_status/", requestPrefix, legacyRequestPrefix,
    requestCleanupIndexPrefix, legacyRequestCleanupIndexPrefix, "identity/instances/", "cluster/"]

def InPrefixRange (keyPrefix key : String) : Prop := keyPrefix ≤ key ∧
    key < prefixRangeEnd keyPrefix

variable {p a b rest : String}

lemma exists_toList_namespaced (p : String) :
    ∃ lead : List Char, ∀ suffix, (namespaced p suffix).toList = lead ++ suffix.toList := by
  by_cases h : p.isEmpty
  · exact ⟨[], fun suffix => by simp [namespaced, h]⟩
  · exact ⟨p.toList ++ ['/'], fun suffix => by simp [namespaced, h, String.toList_append]⟩

lemma namespaced_lt_iff : namespaced p a < namespaced p b ↔ a < b := by
  obtain ⟨lead, hlead⟩ := exists_toList_namespaced p
  rw [String.lt_iff_toList_lt, hlead, hlead, append_lt_append_iff, String.lt_iff_toList_lt]

lemma namespaced_inj (h : namespaced p a = namespaced p b) : a = b := by
  obtain ⟨lead, hlead⟩ := exists_toList_namespaced p
  have hchars := congrArg String.toList h
  rw [hlead, hlead] at hchars
  exact String.toList_inj.mp (append_cancel_left hchars)

lemma toList_of_mem (ha : a ∈ namespacePrefixes) : ∃ l, a.toList = l ++ ['/'] := by
  have hall : ∀ a ∈ namespacePrefixes, a.toList = a.toList.dropLast ++ ['/'] := by decide +kernel
  exact ⟨_, hall a ha⟩

lemma prefixRangeEnd_namespaced (ha : a ∈ namespacePrefixes) :
    prefixRangeEnd (namespaced p a) = namespaced p (prefixRangeEnd a) := by
  obtain ⟨lead, hlead⟩ := exists_toList_namespaced p
  obtain ⟨l, hl⟩ := toList_of_mem ha
  apply String.toList_inj.mp
  rw [hlead, prefixRangeEnd, prefixRangeEnd, hlead, hl]
  simp [← append_assoc]

lemma inPrefixRange_append (ha : a ∈ namespacePrefixes) :
    InPrefixRange (namespaced p a) (namespaced p (a ++ rest)) := by
  obtain ⟨l, hl⟩ := toList_of_mem ha
  constructor
  · rw [← not_lt, namespaced_lt_iff, String.lt_iff_toList_lt, String.toList_append]
    exact le_append_left
  · rw [prefixRangeEnd_namespaced ha, namespaced_lt_iff, String.lt_iff_toList_lt,
      String.toList_append, prefixRangeEnd, hl, append_assoc]
    have hslash : '/' < '0' := by decide
    simp [append_lt_append_iff, cons_lt_cons_iff, hslash]

lemma not_inPrefixRange_both (ha : a ∈ namespacePrefixes) (hb : b ∈ namespacePrefixes)
    (hab : a ≠ b) (key : String) :
    ¬ (InPrefixRange (namespaced p a) key ∧ InPrefixRange (namespaced p b) key) := by
  have hall : ∀ a ∈ namespacePrefixes, ∀ b ∈ namespacePrefixes, a ≠ b →
      ¬ b < prefixRangeEnd a ∨ ¬ a < prefixRangeEnd b := by decide +kernel
  rintro ⟨⟨hfirst, hlast⟩, hfirst', hlast'⟩
  rw [prefixRangeEnd_namespaced ha] at hlast
  rw [prefixRangeEnd_namespaced hb] at hlast'
  rcases hall a ha b hb hab with hend | hend
  · exact hend (namespaced_lt_iff.mp (hfirst'.trans_lt hlast))
  · exact hend (namespaced_lt_iff.mp (hfirst.trans_lt hlast'))

/-- Different records have different keys, different namespaces have disjoint key ranges, and the
cleanup index is in the order of its times. -/
theorem key_encodings_separate (storePrefix : String) :
    (∀ tk rid tk' rid', namespaced storePrefix (Pruning.requestKey tk rid) =
      namespaced storePrefix (Pruning.requestKey tk' rid') → tk = tk' ∧ rid = rid') ∧
    (∀ updatedAtMs < 2 ^ 64, ∀ updatedAtMs' < 2 ^ 64, ∀ tk rid tk' rid',
      namespaced storePrefix (requestCleanupIndexKey updatedAtMs tk rid) =
        namespaced storePrefix (requestCleanupIndexKey updatedAtMs' tk' rid') →
      updatedAtMs = updatedAtMs' ∧ tk = tk' ∧ rid = rid') ∧
    (∀ a ∈ namespacePrefixes, ∀ rest,
      InPrefixRange (namespaced storePrefix a) (namespaced storePrefix (a ++ rest))) ∧
    (∀ a ∈ namespacePrefixes, ∀ b ∈ namespacePrefixes, a ≠ b → ∀ key,
      ¬ (InPrefixRange (namespaced storePrefix a) key ∧
        InPrefixRange (namespaced storePrefix b) key)) ∧
    ∀ updatedAtMs < 2 ^ 64, ∀ t < 2 ^ 64, ∀ tk rid,
      namespaced storePrefix (requestCleanupIndexKey updatedAtMs tk rid) <
        namespaced storePrefix (requestCleanupIndexCutoff t) ↔ updatedAtMs < t := by
  refine ⟨fun _ _ _ _ h => requestKey_inj (namespaced_inj h), ?_,
    fun _ ha _ => inPrefixRange_append ha, fun _ ha _ hb hab => not_inPrefixRange_both ha hb hab,
    fun _ hupdated _ ht _ _ => namespaced_lt_iff.trans (indexKey_lt_cutoff hupdated ht)⟩
  intro _ hupdated _ hupdated' _ _ _ _ h
  have hkey := namespaced_inj h
  exact ⟨(updatedAtMs_le_of_indexKey_le hupdated hupdated' hkey.le).antisymm
    (updatedAtMs_le_of_indexKey_le hupdated' hupdated hkey.ge), indexKey_inj hkey⟩

lemma eq_slash {c : Char} (hle : '/' ≤ c) (hlt : c < '0') : c = '/' := by
  have hfirst : 47 ≤ c.toNat := hle
  have hlast : c.toNat < 48 := hlt
  exact Char.ext (UInt32.toNat_inj.mp (show c.toNat = 47 by omega))

lemma eq_append_of_between {l key : List Char} (hle : l ++ ['/'] ≤ key) (hlt : key < l ++ ['0']) :
    ∃ rest, key = l ++ '/' :: rest := by
  induction l generalizing key with
  | nil =>
    cases key with
    | nil => exact absurd hle (by simp)
    | cons c key =>
      have hslash : c = '/' := by
        refine eq_slash (not_lt.mp fun h => ?_) ?_
        · exact not_lt.mpr hle (cons_lt_cons_iff.mpr (.inl h))
        · simpa [cons_lt_cons_iff] using hlt
      exact ⟨key, by rw [hslash]; rfl⟩
  | cons d l ih =>
    cases key with
    | nil => exact absurd hle (by simp)
    | cons c key =>
      rcases cons_lt_cons_iff.mp hlt with hless | ⟨rfl, hrest⟩
      · exact absurd (cons_lt_cons_iff.mpr (.inl hless)) (not_lt.mpr hle)
      · obtain ⟨rest, rfl⟩ := ih (not_lt.mp fun h => not_lt.mpr hle (cons_lt_cons_self.mpr h)) hrest
        exact ⟨rest, rfl⟩

lemma inPrefixRange_slash_iff {directory key : String} :
    InPrefixRange (namespaced p (directory ++ "/")) key ↔
      ∃ rest, key = namespaced p (directory ++ "/" ++ rest) := by
  obtain ⟨lead, hlead⟩ := exists_toList_namespaced p
  have hfirst : (namespaced p (directory ++ "/")).toList = (lead ++ directory.toList) ++ ['/'] := by
    simp [hlead, String.toList_append]
  have hlast : (prefixRangeEnd (namespaced p (directory ++ "/"))).toList =
      (lead ++ directory.toList) ++ ['0'] := by
    rw [prefixRangeEnd, hfirst]
    simp
  rw [InPrefixRange, String.le_iff_toList_le, String.lt_iff_toList_lt, hfirst, hlast]
  constructor
  · rintro ⟨hle, hlt⟩
    obtain ⟨rest, hrest⟩ := eq_append_of_between hle hlt
    refine ⟨String.ofList rest, String.toList_inj.mp ?_⟩
    simp [hrest, hlead, String.toList_append]
  · rintro ⟨rest, rfl⟩
    have hkey : (namespaced p (directory ++ "/" ++ rest)).toList =
        (lead ++ directory.toList) ++ '/' :: rest.toList := by
      simp [hlead, String.toList_append]
    rw [hkey, append_lt_append_iff, ← not_lt, append_lt_append_iff]
    simp [cons_lt_cons_iff, show '/' < '0' by decide]

lemma inPrefixRange_component_iff {kind component component' : String}
    (h : '/' ∉ component.toList) (h' : '/' ∉ component'.toList) :
    InPrefixRange (namespaced p (a ++ (kind ++ component ++ "/")))
      (namespaced p (a ++ (kind ++ component' ++ "/" ++ rest))) ↔ component' = component := by
  rw [← String.append_assoc, inPrefixRange_slash_iff]
  constructor
  · rintro ⟨rest', hkey⟩
    have hchars := congrArg String.toList (namespaced_inj hkey)
    simp only [String.toList_append, append_assoc] at hchars
    have hkind := append_cancel_left (append_cancel_left hchars)
    exact String.toList_inj.mp (append_cons_inj h' h hkind).1
  · rintro rfl
    exact ⟨rest, by simp only [String.append_assoc]⟩

lemma stateName_injective : Function.Injective stateName := by
  intro left right
  cases left <;> cases right <;> decide

/-- A scan of a prefix that ends with a slash reads exactly the keys below it. So the index scan of
an owner reads the entries of the timelines with that normalized endpoint, and the one of a state
those of the timelines in that state, whatever is in their keys. -/
theorem prefix_scans_exact (storePrefix : String) :
    (∀ directory key, InPrefixRange (namespaced storePrefix (directory ++ "/")) key ↔
      ∃ rest, key = namespaced storePrefix (directory ++ "/" ++ rest)) ∧
    (∀ owner owner' timelineKey, InPrefixRange
        (namespaced storePrefix ("timeline_status/" ++ timelineStatusOwnerIndexPrefix owner))
        (namespaced storePrefix ("timeline_status/" ++
          timelineStatusOwnerIndexKey owner' timelineKey)) ↔
      normalizeEndpointComponent owner' = normalizeEndpointComponent owner) ∧
    ∀ state state' timelineKey, InPrefixRange
        (namespaced storePrefix ("timeline_status/" ++
          timelineStatusStateIndexPrefix (stateName state)))
        (namespaced storePrefix ("timeline_status/" ++
          timelineStatusStateIndexKey (stateName state') timelineKey)) ↔ state' = state := by
  refine ⟨fun _ _ => inPrefixRange_slash_iff, fun owner owner' timelineKey => ?_,
    fun state state' timelineKey => ?_⟩
  · exact (inPrefixRange_component_iff (slash_notMem_encodeComponent _)
      (slash_notMem_encodeComponent _)).trans encodeComponent_injective.eq_iff
  · exact (inPrefixRange_component_iff (slash_notMem_stateName _)
      (slash_notMem_stateName _)).trans stateName_injective.eq_iff

end Chronos
