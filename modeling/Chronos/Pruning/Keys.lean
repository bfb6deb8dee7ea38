import Chronos.Metadata.Keys

/-! Keys of the request records and of their cleanup index, in the current layout and in the one
that older versions used. -/

namespace Chronos.Pruning

open List

def zeroPadded : Nat → Nat → List Char
  | 0, _ => []
  | width + 1, n => zeroPadded width (n / 10) ++ [Nat.digitChar (n % 10)]

def timeComponent (ms : Nat) : String := String.ofList (zeroPadded 20 ms)

def requestPrefix : String := "requests_v2/"

def requestKey (timelineKey clientRequestId : String) : String :=
  "requests_v2/" ++ encodeComponent timelineKey ++ "/" ++ encodeComponent clientRequestId

def legacyRequestPrefix : String := "requests/"

def legacyRequestKey (timelineKey clientRequestId : String) : String :=
  "requests/" ++ timelineKey ++ "/" ++ clientRequestId

def requestCleanupIndexPrefix : String := "request_cleanup_v2/"

def requestCleanupIndexKey (updatedAtMs : Nat) (timelineKey clientRequestId : String) : String :=
  "request_cleanup_v2/" ++ timeComponent updatedAtMs ++ "/" ++
    encodeComponent timelineKey ++ "/" ++ encodeComponent clientRequestId

def requestCleanupIndexCutoff (olderThanMs : Nat) : String :=
  "request_cleanup_v2/" ++ timeComponent olderThanMs ++ "/"

def legacyRequestCleanupIndexPrefix : String := "request_cleanup/"

def legacyRequestCleanupIndexKey (updatedAtMs : Nat) (timelineKey clientRequestId : String) :
    String :=
  "request_cleanup/" ++ timeComponent updatedAtMs ++ "/" ++ timelineKey ++ "/" ++
    clientRequestId

def legacyRequestCleanupIndexCutoff (olderThanMs : Nat) : String :=
  "request_cleanup/" ++ timeComponent olderThanMs ++ "/"

/-- `prefix_range_end` of a prefix that ends with an ASCII character. -/
def prefixRangeEnd (keyPrefix : String) : String :=
  String.ofList (keyPrefix.toList.dropLast ++
    (keyPrefix.toList.getLast?.toList.map fun c => Char.ofNat (c.toNat + 1)))

section

variable (ms : Nat) (tk rid : String)

lemma toList_requestKey : (requestKey tk rid).toList =
    "requests_v2/".toList ++ ((encodeComponent tk).toList ++
      '/' :: (encodeComponent rid).toList) := by
  simp [requestKey, String.toList_append]

lemma toList_legacyRequestKey : (legacyRequestKey tk rid).toList =
    "requests/".toList ++ (tk.toList ++ '/' :: rid.toList) := by
  simp [legacyRequestKey, String.toList_append]

lemma toList_timeComponent : (timeComponent ms).toList = zeroPadded 20 ms := by
  exact String.toList_ofList

lemma toList_indexKey : (requestCleanupIndexKey ms tk rid).toList =
    "request_cleanup_v2/".toList ++ (zeroPadded 20 ms ++ '/' :: ((encodeComponent tk).toList ++
        '/' :: (encodeComponent rid).toList)) := by
  unfold requestCleanupIndexKey
  simp [String.toList_append, toList_timeComponent]

lemma toList_indexCutoff : (requestCleanupIndexCutoff ms).toList =
    "request_cleanup_v2/".toList ++ (zeroPadded 20 ms ++ ['/']) := by
  unfold requestCleanupIndexCutoff
  simp [String.toList_append, toList_timeComponent]

lemma toList_legacyIndexKey : (legacyRequestCleanupIndexKey ms tk rid).toList =
      "request_cleanup/".toList ++ (zeroPadded 20 ms ++
        '/' :: (tk.toList ++ '/' :: rid.toList)) := by
  unfold legacyRequestCleanupIndexKey
  simp [String.toList_append, toList_timeComponent]

lemma toList_legacyIndexCutoff : (legacyRequestCleanupIndexCutoff ms).toList =
    "request_cleanup/".toList ++ (zeroPadded 20 ms ++ ['/']) := by
  unfold legacyRequestCleanupIndexCutoff
  simp [String.toList_append, toList_timeComponent]

end

section

variable {n updatedAtMs updatedAtMs' old : Nat} {l l' : List Char}
  {tk rid : String}

lemma digitChar_lt_iff {m : Nat} (hm : m < 10) (hn : n < 10) :
    Nat.digitChar m < Nat.digitChar n ↔ m < n := by
  have hall : ∀ m < 10, ∀ n < 10, Nat.digitChar m < Nat.digitChar n ↔ m < n := by decide
  exact hall m hm n hn

lemma digitChar_inj {m : Nat} (hm : m < 10) (hn : n < 10) :
    Nat.digitChar m = Nat.digitChar n ↔ m = n := by
  have hall : ∀ m < 10, ∀ n < 10, Nat.digitChar m = Nat.digitChar n ↔ m = n := by decide
  exact hall m hm n hn

lemma zeroPadded_append_lt {width m : Nat} (hm : m < 10 ^ width) (hn : n < 10 ^ width) :
    zeroPadded width m ++ l < zeroPadded width n ++ l' ↔ m < n ∨ m = n ∧ l < l' := by
  induction width generalizing m n l l' with
  | zero =>
    obtain rfl : m = 0 := by omega
    obtain rfl : n = 0 := by omega
    simp [zeroPadded]
  | succ width ih =>
    have hm' : m / 10 < 10 ^ width := by omega
    have hn' : n / 10 < 10 ^ width := by omega
    have hmod : ∀ k : Nat, k % 10 < 10 := fun k => Nat.mod_lt k (by decide)
    rw [zeroPadded, zeroPadded, append_assoc, append_assoc, ih hm' hn',
      singleton_append, singleton_append, cons_lt_cons_iff,
      digitChar_lt_iff (hmod m) (hmod n), digitChar_inj (hmod m) (hmod n)]
    by_cases hl : l < l' <;> simp only [hl, and_true, and_false, or_false] <;> omega

lemma slash_notMem_zeroPadded (width n : Nat) : '/' ∉ zeroPadded width n := by
  induction width generalizing n with
  | zero => exact not_mem_nil
  | succ width ih =>
    have hdigits : ∀ k < 10, '/' ≠ Nat.digitChar k := by decide
    rw [zeroPadded, mem_append, mem_singleton]
    exact not_or.mpr ⟨ih _, hdigits _ (Nat.mod_lt n (by decide))⟩

lemma append_lt_append_iff {m m' : List Char} : l ++ m < l ++ m' ↔ m < m' := by
  induction l with
  | nil => exact Iff.rfl
  | cons c l ih => simpa using ih

lemma indexKey_lt_iff (hupdated : updatedAtMs < 2 ^ 64) (hupdated' : updatedAtMs' < 2 ^ 64) :
    "request_cleanup_v2/".toList ++ (zeroPadded 20 updatedAtMs ++ l) <
        "request_cleanup_v2/".toList ++ (zeroPadded 20 updatedAtMs' ++ l') ↔
      updatedAtMs < updatedAtMs' ∨ updatedAtMs = updatedAtMs' ∧ l < l' := by
  have hwidth : (2 : Nat) ^ 64 < 10 ^ 20 := by decide
  rw [append_lt_append_iff, zeroPadded_append_lt (hupdated.trans hwidth) (hupdated'.trans hwidth)]

lemma indexKey_lt_cutoff (hupdated : updatedAtMs < 2 ^ 64) (holder : old < 2 ^ 64) :
    requestCleanupIndexKey updatedAtMs tk rid < requestCleanupIndexCutoff old ↔
      updatedAtMs < old := by
  rw [String.lt_iff_toList_lt, toList_indexKey, toList_indexCutoff, indexKey_lt_iff hupdated holder]
  -- a slash and more is not before the slash alone
  simp

lemma updatedAtMs_le_of_indexKey_le {tk' rid' : String}
    (hupdated : updatedAtMs < 2 ^ 64) (hupdated' : updatedAtMs' < 2 ^ 64)
    (h : requestCleanupIndexKey updatedAtMs tk rid ≤ requestCleanupIndexKey updatedAtMs' tk' rid') :
    updatedAtMs ≤ updatedAtMs' := by
  by_contra hlt
  refine absurd h (not_le.mpr ?_)
  rw [String.lt_iff_toList_lt, toList_indexKey, toList_indexKey, indexKey_lt_iff hupdated' hupdated]
  exact .inl (not_le.mp hlt)

lemma ne_indexKey_of_lt_legacyCutoff {key : String}
    (h : key < legacyRequestCleanupIndexCutoff old) (updatedAtMs : Nat)
    (tk rid : String) :
    key ≠ requestCleanupIndexKey updatedAtMs tk rid := by
  rintro rfl
  rw [String.lt_iff_toList_lt, toList_indexKey, toList_legacyIndexCutoff] at h
  simp [cons_lt_cons_iff] at h

end

section

lemma hexDigit_inj {m n : Nat} (hm : m < 16) (hn : n < 16) (h : hexDigit m = hexDigit n) :
    m = n := by
  have hall : ∀ m < 16, ∀ n < 16, hexDigit m = hexDigit n → m = n := by decide
  exact hall m hm n hn h

lemma encodeComponent_injective : Function.Injective encodeComponent := by
  intro left right h
  have hbytes : ∀ l l' : List UInt8,
      (l.flatMap fun byte => [hexDigit (byte.toNat / 16), hexDigit (byte.toNat % 16)]) =
        (l'.flatMap fun byte => [hexDigit (byte.toNat / 16), hexDigit (byte.toNat % 16)]) →
      l = l' := by
    intro l
    induction l with
    | nil =>
      intro l' hl
      cases l' with
      | nil => rfl
      | cons byte rest => simp at hl
    | cons byte rest ih =>
      intro l' hl
      cases l' with
      | nil => simp at hl
      | cons byte' rest' =>
        simp only [flatMap_cons, cons_append, nil_append, cons.injEq] at hl
        obtain ⟨hhigh, hlow, hrest⟩ := hl
        have hlt := byte.toNat_lt
        have hlt' := byte'.toNat_lt
        have hdiv := hexDigit_inj (by omega) (by omega) hhigh
        have hmod := hexDigit_inj (by omega) (by omega) hlow
        have hbyte : byte = byte' := UInt8.toNat_inj.mp (by omega)
        rw [hbyte, ih rest' hrest]
  have hlist := hbytes _ _ (String.ofList_injective h)
  exact String.toByteArray_inj.mp (ByteArray.ext (Array.toList_inj.mp hlist))

variable {tk rid tk' rid' : String}

lemma components_inj {l l' : List Char} {last last' : String} (hl : '/' ∉ l) (hl' : '/' ∉ l')
    (h : l ++ '/' :: last.toList = l' ++ '/' :: last'.toList) : l = l' ∧ last = last' := by
  obtain ⟨hfirst, hlast⟩ := append_cons_inj hl hl' h
  exact ⟨hfirst, String.toList_inj.mp hlast⟩

lemma requestKey_inj (h : requestKey tk rid = requestKey tk' rid') : tk = tk' ∧ rid = rid' := by
  have hchars := congrArg String.toList h
  rw [toList_requestKey, toList_requestKey] at hchars
  obtain ⟨hfirst, hlast⟩ := components_inj (slash_notMem_encodeComponent _)
    (slash_notMem_encodeComponent _) (append_cancel_left hchars)
  exact ⟨encodeComponent_injective (String.toList_inj.mp hfirst), encodeComponent_injective hlast⟩

lemma indexKey_inj {updatedAtMs updatedAtMs' : Nat} (h : requestCleanupIndexKey updatedAtMs tk rid =
      requestCleanupIndexKey updatedAtMs' tk' rid') :
    tk = tk' ∧ rid = rid' := by
  have hchars := congrArg String.toList h
  rw [toList_indexKey, toList_indexKey] at hchars
  obtain ⟨-, hrest⟩ := append_cons_inj (slash_notMem_zeroPadded _ _)
    (slash_notMem_zeroPadded _ _) (append_cancel_left hchars)
  obtain ⟨hfirst, hlast⟩ := components_inj (slash_notMem_encodeComponent _)
    (slash_notMem_encodeComponent _) hrest
  exact ⟨encodeComponent_injective (String.toList_inj.mp hfirst), encodeComponent_injective hlast⟩

end

def Foreign (key : String) : Prop :=
  (∀ timelineKey clientRequestId, key ≠ requestKey timelineKey clientRequestId) ∧
    ∀ updatedAtMs timelineKey clientRequestId,
      key ≠ requestCleanupIndexKey updatedAtMs timelineKey clientRequestId

lemma requestKey_ne_indexKey (tk rid : String) (updatedAtMs : Nat) (tk' rid' : String) :
    requestKey tk rid ≠ requestCleanupIndexKey updatedAtMs tk' rid' := by
  intro h
  have hchars := congrArg String.toList h
  simp [toList_requestKey, toList_indexKey] at hchars

lemma foreign_legacyRequestKey (tk rid : String) : Foreign (legacyRequestKey tk rid) := by
  refine ⟨fun _ _ h => ?_, fun _ _ _ h => ?_⟩
  · have hchars := congrArg String.toList h
    simp [toList_requestKey, toList_legacyRequestKey] at hchars
  · have hchars := congrArg String.toList h
    simp [toList_indexKey, toList_legacyRequestKey] at hchars

lemma foreign_legacyIndexKey (updatedAtMs : Nat) (tk rid : String) :
    Foreign (legacyRequestCleanupIndexKey updatedAtMs tk rid) := by
  refine ⟨fun _ _ h => ?_, fun _ _ _ h => ?_⟩
  · have hchars := congrArg String.toList h
    simp [toList_requestKey, toList_legacyIndexKey] at hchars
  · have hchars := congrArg String.toList h
    simp [toList_indexKey, toList_legacyIndexKey] at hchars

end Chronos.Pruning
