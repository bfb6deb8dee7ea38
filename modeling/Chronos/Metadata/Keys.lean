import Chronos.Metadata.Records
import Chronos.Service.Validation
import Mathlib.Data.String.Basic

/-! Keys of the timeline records and of the status indexes. A key is written without the namespace
that all keys share and without the prefix of its kind. -/

namespace Chronos

open List

def TimelineRecord.key (record : TimelineRecord) : String := record.route.timelineKey

def nextEtcdKeyAfter (key : String) : String := key.push (Char.ofNat 0)

def normalizeEndpointComponent (value : String) : String :=
  String.ofList ((trim value).map Char.toLower)

def hexDigit (n : Nat) : Char := "0123456789abcdef".toList.getD n '0'

def encodeComponent (value : String) : String :=
  String.ofList (value.toUTF8.data.toList.flatMap fun byte =>
    [hexDigit (byte.toNat / 16), hexDigit (byte.toNat % 16)])

def stateName : TimelineLifecycleState → String
  | .creating => "creating"
  | .active => "active"
  | .draining => "draining"
  | .locked => "locked"
  | .recovering => "recovering"

def timelineStatusOwnerIndexKey (ownerWorkerEndpoint timelineKey : String) : String :=
  "by_owner/" ++ encodeComponent (normalizeEndpointComponent ownerWorkerEndpoint) ++ "/" ++
    timelineKey

def timelineStatusStateIndexKey (state timelineKey : String) : String :=
  "by_state/" ++ state ++ "/" ++ timelineKey

def timelineStatusOwnerIndexPrefix (ownerWorkerEndpoint : String) : String :=
  "by_owner/" ++ encodeComponent (normalizeEndpointComponent ownerWorkerEndpoint) ++ "/"

def timelineStatusStateIndexPrefix (state : String) : String := "by_state/" ++ state ++ "/"

def timelineStatusIndexMarkerKey : String := "__ready"

def timelineStatusIndexKeys (record : TimelineRecord) : List String :=
  [timelineStatusOwnerIndexKey record.route.ownerWorkerEndpoint record.route.timelineKey,
    timelineStatusStateIndexKey (stateName record.state) record.route.timelineKey]

lemma empty_le (key : String) : "" ≤ key := by exact not_lt.mp (not_lt_nil key.toList)

lemma lt_nextEtcdKeyAfter (key : String) : key < nextEtcdKeyAfter key := by
  rw [String.lt_iff_toList_lt, nextEtcdKeyAfter, String.toList_push]
  generalize key.toList = chars
  induction chars with
  | nil => exact nil_lt_cons _ _
  | cons head tail ih => exact cons_lt_cons_self.mpr ih

lemma le_of_lt_append_zero {chars other : List Char}
    (h : other < chars ++ [Char.ofNat 0]) : other ≤ chars := by
  induction chars generalizing other with
  | nil =>
    cases other with
    | nil => exact le_rfl
    | cons head tail =>
      -- no character is before the null character, and no list is before the empty one
      rcases List.cons_lt_cons_iff.mp h with hlt | ⟨-, hlt⟩
      · exact absurd hlt (Nat.not_lt_zero _)
      · exact absurd hlt (List.not_lt_nil tail)
  | cons first rest ih =>
    cases other with
    | nil => exact not_lt.mp (List.not_lt_nil _)
    | cons head tail =>
      rcases List.cons_lt_cons_iff.mp h with hlt | ⟨rfl, hlt⟩
      · exact (List.cons_lt_cons_iff.mpr (.inl hlt)).le
      · refine not_lt.mp fun hgt => ?_
        exact not_lt.mpr (ih hlt) (List.cons_lt_cons_self.mp hgt)

lemma le_of_lt_nextEtcdKeyAfter {key other : String} (h : other < nextEtcdKeyAfter key) :
    other ≤ key := by
  rw [String.lt_iff_toList_lt, nextEtcdKeyAfter, String.toList_push] at h
  rw [String.le_iff_toList_le]
  exact le_of_lt_append_zero h

lemma append_cons_inj {l l' m m' : List Char} {c : Char} (hl : c ∉ l) (hl' : c ∉ l')
    (h : l ++ c :: m = l' ++ c :: m') : l = l' ∧ m = m' := by
  induction l generalizing l' with
  | nil =>
    cases l' with
    | nil => exact ⟨rfl, by simpa using h⟩
    | cons first rest =>
      obtain ⟨rfl, -⟩ := cons.inj h
      exact absurd mem_cons_self hl'
  | cons first rest ih =>
    cases l' with
    | nil =>
      obtain ⟨rfl, -⟩ := cons.inj h
      exact absurd mem_cons_self hl
    | cons first' rest' =>
      obtain ⟨rfl, hrest⟩ := cons.inj h
      obtain ⟨rfl, hm⟩ := ih (fun hc => hl (mem_cons_of_mem _ hc))
        (fun hc => hl' (mem_cons_of_mem _ hc)) hrest
      exact ⟨rfl, hm⟩

lemma hexDigit_ne_slash (n : Nat) : hexDigit n ≠ '/' := by
  by_cases hn : n < 16
  · have hall : ∀ m, m < 16 → hexDigit m ≠ '/' := by decide
    exact hall n hn
  have hdigit : hexDigit n = '0' := by
    rw [hexDigit, getD_eq_getElem?_getD, getElem?_eq_none (by simpa using hn)]
    rfl
  rw [hdigit]
  decide

lemma slash_notMem_encodeComponent (value : String) : '/' ∉ (encodeComponent value).toList := by
  intro h
  rw [encodeComponent, String.toList_ofList, mem_flatMap] at h
  obtain ⟨byte, -, hdigit⟩ := h
  rcases mem_cons.mp hdigit with heq | hdigit
  · exact hexDigit_ne_slash _ heq.symm
  · exact hexDigit_ne_slash _ (mem_singleton.mp hdigit).symm

lemma slash_notMem_stateName (state : TimelineLifecycleState) :
    '/' ∉ (stateName state).toList := by
  cases state <;> decide

lemma timelineKey_of_append_eq {kind left right leftKey rightKey : String}
    (hleft : '/' ∉ left.toList) (hright : '/' ∉ right.toList)
    (h : kind ++ left ++ "/" ++ leftKey = kind ++ right ++ "/" ++ rightKey) :
    leftKey = rightKey := by
  have hchars : kind.toList ++ (left.toList ++ '/' :: leftKey.toList) =
      kind.toList ++ (right.toList ++ '/' :: rightKey.toList) := by
    have htoList := congrArg String.toList h
    simpa [String.toList_append] using htoList
  have hrest := append_cancel_left hchars
  exact String.toList_inj.mp (append_cons_inj hleft hright hrest).2

lemma ownerIndexKey_ne_stateIndexKey (own leftKey state rightKey : String) :
    timelineStatusOwnerIndexKey own leftKey ≠ timelineStatusStateIndexKey state rightKey := by
  intro h
  have hchar := congrArg (fun key => key.toList[3]?) h
  simp [timelineStatusOwnerIndexKey, timelineStatusStateIndexKey, String.toList_append] at hchar

lemma key_eq_of_mem_indexKeys {left right : TimelineRecord} {key : String}
    (hleft : key ∈ timelineStatusIndexKeys left) (hright : key ∈ timelineStatusIndexKeys right) :
    left.key = right.key := by
  simp only [timelineStatusIndexKeys, mem_cons, not_mem_nil, or_false] at hleft hright
  rcases hleft with rfl | rfl
  · rcases hright with heq | heq
    · exact timelineKey_of_append_eq (slash_notMem_encodeComponent _)
        (slash_notMem_encodeComponent _) heq
    · exact absurd heq (ownerIndexKey_ne_stateIndexKey _ _ _ _)
  · rcases hright with heq | heq
    · exact absurd heq.symm (ownerIndexKey_ne_stateIndexKey _ _ _ _)
    · exact timelineKey_of_append_eq (slash_notMem_stateName _) (slash_notMem_stateName _) heq

lemma marker_notMem_indexKeys (record : TimelineRecord) :
    timelineStatusIndexMarkerKey ∉ timelineStatusIndexKeys record := by
  intro h
  simp only [timelineStatusIndexKeys, mem_cons, not_mem_nil, or_false] at h
  rcases h with heq | heq
  all_goals
    have hchar := congrArg (fun key => key.toList[0]?) heq
    simp [timelineStatusIndexMarkerKey, timelineStatusOwnerIndexKey, timelineStatusStateIndexKey,
      String.toList_append] at hchar

end Chronos
