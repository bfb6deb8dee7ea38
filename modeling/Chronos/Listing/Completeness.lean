import Chronos.Listing.Specs
import Chronos.Paging.Classes

/-! Which status listings on etcd are complete. The page of several states is put together from one
index page per state, and it names a next page only if the index pages hold more than `limit`
records together. -/

namespace Chronos

open Paging List Option

/-- The status indexes agree with the records. etcd counts the keys of a range in an `i64`. -/
structure Coherent (store : StatusStore) : Prop where
  sorted : Sorted store.routes
  count : store.routes.length ≤ i64Max
  byState : ∀ state, store.byState state = store.routes.filter fun record => record.state = state

def listed (store : StatusStore) (states : List TimelineLifecycleState) : List TimelineRecord :=
  store.routes.filter fun record => states.isEmpty || record.state ∈ states

variable {store : StatusStore} {states : List TimelineLifecycleState} {limit : Nat}
  {startAfter : Option String} {routes merged : List TimelineRecord}

lemma mem_insertByKey (hroutes : Sorted routes) {record : TimelineRecord}
    (hrecord : record ∈ routes) (hmerged : merged ⊆ routes) (hsorted : Sorted merged)
    (other : TimelineRecord) :
    other ∈ insertByKey record merged ↔ other = record ∨ other ∈ merged := by
  rw [insertByKey, KeyValue.mem_insertOrdered hsorted]
  constructor
  · exact Or.imp_right And.left
  rintro (heq | hother)
  · exact .inl heq
  by_cases hkey : other.key = record.key
  · exact .inl (hroutes.eq_of_key_eq (hmerged hother) hrecord hkey)
  · exact .inr ⟨hother, hkey⟩

lemma foldl_insertByKey (hroutes : Sorted routes) {page : List TimelineRecord}
    (hpage : page ⊆ routes) (hmerged : merged ⊆ routes) (hsorted : Sorted merged) :
    Sorted (page.foldl (fun merged record => insertByKey record merged) merged) ∧
      ∀ record, record ∈ page.foldl (fun merged record => insertByKey record merged) merged ↔
        record ∈ merged ∨ record ∈ page := by
  induction page generalizing merged with
  | nil => exact ⟨hsorted, by simp⟩
  | cons first rest ih =>
    have hfirst : first ∈ routes := hpage mem_cons_self
    have hmem := mem_insertByKey hroutes hfirst hmerged hsorted
    have hsub : insertByKey first merged ⊆ routes := by
      intro x hx
      rcases (hmem x).mp hx with rfl | hx
      · exact hfirst
      · exact hmerged hx
    obtain ⟨hsorted', hmem'⟩ := ih (fun x hx => hpage (mem_cons_of_mem first hx)) hsub
      hsorted.insert
    refine ⟨hsorted', fun record => ?_⟩
    rw [foldl_cons, hmem', hmem, mem_cons]
    tauto

lemma Coherent.indexPage (h : Coherent store) (state : TimelineLifecycleState)
    (hlimit : 0 < limit) :
    listTimelinesFromStatusIndexPrefix (store.byState state) [] startAfter limit =
      some (cut TimelineRecord.key limit
        ((after TimelineRecord.key store.routes startAfter).filter fun r => r.state = state)) := by
  rw [h.byState, listTimelinesFromStatusIndexPrefix_eq (h.sorted.filter _)
    ((length_filter_le _ _).trans h.count) hlimit, after_filter]

lemma after_subset : after TimelineRecord.key routes startAfter ⊆ routes := by
  cases startAfter with
  | none => exact List.Subset.refl _
  | some start => exact filter_sublist.subset

lemma Coherent.mergePages_eq (h : Coherent store) (hlimit : 0 < limit)
    (startAfter : Option String) (states : List TimelineLifecycleState)
    (hmerged : merged ⊆ store.routes) (hsorted : Sorted merged) :
    ∃ out, mergePages store startAfter limit states merged = some out ∧ Sorted out ∧
      ∀ record, record ∈ out ↔ record ∈ merged ∨ ∃ state ∈ states, record ∈
        ((after TimelineRecord.key store.routes startAfter).filter
          fun r => r.state = state).take limit := by
  induction states generalizing merged with
  | nil => exact ⟨merged, rfl, hsorted, by simp⟩
  | cons state rest ih =>
    rw [mergePages, h.indexPage state hlimit]
    dsimp only [cut, bind_eq_bind, bind_some]
    generalize hp : ((after TimelineRecord.key store.routes startAfter).filter
      fun r => r.state = state).take limit = page
    have hpage : page ⊆ store.routes := by
      intro x hx
      rw [← hp] at hx
      exact after_subset (mem_filter.mp (mem_of_mem_take hx)).1
    obtain ⟨hfold, hmem⟩ := foldl_insertByKey h.sorted hpage hmerged hsorted
    have hsub : page.foldl (fun merged record => insertByKey record merged) merged ⊆
        store.routes := by
      intro x hx
      rcases (hmem x).mp hx with hx | hx
      · exact hmerged hx
      · exact hpage hx
    obtain ⟨out, hout, hsorted', hmem'⟩ := ih hsub hfold
    refine ⟨out, hout, hsorted', fun record => ?_⟩
    rw [hmem', hmem, exists_mem_cons_iff, hp]
    tauto

lemma Coherent.merged_eq (h : Coherent store) (hlimit : 0 < limit) (hstates : states ≠ [])
    (startAfter : Option String) :
    mergePages store startAfter limit states [] = some
      ((after TimelineRecord.key (listed store states) startAfter).filter
        (Early TimelineRecord.state limit
          (after TimelineRecord.key (listed store states) startAfter))) := by
  obtain ⟨out, hout, hsorted, hmem⟩ := h.mergePages_eq hlimit startAfter states
    (List.nil_subset _) List.Pairwise.nil
  have hr : after TimelineRecord.key (listed store states) startAfter =
      (after TimelineRecord.key store.routes startAfter).filter fun r => r.state ∈ states := by
    have hnonempty : states.isEmpty = false := by simpa using hstates
    simp only [listed, hnonempty, Bool.false_or, after_filter]
  -- for a state of the list, the two ways of filtering agree
  have hclass : ∀ state ∈ states, (after TimelineRecord.key (listed store states) startAfter).filter
          (fun r => r.state = state) =
        (after TimelineRecord.key store.routes startAfter).filter fun r => r.state = state := by
    intro state hst
    rw [hr, List.filter_filter]
    refine List.filter_congr fun record _ => ?_
    by_cases heq : record.state = state
    · simp [heq, hst]
    · simp [heq]
  rw [hout]
  refine congrArg some (hsorted.eq_of_mem_iff ((after_sorted (h.sorted.filter _)).filter _) ?_)
  intro record
  rw [hmem, List.mem_filter, decide_eq_true_eq]
  constructor
  · rintro (hnil | ⟨state, hst, hrecord⟩)
    · cases hnil
    obtain ⟨-, heq⟩ := List.mem_filter.mp (List.mem_of_mem_take hrecord)
    obtain rfl := of_decide_eq_true heq
    rw [← hclass record.state hst] at hrecord
    exact ⟨(List.mem_filter.mp (List.mem_of_mem_take hrecord)).1, hrecord⟩
  · rintro ⟨hrecord, hearly⟩
    have hst : record.state ∈ states := by
      rw [hr] at hrecord
      exact of_decide_eq_true (List.mem_filter.mp hrecord).2
    rw [Early, hclass record.state hst] at hearly
    exact .inr ⟨record.state, hst, hearly⟩

def MixedRemainder (limit : Nat) (remainder : List TimelineRecord) : Prop :=
  limit < remainder.length ∧
    ∃ left ∈ remainder, ∃ right ∈ remainder, left.state ≠ right.state

lemma Coherent.cuts (h : Coherent store) (hpage : PageLimit limit) (hstates : 1 < states.length) :
    Cuts TimelineRecord.key (listed store states) limit (MixedRemainder limit)
      (listTimelinesByStatusFilterPage store states none · limit) := by
  have hlimit := hpage.1
  have hpages : ∀ start, listTimelinesByStatusFilterPage store states none start limit =
      some (cut TimelineRecord.key limit
        ((after TimelineRecord.key (listed store states) start).filter
          (Early TimelineRecord.state limit
            (after TimelineRecord.key (listed store states) start)))) := by
    intro start
    have hmerged := h.merged_eq hlimit (ne_nil_of_length_pos (Nat.zero_lt_of_lt hstates)) start
    match states with
    | [] | [_] => simp at hstates
    | _ :: _ :: _ =>
      simp only [listTimelinesByStatusFilterPage, if_neg hlimit.ne', hmerged, map_some,
        cut_take hpage.lt_usizeSucc]
  have hnodup : ∀ start, (after TimelineRecord.key (listed store states) start).Nodup :=
    fun start =>
    (after_sorted (h.sorted.filter _)).imp fun hlt heq => hlt.ne (congrArg TimelineRecord.key heq)
  refine ⟨fun r hmore => hmore.1, fun start hmore => ?_, fun start hlast => ?_⟩
  · rw [hpages]
    generalize hr : after TimelineRecord.key (listed store states) start = r at hmore ⊢
    have hlong := (length_filter_early hlimit (hr ▸ hnodup start)).mpr hmore
    have htake : (r.filter (Early TimelineRecord.state limit r)).take limit = r.take limit :=
      take_filter_early
    have hget : (r.filter (Early TimelineRecord.state limit r))[limit - 1]? = r[limit - 1]? := by
      rw [← getElem?_take_of_lt (by omega : limit - 1 < limit), htake,
        getElem?_take_of_lt (by omega)]
    rw [cut, cut, htake, if_pos hlong, if_pos hmore.1, hget]
  · rw [hpages]
    generalize hr : after TimelineRecord.key (listed store states) start = r at hlast ⊢
    have hshort := mt (length_filter_early hlimit (hr ▸ hnodup start)).mp hlast
    rw [cut, if_neg hshort, take_filter_early]

lemma Coherent.page_eq (h : Coherent store) (hlimit : 0 < limit) (hstates : states.length ≤ 1)
    (start : Option String) :
    listTimelinesByStatusFilterPage store states none start limit = some
      (cut TimelineRecord.key limit
        (after TimelineRecord.key (listed store states) start)) := by
  match states with
  | [] => simp [listTimelinesByStatusFilterPage, listTimelinesPage_eq h.sorted h.count hlimit,
      listed]
  | [state] =>
    simp only [listTimelinesByStatusFilterPage, h.indexPage state hlimit, listed, after_filter]
    simp
  | _ :: _ :: _ => simp at hstates

/-- Following the pages of a status listing on etcd. It always ends, and it lists what the default
implementation lists, exactly if at most one state is asked for or no full page is followed by
records of a single state only. -/
theorem status_listing_complete_iff (store : StatusStore) (h : Coherent store)
    (parse : List Char → Option Nat) (states : List TimelineLifecycleState) (limit : Nat)
    (hpage : PageLimit limit) (fuel : Nat) (hfuel : store.routes.length < fuel) :
    Sorted (listed store states) ∧
    collect (defaultListTimelinesByStatusFilterPage parse store states none · limit) fuel none =
      some (listed store states) ∧
    ∃ out, collect (listTimelinesByStatusFilterPage store states none · limit) fuel none =
        some out ∧
      (out = listed store states ↔ states.length ≤ 1 ∨
        ∀ j, (j + 1) * limit < (listed store states).length →
          ∃ left ∈ (listed store states).drop (j * limit),
            ∃ right ∈ (listed store states).drop (j * limit), left.state ≠ right.state) := by
  have hlimit := hpage.1
  have hsorted : Sorted (listed store states) := h.sorted.filter _
  have hlen : (listed store states).length < fuel := (length_filter_le _ _).trans_lt hfuel
  refine ⟨hsorted, ?_, ?_⟩
  · have hwanted : store.routes.filter (timelineMatchesStatusFilter parse states none) =
        listed store states := filter_congr fun record _ => Bool.and_true _
    refine collect_eq (fun start => ?_) hlimit hsorted hlen
    rw [← hwanted]
    exact defaultListTimelinesByStatusFilterPage_eq parse states none h.sorted h.count hlimit
  · by_cases hstates : states.length ≤ 1
    · refine ⟨listed store states, ?_, by simp [hstates]⟩
      exact collect_eq (h.page_eq hlimit hstates) hlimit hsorted hlen
    have hwhole : (after TimelineRecord.key (listed store states) none).length < fuel := hlen
    obtain ⟨out, hout, hiff⟩ := collect_eq_iff (h.cuts hpage (not_le.mp hstates)) hlimit
      hsorted hwhole
    refine ⟨out, hout, hiff.trans ?_⟩
    rw [or_iff_right hstates]
    refine forall_congr' fun j => imp_congr_right fun hj => ?_
    have hlong : limit < ((listed store states).drop (j * limit)).length := by
      rw [Nat.add_mul] at hj
      rw [length_drop]
      change _ < (listed store states).length at hj
      omega
    exact and_iff_right hlong

def sampleStatusStore (routes : List TimelineRecord) : StatusStore where
  routes := routes
  byState := fun state => routes.filter fun record => record.state = state
  byOwner := fun owner => routes.filter fun record =>
    normalizeEndpointComponent record.route.ownerWorkerEndpoint = owner

theorem status_listing_complete_sample :
    let store := sampleStatusStore [sampleTimeline "a" .active, sampleTimeline "b" .active,
      sampleTimeline "c" .draining]
    Coherent store ∧ ∃ out,
      collect (listTimelinesByStatusFilterPage store [.active, .draining] none · 2) 4 none =
        some out ∧ out = listed store [.active, .draining] := by
  intro store
  have hcoherent : Coherent store := ⟨by decide +kernel, by decide, fun _ => rfl⟩
  obtain ⟨-, -, out, hout, hiff⟩ := status_listing_complete_iff store hcoherent (fun _ => none)
    [.active, .draining] 2 ⟨Nat.two_pos, by decide⟩ 4 (by decide)
  refine ⟨hcoherent, out, hout, hiff.mpr (.inr fun j hj => ?_)⟩
  have hj0 : j = 0 := by
    have hlen : (listed store [.active, .draining]).length = 3 := by decide +kernel
    omega
  subst hj0
  exact ⟨sampleTimeline "a" .active, by decide +kernel, sampleTimeline "c" .draining,
    by decide +kernel, by decide⟩

/-- Three active timelines, listed by two states with pages of two: the index page of the active
ones is full, there are no draining ones, and the third timeline is never listed. -/
theorem status_listing_incomplete :
    let store := sampleStatusStore [sampleTimeline "a" .active, sampleTimeline "b" .active,
      sampleTimeline "c" .active]
    Coherent store ∧
      collect (listTimelinesByStatusFilterPage store [.active, .draining] none · 2) 4 none =
        some [sampleTimeline "a" .active, sampleTimeline "b" .active] ∧
      collect (defaultListTimelinesByStatusFilterPage (fun _ => none) store
        [.active, .draining] none
          · 2) 4 none =
        some [sampleTimeline "a" .active, sampleTimeline "b" .active,
          sampleTimeline "c" .active] := by
  refine ⟨⟨?_, ?_, fun _ => rfl⟩, ?_, ?_⟩
  · decide +kernel
  · decide
  · decide +kernel
  · decide +kernel

end Chronos
