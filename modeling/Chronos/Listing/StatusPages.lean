import Chronos.KeyValue.Ordered
import Chronos.Metadata.Keys
import Chronos.Paging.Collect
import Chronos.Service.Config

/-! Listing timelines by lifecycle state, page by page: the implementation on etcd, which reads the
status indexes, and the default one of the trait, which filters a scan. -/

namespace Chronos

open Paging

abbrev TimelineRecordListPage := Page TimelineRecord String

structure StatusStore where
  routes : List TimelineRecord
  byState : TimelineLifecycleState → List TimelineRecord
  byOwner : String → List TimelineRecord

def rangeFrom (entries : List TimelineRecord) (startKey : String) : List TimelineRecord :=
  entries.filter fun record => startKey ≤ record.key

def i64Max : Nat := 2 ^ 63 - 1

def fetchLimit (limit : Nat) (startAfter : Option String) : Nat :=
  min (U64.saturatingAdd (U64.saturatingAdd limit 1) startAfter.isSome.toNat) i64Max

def isStartKey (startAfter : Option String) (startKey : String) (record : TimelineRecord) : Bool :=
  startAfter.isSome && record.key = startKey

/-- `limit + 1` of a `usize` in a release build; a debug build panics where it wraps. -/
def usizeSucc (limit : Nat) : Nat := (limit + 1) % U64.size

/-- The limits with which `limit + 1` does not wrap and `Vec::with_capacity(limit + 1)`, which
panics beyond `isize::MAX` bytes, returns: a record has less than 256 bytes. -/
def PageLimit (limit : Nat) : Prop := 0 < limit ∧ limit < 2 ^ 55

lemma PageLimit.lt_usizeSucc {limit : Nat} (h : PageLimit limit) : limit < usizeSucc limit := by
  have hbound := h.2
  rw [usizeSucc, U64.size]
  omega

def emptyPage : TimelineRecordListPage := ⟨[], none⟩

def listTimelinesPage (store : StatusStore) (startAfter : Option String) (limit : Nat) :
    TimelineRecordListPage :=
  if limit = 0 then emptyPage
  else
    let startKey := startAfter.getD ""
    let response := (rangeFrom store.routes startKey).take (fetchLimit limit startAfter)
    let records := response.filter fun record => !isStartKey startAfter startKey record
    cut TimelineRecord.key limit (records.insertionSort fun left right => left.key ≤ right.key)

def pushRecords (skip wanted : TimelineRecord → Bool) (limit : Nat) :
    List TimelineRecord → List TimelineRecord → List TimelineRecord
  | records, [] => records
  | records, record :: rest =>
    if skip record then pushRecords skip wanted limit records rest
    else if wanted record then
      if (records ++ [record]).length > limit then records ++ [record]
      else pushRecords skip wanted limit (records ++ [record]) rest
    else pushRecords skip wanted limit records rest

def scanStatusIndex (entries : List TimelineRecord) (states : List TimelineLifecycleState)
    (startAfter : Option String) (limit : Nat) :
    Nat → String → List TimelineRecord → Option (List TimelineRecord)
  | 0, _, _ => none
  | fuel + 1, startKey, records =>
    if records.length ≤ limit then
      let response := (rangeFrom entries startKey).take (fetchLimit limit startAfter)
      match response.getLast? with
      | none => some records
      | some last =>
        let records := pushRecords (isStartKey startAfter startKey)
          (fun record => states.isEmpty || record.state ∈ states) limit records response
        if records.length > limit then some records
        else scanStatusIndex entries states startAfter limit fuel
          (nextEtcdKeyAfter last.key) records
    else some records

/-- Every round takes at least one entry off the prefix, so there are no more rounds than entries,
and one that finds nothing. -/
def listTimelinesFromStatusIndexPrefix (entries : List TimelineRecord)
    (states : List TimelineLifecycleState) (startAfter : Option String) (limit : Nat) :
    Option TimelineRecordListPage :=
  if limit = 0 then some emptyPage
  else (scanStatusIndex entries states startAfter limit (entries.length + 1) (startAfter.getD "")
    []).map (cut TimelineRecord.key limit)

def insertByKey (record : TimelineRecord) (merged : List TimelineRecord) : List TimelineRecord :=
  KeyValue.insertOrdered TimelineRecord.key record merged

def mergePages (store : StatusStore) (startAfter : Option String) (limit : Nat) :
    List TimelineLifecycleState → List TimelineRecord → Option (List TimelineRecord)
  | [], merged => some merged
  | state :: rest, merged => do
    let page ← listTimelinesFromStatusIndexPrefix (store.byState state) [] startAfter limit
    mergePages store startAfter limit rest
      (page.records.foldl (fun merged record => insertByKey record merged) merged)

def listTimelinesByStatusFilterPage (store : StatusStore) (states : List TimelineLifecycleState)
    (ownerWorkerEndpoint : Option String) (startAfter : Option String) (limit : Nat) :
    Option TimelineRecordListPage :=
  match ownerWorkerEndpoint with
  | some owner => listTimelinesFromStatusIndexPrefix
      (store.byOwner (normalizeEndpointComponent owner)) states startAfter limit
  | none =>
    match states with
    | [] => some (listTimelinesPage store startAfter limit)
    | [state] => listTimelinesFromStatusIndexPrefix (store.byState state) [] startAfter limit
    | _ =>
      if limit = 0 then some emptyPage
      else (mergePages store startAfter limit states []).map fun merged =>
        cut TimelineRecord.key limit (merged.take (usizeSucc limit))

/-- `parse` stands for `str::parse::<SocketAddr>`. -/
def timelineMatchesStatusFilter (parse : List Char → Option Nat)
    (states : List TimelineLifecycleState) (ownerWorkerEndpoint : Option String)
    (record : TimelineRecord) : Bool :=
  (states.isEmpty || record.state ∈ states) &&
    (ownerWorkerEndpoint.map fun endpoint =>
      endpointsMatch parse record.route.ownerWorkerEndpoint endpoint).getD true

def scanTimelines (store : StatusStore) (wanted : TimelineRecord → Bool) (limit : Nat) :
    Nat → Option String → List TimelineRecord → Option (List TimelineRecord)
  | 0, _, _ => none
  | fuel + 1, scanCursor, matched =>
    if matched.length ≤ limit then
      let page := listTimelinesPage store scanCursor limit
      if page.records.isEmpty then some matched
      else
        let matched := pushRecords (fun _ => false) wanted limit matched page.records
        match page.next with
        | none => some matched
        | some cursor => scanTimelines store wanted limit fuel (some cursor) matched
    else some matched

def defaultListTimelinesByStatusFilterPage (parse : List Char → Option Nat) (store : StatusStore)
    (states : List TimelineLifecycleState) (ownerWorkerEndpoint : Option String)
    (startAfter : Option String) (limit : Nat) : Option TimelineRecordListPage :=
  if states.isEmpty && ownerWorkerEndpoint.isNone then
    some (listTimelinesPage store startAfter limit)
  else if limit = 0 then some emptyPage
  else (scanTimelines store (timelineMatchesStatusFilter parse states ownerWorkerEndpoint) limit
    (store.routes.length + 1) startAfter []).map (cut TimelineRecord.key limit)

def scanPages (page : Option String → Except TsoError TimelineRecordListPage)
    (wanted : TimelineRecord → Bool) (limit : Nat) :
    Nat → Option String → List TimelineRecord → Option (Except TsoError (List TimelineRecord))
  | 0, _, _ => none
  | fuel + 1, scanCursor, matched =>
    if matched.length ≤ limit then
      match page scanCursor with
      | .error e => some (.error e)
      | .ok fetched =>
        if fetched.records.isEmpty then some (.ok matched)
        else
          let matched := pushRecords (fun _ => false) wanted limit matched fetched.records
          match fetched.next with
          | none => some (.ok matched)
          | some cursor => scanPages page wanted limit fuel (some cursor) matched
    else some (.ok matched)

end Chronos
