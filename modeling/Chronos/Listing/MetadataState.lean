import Chronos.Listing.Completeness

/-! A state of the metadata as the workers read it: the timeline records, with their status indexes,
and the generator records. -/

namespace Chronos

open Paging Option

structure GeneratorEntry where
  generatorId : Nat
  record : GeneratorRecord
  revision : Nat
  deriving DecidableEq

/-- Every timeline key has passed the validation of the request that created it. -/
structure MetadataState where
  timelines : List TimelineRecord
  sorted : Sorted timelines
  count : timelines.length ≤ i64Max
  valid : ∀ timeline ∈ timelines, validateTimelineKey timeline.key = .ok ()
  generators : List GeneratorEntry
  unique : (generators.map GeneratorEntry.generatorId).Nodup

namespace MetadataState

variable (m : MetadataState)

def store : StatusStore where
  routes := m.timelines
  byState := fun state => m.timelines.filter fun record => record.state = state
  byOwner := fun owner => m.timelines.filter fun record =>
    normalizeEndpointComponent record.route.ownerWorkerEndpoint = owner

def loadTimeline (timelineKey : String) : Option TimelineRecord :=
  m.timelines.find? fun timeline => timeline.key = timelineKey

def loadGenerator (generatorId : Nat) : Option (GeneratorRecord × Nat) :=
  (m.generators.find? fun entry => entry.generatorId = generatorId).map fun entry =>
    (entry.record, entry.revision)

def loadGenerators (generatorIds : List Nat) : List (Nat × Option GeneratorRecord) :=
  generatorIds.map fun generatorId => (generatorId, (m.loadGenerator generatorId).map Prod.fst)

def scanGenerators : List GeneratorRecord := m.generators.map GeneratorEntry.record

lemma coherent : Coherent m.store := ⟨m.sorted, m.count, fun _ => rfl⟩

lemma loadTimeline_eq {timeline : TimelineRecord} (h : timeline ∈ m.timelines) :
    m.loadTimeline timeline.key = some timeline := by
  have hfound : (m.loadTimeline timeline.key).isSome := List.find?_isSome.mpr ⟨timeline, h, by simp⟩
  obtain ⟨found, hsome⟩ := isSome_iff_exists.mp hfound
  have hkey : found.key = timeline.key := by simpa using List.find?_some hsome
  have hmem : found ∈ m.timelines := List.mem_of_find?_eq_some hsome
  rw [hsome, m.sorted.eq_of_key_eq hmem h hkey]

end MetadataState

section

variable {entries : List TimelineRecord} {limit : Nat} {startAfter : Option String}

lemma ne_nextEtcdKeyAfter_of_valid {tk : String}
    (h : validateTimelineKey tk = .ok ()) (other : String) :
    tk ≠ nextEtcdKeyAfter other := by
  intro heq
  have hcontrol : tk.toList.any isControl = true := by
    rw [heq, nextEtcdKeyAfter, String.toList_push, List.any_append]
    simp [isControl]
  unfold validateTimelineKey at h
  split_ifs at h

lemma fetchLimit_pos (limit : Nat) (startAfter : Option String) :
    0 < fetchLimit limit startAfter := by
  unfold fetchLimit U64.saturatingAdd U64.max U64.size i64Max
  omega

lemma rangeFrom_next (hsorted : Sorted entries) {start : String} {n : Nat}
    {last : TimelineRecord} (hlast : ((rangeFrom entries start).take n).getLast? = some last) :
    rangeFrom entries (nextEtcdKeyAfter last.key) = (rangeFrom entries start).drop n := by
  have hrange : Sorted (rangeFrom entries start) := hsorted.filter _
  have hsplit : Sorted ((rangeFrom entries start).take n ++ (rangeFrom entries start).drop n) := by
    rwa [List.take_append_drop]
  obtain ⟨hfront, hback, hcross⟩ := List.pairwise_append.mp hsplit
  have hmem := List.mem_of_getLast? hlast
  have hstart : start ≤ last.key :=
    of_decide_eq_true (List.mem_filter.mp (List.mem_of_mem_take hmem)).2
  refine KeyValue.Ordered.eq_of_mem_iff (hsorted.filter _) hback fun record => ?_
  constructor
  · intro hrecord
    obtain ⟨hin, hge⟩ := List.mem_filter.mp hrecord
    have hlater : last.key < record.key :=
      (lt_nextEtcdKeyAfter last.key).trans_le (of_decide_eq_true hge)
    have hwhole : record ∈ rangeFrom entries start :=
      List.mem_filter.mpr ⟨hin, decide_eq_true (hstart.trans hlater.le)⟩
    rw [← List.take_append_drop n (rangeFrom entries start), List.mem_append] at hwhole
    refine hwhole.resolve_left fun hearly => ?_
    -- no entry of the response is behind its last one
    obtain ⟨front, heq⟩ := List.getLast?_eq_some_iff.mp hlast
    rw [heq] at hearly hfront
    rcases List.mem_append.mp hearly with hearly | hearly
    · have hbefore := (List.pairwise_append.mp hfront).2.2 record hearly last List.mem_cons_self
      exact hbefore.asymm hlater
    · rw [List.mem_singleton.mp hearly] at hlater
      exact hlater.ne rfl
  · intro hrecord
    have hlater : last.key < record.key := hcross last hmem record hrecord
    have hin := (List.mem_filter.mp (List.mem_of_mem_drop hrecord)).1
    refine List.mem_filter.mpr ⟨hin, decide_eq_true ?_⟩
    exact not_lt.mp fun hlt => (le_of_lt_nextEtcdKeyAfter hlt).not_gt hlater

def keptFrom (startAfter : Option String) (states : List TimelineLifecycleState) (startKey : String)
    (record : TimelineRecord) : Bool :=
  !isStartKey startAfter startKey record && (states.isEmpty || record.state ∈ states)

lemma scanStatusIndex_eq (hsorted : Sorted entries)
    (hvalid : ∀ record ∈ entries, validateTimelineKey record.key = .ok ())
    (states : List TimelineLifecycleState) {fuel : Nat} {startKey : String}
    {records : List TimelineRecord} (hrecords : records.length ≤ limit)
    (hfuel : (rangeFrom entries startKey).length < fuel) :
    scanStatusIndex entries states startAfter limit fuel startKey records =
      some (records ++ ((rangeFrom entries startKey).filter
        (keptFrom startAfter states startKey)).take (limit + 1 - records.length)) := by
  induction fuel generalizing startKey records with
  | zero => omega
  | succ fuel ih =>
    generalize hn : fetchLimit limit startAfter = n
    have hpos : 0 < n := hn ▸ fetchLimit_pos limit startAfter
    unfold scanStatusIndex
    rw [if_pos hrecords, hn]
    dsimp only
    cases hlast : ((rangeFrom entries startKey).take n).getLast? with
    | none =>
      have hnil : rangeFrom entries startKey = [] := by
        rcases List.take_eq_nil_iff.mp (List.getLast?_eq_none_iff.mp hlast) with hzero | hnil
        · exact absurd hzero hpos.ne'
        · exact hnil
      simp [hnil]
    | some last =>
      have hnext := rangeFrom_next hsorted hlast
      have hmem := List.mem_of_mem_take (List.mem_of_getLast? hlast)
      have hstart : startKey ≤ last.key := of_decide_eq_true (List.mem_filter.mp hmem).2
      -- behind the response, neither this round nor the next one skips an entry
      have hrest : ((rangeFrom entries startKey).drop n).filter
            (keptFrom startAfter states (nextEtcdKeyAfter last.key)) =
          ((rangeFrom entries startKey).drop n).filter (keptFrom startAfter states startKey) := by
        refine List.filter_congr fun record hrecord => ?_
        rw [← hnext] at hrecord
        obtain ⟨hin, hge⟩ := List.mem_filter.mp hrecord
        have hlater : startKey < record.key :=
          (hstart.trans_lt (lt_nextEtcdKeyAfter last.key)).trans_le (of_decide_eq_true hge)
        have hvalid' := ne_nextEtcdKeyAfter_of_valid (hvalid record hin) last.key
        simp [keptFrom, isStartKey, hlater.ne', hvalid']
      have hshorter : (rangeFrom entries (nextEtcdKeyAfter last.key)).length < fuel := by
        have hlen := List.length_pos_of_mem hmem
        rw [hnext, List.length_drop]
        omega
      have hpush : pushRecords (isStartKey startAfter startKey)
          (fun record => states.isEmpty || record.state ∈ states) limit records
            ((rangeFrom entries startKey).take n) =
          records ++ (((rangeFrom entries startKey).take n).filter
            (keptFrom startAfter states startKey)).take (limit + 1 - records.length) :=
        pushRecords_eq _ _ hrecords _
      have hsplit : (rangeFrom entries startKey).filter (keptFrom startAfter states startKey) =
          ((rangeFrom entries startKey).take n).filter (keptFrom startAfter states startKey) ++
            ((rangeFrom entries startKey).drop n).filter (keptFrom startAfter states startKey) := by
        rw [← List.filter_append, List.take_append_drop]
      dsimp only
      rw [hpush, hsplit, List.take_append]
      generalize ((rangeFrom entries startKey).take n).filter
        (keptFrom startAfter states startKey) = found
      split
      · next hfull =>
        have hdone : limit + 1 - records.length - found.length = 0 := by
          rw [List.length_append, List.length_take] at hfull
          omega
        rw [hdone, List.take_zero, List.append_nil]
      · next hopen =>
        have hall : found.take (limit + 1 - records.length) = found := by
          rw [List.length_append, List.length_take] at hopen
          exact List.take_of_length_le (by omega)
        rw [hall] at hopen ⊢
        rw [ih (not_lt.mp hopen) hshorter, hnext, hrest, List.append_assoc, List.length_append,
          Nat.sub_add_eq]

lemma listTimelinesFromStatusIndexPrefix_states_eq (hsorted : Sorted entries)
    (hvalid : ∀ record ∈ entries, validateTimelineKey record.key = .ok ())
    (states : List TimelineLifecycleState) (hlimit : 0 < limit) :
    listTimelinesFromStatusIndexPrefix entries states startAfter limit =
      some (cut TimelineRecord.key limit (after TimelineRecord.key
        (entries.filter fun record => states.isEmpty || record.state ∈ states) startAfter)) := by
  have hfuel : (rangeFrom entries (startAfter.getD "")).length < entries.length + 1 :=
    Nat.lt_succ_of_le (length_rangeFrom_le _)
  have hskipped : (rangeFrom entries (startAfter.getD "")).filter
        (keptFrom startAfter states (startAfter.getD "")) =
      (after TimelineRecord.key entries startAfter).filter fun record =>
        states.isEmpty || record.state ∈ states := by
    cases startAfter with
    | none =>
      rw [getD_none, rangeFrom_none]
      apply List.filter_congr
      intro record _
      simp [keptFrom, isStartKey]
    | some start =>
      rw [getD_some, ← filter_rangeFrom, List.filter_filter]
      exact List.filter_congr fun record _ => Bool.and_comm _ _
  unfold listTimelinesFromStatusIndexPrefix
  rw [if_neg hlimit.ne', scanStatusIndex_eq hsorted hvalid states (Nat.zero_le limit) hfuel,
    hskipped, after_filter, map_some, List.nil_append]
  exact congrArg some (cut_take (Nat.lt_succ_self limit))

end

namespace MetadataState

variable (m : MetadataState) (states : List TimelineLifecycleState)
  (ownWorkerEndpoint startAfter : Option String) {limit : Nat}

def ownedBy (owner : String) : List TimelineRecord :=
  (m.store.byOwner (normalizeEndpointComponent owner)).filter fun record =>
    states.isEmpty || record.state ∈ states

lemma mem_ownedBy {own : String} {timeline : TimelineRecord} :
    timeline ∈ m.ownedBy states own ↔ timeline ∈ m.timelines ∧
      normalizeEndpointComponent timeline.route.ownerWorkerEndpoint =
        normalizeEndpointComponent own ∧ (states = [] ∨ timeline.state ∈ states) := by
  simp only [ownedBy, store, List.mem_filter, decide_eq_true_eq, Bool.or_eq_true,
    List.isEmpty_iff, and_assoc]

lemma ownerPage_eq (own : String) (hlimit : 0 < limit) :
    listTimelinesByStatusFilterPage m.store states (some own) startAfter limit =
      some (cut TimelineRecord.key limit
        (after TimelineRecord.key (m.ownedBy states own) startAfter)) :=
  listTimelinesFromStatusIndexPrefix_states_eq (m.sorted.filter _)
    (fun record hrecord => m.valid record (List.mem_filter.mp hrecord).1) states hlimit

lemma collect_ownerPages (own : String) (hlimit : 0 < limit) {fuel : Nat}
    (hfuel : m.timelines.length < fuel) :
    collect (listTimelinesByStatusFilterPage m.store states (some own) · limit) fuel none =
      some (m.ownedBy states own) := by
  have hsorted : Sorted (m.ownedBy states own) := (m.sorted.filter _).filter _
  have hlen : (m.ownedBy states own).length ≤ m.timelines.length :=
    (List.length_filter_le _ _).trans (List.length_filter_le _ _)
  exact collect_eq (fun start => m.ownerPage_eq states start own hlimit) hlimit hsorted
    (hlen.trans_lt hfuel)

lemma page_zero : listTimelinesByStatusFilterPage m.store states ownWorkerEndpoint startAfter 0 =
    some emptyPage := by
  cases ownWorkerEndpoint with
  | some own => rfl
  | none =>
    match states with
    | [] | [_] | _ :: _ :: _ => rfl

lemma exists_page (limit : Nat) :
    ∃ page, listTimelinesByStatusFilterPage m.store states ownWorkerEndpoint startAfter limit =
      some page ∧ page.records ⊆ m.timelines := by
  have hcut : ∀ wanted, (cut TimelineRecord.key limit (after TimelineRecord.key
      (m.timelines.filter wanted) startAfter)).records ⊆ m.timelines := by
    intro wanted record hrecord
    exact (List.mem_filter.mp (after_subset (List.mem_of_mem_take hrecord))).1
  rcases Nat.eq_zero_or_pos limit with hzero | hlimit
  · subst hzero
    exact ⟨emptyPage, m.page_zero states ownWorkerEndpoint startAfter, List.nil_subset _⟩
  cases ownWorkerEndpoint with
  | some own =>
    refine ⟨_, m.ownerPage_eq states startAfter own hlimit, ?_⟩
    unfold ownedBy store
    rw [List.filter_filter]
    exact hcut _
  | none =>
    by_cases hfew : states.length ≤ 1
    · exact ⟨_, m.coherent.page_eq hlimit hfew startAfter, hcut _⟩
    obtain ⟨merged, hmerged, -, hmem⟩ := m.coherent.mergePages_eq hlimit startAfter states
      (List.nil_subset _) List.Pairwise.nil
    match states with
    | [] | [_] => simp at hfew
    | _ :: _ :: _ =>
      refine ⟨cut TimelineRecord.key limit (merged.take (usizeSucc limit)), ?_,
        fun record hrecord => ?_⟩
      · simp only [listTimelinesByStatusFilterPage, if_neg hlimit.ne', hmerged, map_some]
      have hin := List.mem_of_mem_take (List.mem_of_mem_take hrecord)
      rcases (hmem record).mp hin with hnil | ⟨state, -, hst⟩
      · cases hnil
      · exact after_subset (List.mem_filter.mp (List.mem_of_mem_take hst)).1

def matching (parse : List Char → Option Nat) (owner : String) : List TimelineRecord :=
  m.timelines.filter (timelineMatchesStatusFilter parse states (some owner))

lemma collect_defaultPages (parse : List Char → Option Nat) (own : String) (hlimit : 0 < limit)
    {fuel : Nat} (hfuel : m.timelines.length < fuel) :
    collect (defaultListTimelinesByStatusFilterPage parse m.store states (some own) · limit) fuel
      none = some (m.matching states parse own) :=
  collect_eq (fun _ => defaultListTimelinesByStatusFilterPage_eq parse states (some own)
    m.sorted m.count hlimit) hlimit (m.sorted.filter _) ((List.length_filter_le _ _).trans_lt hfuel)

lemma endpointsMatch_iff {parse : List Char → Option Nat} {left right : String} :
    endpointsMatch parse left right ↔
      normalizeEndpointComponent left = normalizeEndpointComponent right ∨
        ∃ address, parse (trim left) = some address ∧ parse (trim right) = some address := by
  unfold endpointsMatch normalizeEndpointComponent eqIgnoreAsciiCase
  rw [String.ofList_inj]
  dsimp only
  split_ifs with hsame
  · refine iff_of_true rfl (.inl ?_)
    rcases (Bool.or_eq_true ..).mp hsame with heq | heq
    · rw [of_decide_eq_true heq]
    · exact of_decide_eq_true heq
  · have hne : ¬ (trim left).map Char.toLower = (trim right).map Char.toLower :=
      fun heq => hsame (by rw [decide_eq_true heq, Bool.or_true])
    rw [or_iff_right hne]
    cases parse (trim left) <;> cases parse (trim right) <;> simp [eq_comm]

/-- Walking the owner's index returns what the default implementation returns exactly if no timeline
in a wanted state has the owner's socket address under another name. -/
theorem owner_listing_agrees_iff (m : MetadataState) (parse : List Char → Option Nat)
    (states : List TimelineLifecycleState) (owner : String) (limit fuel : Nat)
    (hlimit : PageLimit limit) (hfuel : m.timelines.length < fuel) :
    (∃ listed,
      collect (listTimelinesByStatusFilterPage m.store states (some owner) · limit) fuel none =
        some listed ∧
      collect (defaultListTimelinesByStatusFilterPage parse m.store states
        (some owner) · limit) fuel
        none = some listed ∧
      ∀ timeline, timeline ∈ listed ↔
        timeline ∈ m.timelines ∧ timelineMatchesStatusFilter parse states (some owner) timeline) ↔
    ∀ timeline ∈ m.timelines, states = [] ∨ timeline.state ∈ states →
      ∀ address, parse (trim timeline.route.ownerWorkerEndpoint) = some address →
        parse (trim owner) = some address →
          normalizeEndpointComponent timeline.route.ownerWorkerEndpoint =
            normalizeEndpointComponent owner := by
  rw [m.collect_ownerPages states owner hlimit.1 hfuel,
    m.collect_defaultPages states parse owner hlimit.1 hfuel]
  constructor
  · rintro ⟨listed, howned, hmatching, -⟩ timeline hin hst address hleft hright
    have hmatches : timeline ∈ m.matching states parse owner := by
      refine List.mem_filter.mpr ⟨hin, (Bool.and_eq_true ..).mpr ⟨by simpa using hst, ?_⟩⟩
      exact endpointsMatch_iff.mpr (.inr ⟨address, hleft, hright⟩)
    rw [Option.some.inj (hmatching.trans howned.symm)] at hmatches
    exact ((m.mem_ownedBy states).mp hmatches).2.1
  · intro hnames
    have hsame : m.ownedBy states owner = m.matching states parse owner := by
      refine KeyValue.Ordered.eq_of_mem_iff ((m.sorted.filter _).filter _) (m.sorted.filter _)
        fun timeline => ?_
      simp only [mem_ownedBy, matching, List.mem_filter, timelineMatchesStatusFilter,
        Option.map_some, Option.getD_some, Bool.and_eq_true, Bool.or_eq_true, List.isEmpty_iff,
        decide_eq_true_eq, endpointsMatch_iff]
      constructor
      · rintro ⟨hin, hname, hst⟩
        exact ⟨hin, hst, .inl hname⟩
      rintro ⟨hin, hst, hname | ⟨address, hleft, hright⟩⟩
      · exact ⟨hin, hname, hst⟩
      · exact ⟨hin, hnames timeline hin hst address hleft hright, hst⟩
    exact ⟨_, congrArg some hsame, rfl, fun timeline => List.mem_filter⟩

/-- `parseDecimal zeroPrefix bound` reads a whole decimal number of at most `bound`. -/
def parseDecimal (zeroPrefix : Bool) (bound : Nat) (chars : List Char) : Option Nat :=
  let value := chars.foldl (fun value c => 10 * value + (c.toNat - '0'.toNat)) 0
  if chars.isEmpty || !chars.all Char.isDigit || value > bound then none
  else if !zeroPrefix && chars.length > 1 && chars.head? = some '0' then none
  else some value

/-- The IPv4 case of `str::parse::<SocketAddr>`: a port may start with zeros, an octet may not. -/
def parseSocketAddrV4 (chars : List Char) : Option Nat :=
  match chars.splitOn ':' with
  | [ip, port] => do
    let octets ← (ip.splitOn '.').mapM (parseDecimal false 255)
    let port ← parseDecimal true 65535 port
    if octets.length = 4 then some ((octets ++ [port]).foldl (fun n part => 65536 * n + part) 0)
    else none
  | _ => none

def ownedMetadata (endpoint : String) : MetadataState where
  timelines := [{ sampleTimeline "orders" .active with
    route := { (sampleTimeline "orders" .active).route with ownerWorkerEndpoint := endpoint } }]
  sorted := List.pairwise_singleton _ _
  count := show 0 < i64Max by decide
  valid := List.forall_mem_singleton.mpr (show validateTimelineKey "orders" = .ok
    () by decide +kernel)
  generators := []
  unique := List.nodup_nil

theorem owner_listing_agrees_iff_sample :
    (∃ listed, collect (listTimelinesByStatusFilterPage (ownedMetadata "A:1").store [.active]
        (some " a:1") · 1) 2 none = some listed ∧
      collect (defaultListTimelinesByStatusFilterPage parseSocketAddrV4 (ownedMetadata "A:1").store
        [.active] (some " a:1") · 1) 2 none = some listed ∧
      ∀ timeline, timeline ∈ listed ↔ timeline ∈ (ownedMetadata "A:1").timelines ∧
        timelineMatchesStatusFilter parseSocketAddrV4 [.active] (some " a:1") timeline) := by
  refine (owner_listing_agrees_iff (ownedMetadata "A:1") parseSocketAddrV4 [.active] " a:1" 1 2
    ⟨Nat.one_pos, by decide⟩ (by decide)).mpr ?_
  intro timeline htimeline
  obtain rfl := List.mem_singleton.mp htimeline
  exact fun _ _ _ _ => by decide +kernel

/-- A timeline of `127.0.0.1:8080`, looked up under the same socket address with a port that starts
with a zero. -/
theorem owner_index_misses_socket_address :
    collect (listTimelinesByStatusFilterPage (ownedMetadata "127.0.0.1:8080").store [.active]
      (some "127.0.0.1:08080") · 1) 2 none = some [] ∧
    collect (defaultListTimelinesByStatusFilterPage parseSocketAddrV4
      (ownedMetadata "127.0.0.1:8080").store [.active] (some "127.0.0.1:08080") · 1) 2 none =
        some (ownedMetadata "127.0.0.1:8080").timelines ∧
    ∀ timeline ∈ (ownedMetadata "127.0.0.1:8080").timelines,
      timelineMatchesStatusFilter parseSocketAddrV4 [.active]
        (some "127.0.0.1:08080") timeline := by
  decide +kernel

end MetadataState

end Chronos
