import Chronos.Queue.Priority
import Chronos.Transition.Run
import Chronos.Types
import Mathlib.Data.List.AList
import Mathlib.Data.Prod.Lex
import Mathlib.Data.String.Basic

/-! The cache of timeline states in a worker. A cached state is shared: the cache holds one
reference, callers may hold others, and an entry is evicted only when the cache's reference is the
last one. -/

namespace Chronos

abbrev Handle := Nat

structure TimelineCacheEntry where
  timeline : Handle
  lastAccessTick : Nat
  accessSamples : Nat
  deriving DecidableEq

structure EvictionCandidate where
  tick : Nat
  generation : Nat
  key : String
  deriving DecidableEq

instance : LinearOrder EvictionCandidate :=
  LinearOrder.lift' (fun c => toLex (c.tick, toLex (c.generation, c.key))) fun c c' h => by
    obtain ⟨tick, generation, key⟩ := c
    obtain ⟨tick', generation', key'⟩ := c'
    simpa using h

lemma EvictionCandidate.tick_le_of_le {c c' : EvictionCandidate} (h : c ≤ c') :
    c.tick ≤ c'.tick := by
  have hlex := h
  rcases Prod.Lex.toLex_le_toLex.mp hlex with hlt | heq
  · exact hlt.le
  · exact heq.1.le

structure TimelineCacheStore where
  timelines : AList fun _ : String => TimelineCacheEntry
  maxEntries : Nat
  accessCounter : Nat
  evictionGenerationCounter : Nat
  entryCount : Nat
  evictionGenerations : AList fun _ : String => Nat
  evictionCandidates : PriorityQueue EvictionCandidate

namespace TimelineCacheStore

def evictionCandidateBatchLimit : Nat := 128

def accessTickSampleMask : Nat := 0x0f

def new (maxEntries : Nat) : TimelineCacheStore where
  timelines := ∅
  maxEntries := maxEntries
  accessCounter := 1
  evictionGenerationCounter := 1
  entryCount := 0
  evictionGenerations := ∅
  evictionCandidates := .empty

variable (s : TimelineCacheStore)

def strongCount (held : List Handle) (timeline : Handle) : Nat :=
  held.count timeline + s.timelines.entries.countP fun entry => entry.2.timeline = timeline

def put (key : String) (entry : TimelineCacheEntry) : TimelineCacheStore :=
  { s with timelines := s.timelines.insert key entry }

def stamp (key : String) (entry : TimelineCacheEntry) : TimelineCacheStore :=
  let s' := s.put key { entry with lastAccessTick := s.accessCounter }
  { s' with accessCounter := s.accessCounter + 1 }

/-- A hit moves the tick of an entry on only once in sixteen times. -/
def touchEntry (key : String) (entry : TimelineCacheEntry) (force : Bool) : TimelineCacheStore :=
  if force then s.stamp key entry
  else
    let sampled := { entry with accessSamples := entry.accessSamples + 1 }
    if entry.accessSamples &&& accessTickSampleMask ≠ 0 then s.put key sampled
    else s.stamp key sampled

def timelineHandle (key : String) : Option Handle × TimelineCacheStore :=
  match s.timelines.lookup key with
  | some entry => (some entry.timeline, s.touchEntry key entry false)
  | none => (none, s)

def ensureEvictionGeneration (key : String) : Nat × TimelineCacheStore :=
  match s.evictionGenerations.lookup key with
  | some generation => (generation, s)
  | none =>
    (s.evictionGenerationCounter,
      { s with
        evictionGenerations := s.evictionGenerations.insert key s.evictionGenerationCounter
        evictionGenerationCounter := s.evictionGenerationCounter + 1 })

def recordEvictionCandidate (key : String) (accessTick : Nat) : TimelineCacheStore :=
  let (generation, s) := s.ensureEvictionGeneration key
  { s with evictionCandidates := s.evictionCandidates.push ⟨accessTick, generation, key⟩ }

def isCurrent (candidate : EvictionCandidate) : Bool :=
  s.evictionGenerations.lookup candidate.key = some candidate.generation

def compactEvictionCandidates : TimelineCacheStore :=
  { s with evictionCandidates := s.evictionCandidates.filter s.isCurrent }

def maybeCompactEvictionCandidates : TimelineCacheStore :=
  let heapLen := s.evictionCandidates.items.length
  let liveEntries := s.entryCount
  if liveEntries = 0 then
    if heapLen = 0 then s else s.compactEvictionCandidates
  else if heapLen ≤ max (liveEntries * 4 + 8) 16 then s
  else s.compactEvictionCandidates

def evictLoop (held : List Handle) : Nat → TimelineCacheStore → List EvictionCandidate →
    Bool × TimelineCacheStore × List EvictionCandidate
  | 0, s, deferred => (false, s, deferred)
  | rounds + 1, s, deferred =>
    match s.evictionCandidates.pop with
    | none => (false, s, deferred)
    | some (candidate, rest) =>
      let s := { s with evictionCandidates := rest }
      if !s.isCurrent candidate then evictLoop held rounds s deferred
      else
        match s.timelines.lookup candidate.key with
        | none => evictLoop held rounds s deferred
        | some entry =>
          let isIdle := s.strongCount held entry.timeline = 1
          if entry.lastAccessTick ≠ candidate.tick ∨ ¬isIdle then
            evictLoop held rounds s
              (deferred ++ [{ candidate with tick := entry.lastAccessTick }])
          else
            (true,
              { s with
                timelines := s.timelines.erase candidate.key
                evictionGenerations := s.evictionGenerations.erase candidate.key
                evictionCandidates := rest.extend deferred
                entryCount := s.entryCount - 1 },
              [])

def tryEvictIdleEntryBatch (held : List Handle) (attempts : Nat)
    (deferred : List EvictionCandidate) : Bool × TimelineCacheStore × List EvictionCandidate :=
  evictLoop held (min s.evictionCandidates.items.length attempts) s deferred

def evictOneIdleEntry (held : List Handle) : Bool × TimelineCacheStore :=
  let s := s.maybeCompactEvictionCandidates
  let attempts := max s.evictionCandidates.items.length evictionCandidateBatchLimit
  let (evicted, s, deferred) := s.tryEvictIdleEntryBatch held attempts []
  (evicted, { s with evictionCandidates := s.evictionCandidates.extend deferred })

def makeRoom (held : List Handle) : Bool × TimelineCacheStore :=
  if s.entryCount ≥ s.maxEntries then s.evictOneIdleEntry held else (true, s)

def insertVacant (key : String) (timeline : Handle) : TimelineCacheStore :=
  let accessTick := s.accessCounter
  let s := s.stamp key ⟨timeline, accessTick, 1⟩
  let s := { s with entryCount := s.entryCount + 1 }
  s.recordEvictionCandidate key accessTick

def timelineHandleOrInsertWith (held : List Handle) (key : String) (timeline : Handle) :
    Except TsoError Handle × TimelineCacheStore :=
  match s.timelines.lookup key with
  | some existing => (.ok existing.timeline, s.touchEntry key existing false)
  | none =>
    -- under the lock a sequential history finds what the first lookup found
    match s.makeRoom held with
    | (false, s) => (.error (.timelineRuntimeCacheSaturated key s.maxEntries), s)
    | (true, s) => (.ok timeline, s.insertVacant key timeline)

def insertTimeline (held : List Handle) (key : String) (timeline : Handle) :
    Except TsoError Unit × TimelineCacheStore :=
  match s.timelines.lookup key with
  | some _ => (.ok (), s.stamp key ⟨timeline, s.accessCounter, 1⟩)
  | none =>
    match s.makeRoom held with
    | (false, s) => (.error (.timelineRuntimeCacheSaturated key s.maxEntries), s)
    | (true, s) => (.ok (), s.insertVacant key timeline)

def removeTimeline (key : String) : TimelineCacheStore :=
  match s.timelines.lookup key with
  | none => s
  | some _ =>
    let s := { s with
      timelines := s.timelines.erase key
      evictionGenerations := s.evictionGenerations.erase key }
    let s := s.maybeCompactEvictionCandidates
    { s with entryCount := s.entryCount - 1 }

def clear : TimelineCacheStore :=
  { s with
    timelines := ∅
    evictionGenerations := ∅
    evictionCandidates := .empty
    entryCount := 0 }

end TimelineCacheStore

structure CacheWorld where
  store : TimelineCacheStore
  held : List Handle
  nextHandle : Handle

inductive Build where
  | fresh
  | clone (timeline : Handle)
  deriving DecidableEq

inductive CacheCall where
  | createHandle
  | cloneHandle (timeline : Handle)
  | dropHandle (timeline : Handle)
  | timelineHandle (key : String)
  | timelineHandleOrInsertWith (key : String) (build : Build)
  | insertTimeline (key : String) (timeline : Handle)
  | removeTimeline (key : String)
  | clear
  deriving DecidableEq

namespace CacheWorld

variable (w : CacheWorld)

def new (maxEntries : Nat) : CacheWorld := ⟨.new maxEntries, [], 0⟩

def built : Build → Option Handle
  | .fresh => some w.nextHandle
  | .clone timeline => if timeline ∈ w.held then some timeline else none

def getOrInsert (key : String) (timeline : Handle) : Except TsoError Handle × CacheWorld :=
  match w.store.timelineHandleOrInsertWith w.held key timeline with
  | (.ok handle, store) => (.ok handle, ⟨store, handle :: w.held, w.nextHandle + 1⟩)
  | (.error e, store) => (.error e, ⟨store, w.held, w.nextHandle + 1⟩)

def insert (key : String) (timeline : Handle) : Except TsoError Unit × CacheWorld :=
  let (result, store) := w.store.insertTimeline w.held key timeline
  (result, ⟨store, w.held.erase timeline, w.nextHandle⟩)

def step : CacheCall → Option CacheWorld
  | .createHandle => some ⟨w.store, w.nextHandle :: w.held, w.nextHandle + 1⟩
  | .cloneHandle timeline =>
    if timeline ∈ w.held then some { w with held := timeline :: w.held } else none
  | .dropHandle timeline =>
    if timeline ∈ w.held then some { w with held := w.held.erase timeline } else none
  | .timelineHandle key =>
    let (found, store) := w.store.timelineHandle key
    some { w with store, held := found.toList ++ w.held }
  | .timelineHandleOrInsertWith key build =>
    (w.built build).map fun timeline => (w.getOrInsert key timeline).2
  | .insertTimeline key timeline =>
    if timeline ∈ w.held then some (w.insert key timeline).2 else none
  | .removeTimeline key => some { w with store := w.store.removeTimeline key }
  | .clear => some { w with store := w.store.clear }

def Reachable (maxEntries : Nat) : CacheWorld → Prop :=
  Transition.Reach step (fun _ _ => True) (new maxEntries)

end CacheWorld

end Chronos
