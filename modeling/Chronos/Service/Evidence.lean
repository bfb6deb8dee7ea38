import Chronos.Service.Handoff
import Mathlib.Data.List.Infix

/-! What the code of a worker knows when it acts. Facts about committed versions, logs and the
process's own cursors survive whatever other threads do; an effect is permitted when its author
holds the fact that justifies it. -/

namespace Chronos

open Interleaving

structure World.Grows (w w' : World) : Prop where
  generators : ∀ g, w.generators g <:+ w'.generators g
  timelines : ∀ k, w.timelines k <:+ w'.timelines k
  nextIndex : ∀ p g, (w.runtime p g).nextIndex ≤ (w'.runtime p g).nextIndex
  readings : ∀ p, w.readings p <:+ w'.readings p
  issued : w.issued <+: w'.issued
  finalReads : w.finalReads <:+ w'.finalReads
  locks : w.locks <:+ w'.locks

instance : Preorder World where
  le := World.Grows
  le_refl w := ⟨fun _ => List.suffix_rfl, fun _ => List.suffix_rfl, fun _ _ => le_rfl,
    fun _ => List.suffix_rfl, List.prefix_rfl, List.suffix_rfl, List.suffix_rfl⟩
  le_trans _ _ _ h h' :=
    ⟨fun g => (h.generators g).trans (h'.generators g),
      fun k => (h.timelines k).trans (h'.timelines k),
      fun p g => (h.nextIndex p g).trans (h'.nextIndex p g),
      fun p => (h.readings p).trans (h'.readings p), h.issued.trans h'.issued,
      h.finalReads.trans h'.finalReads, h.locks.trans h'.locks⟩

/-- Paths whose writer may issue up to the bound they wrote without moving its cursor first. -/
def GeneratorWrite.grants : GeneratorWrite → Bool
  | create | refresh _ => true
  | takeover | floorFlush => false

def PastFloor (C : Cluster) (p g : Nat) (record : GeneratorRecord) (w : World) : Prop :=
  ∀ floor, generatorRecoveryFloorTso record = some floor →
    floor < C.layout.tsoAt g (w.runtime p g).nextIndex

/-- A lease state of process `p` mirrors a committed version, which `p` either wrote itself or
has moved its cursor past. -/
structure Mirrors (C : Cluster) (p g : Nat) (lease : GeneratorLeaseState) (w : World)
    (v : GeneratorVersion) : Prop where
  mem : v ∈ w.generators g
  revision : v.revision = lease.revision
  owner : v.record.ownerInstanceId = (C.worker p).instanceId
  leaseOwner : lease.ownerInstanceId = (C.worker p).instanceId
  expire : v.record.leaseExpireAtMs = some lease.leaseExpireAtMs
  bound : v.record.issuedUpperBound = lease.issuedUpperBound
  last : Floor.Le v.record.lastIssuedTso lease.lastPersistedTso
  usable : v.writer = p ∧ v.write.grants ∨ PastFloor C p g v.record w

def LeaseFact (C : Cluster) (p g : Nat) (lease : GeneratorLeaseState) (w : World) : Prop :=
  ∃ v, Mirrors C p g lease w v

def LocalLast (C : Cluster) (p g : Nat) (tso : Option Nat) (w : World) : Prop :=
  ∃ n ≤ (w.runtime p g).nextIndex, Generator.currentLastIssuedTso C.layout g n = .ok tso

def HandleFact (key : String) (state : TimelineState) (w : World) : Prop :=
  ∃ v ∈ w.timelines key, v.record.route = state.route ∧ v.revision = state.revision

def Floored (key : String) (state : TimelineState) (w : World) : Prop :=
  ∃ v ∈ w.timelines key, v.record.route = state.route ∧ v.revision = state.revision ∧
    Floor.Le v.record.recoveryFloorTso state.lastIssuedTso

/-- A state that may be stored behind a lock: it covers its recovery floor by itself, or it goes on
from the state that the lock was taken on. -/
def StoreFact (p : Nat) (key : String) (state : TimelineState) (w : World) : Prop :=
  Floored key state w ∨ ∃ lock ∈ w.locks, lock.process = p ∧ lock.key = key ∧
    lock.state.route = state.route ∧ lock.state.revision = state.revision ∧
    Floor.Le lock.state.lastIssuedTso state.lastIssuedTso

def InvokeFact (key : String) (seen epoch : Nat) (w : World) : Prop :=
  seen ≤ w.issued.length ∧ ∀ i < seen, ∀ a s, w.issued[i]? = some a → a.serving = some s →
    s.request.timelineKey = key → s.state.route.epoch ≤ epoch

variable {C : Cluster} {p g : Nat} {w w' : World}

lemma PastFloor.mono {record : GeneratorRecord} (h : PastFloor C p g record w)
    (hle : w ≤ w') : PastFloor C p g record w' := fun floor hfloor =>
  (h floor hfloor).trans_le (TimestampLayout.tsoAt_le_tsoAt.mpr (hle.nextIndex p g))

variable {lease : GeneratorLeaseState} {key : String} {state : TimelineState}

lemma Mirrors.mono {v : GeneratorVersion}
    (h : Mirrors C p g lease w v) (hle : w ≤ w') : Mirrors C p g lease w' v :=
  { h with
    mem := (hle.generators g).mem h.mem
    usable := h.usable.imp_right (·.mono hle) }

lemma LeaseFact.mono (h : LeaseFact C p g lease w) (hle : w ≤ w') : LeaseFact C p g lease w' :=
  h.imp fun _ hv => hv.mono hle

lemma LocalLast.mono {tso : Option Nat} (h : LocalLast C p g tso w) (hle : w ≤ w') :
    LocalLast C p g tso w' :=
  h.imp fun _ hn => ⟨hn.1.trans (hle.nextIndex p g), hn.2⟩

lemma HandleFact.mono (h : HandleFact key state w) (hle : w ≤ w') : HandleFact key state w' :=
  h.imp fun _ hv => ⟨(hle.timelines key).mem hv.1, hv.2⟩

lemma Floored.mono (h : Floored key state w) (hle : w ≤ w') : Floored key state w' :=
  h.imp fun _ hv => ⟨(hle.timelines key).mem hv.1, hv.2⟩

lemma Floored.handleFact (h : Floored key state w) : HandleFact key state w :=
  h.imp fun _ hv => ⟨hv.1, hv.2.1, hv.2.2.1⟩

lemma StoreFact.mono (h : StoreFact p key state w) (hle : w ≤ w') : StoreFact p key state w' :=
  h.imp (·.mono hle) fun h => h.imp fun _ hlock => ⟨hle.locks.mem hlock.1, hlock.2⟩

lemma InvokeFact.mono {seen epoch : Nat} (h : InvokeFact key seen epoch w)
    (hle : w ≤ w') : InvokeFact key seen epoch w' := by
  refine ⟨h.1.trans hle.issued.length_le, fun i hi a s ha => h.2 i hi a s ?_⟩
  obtain ⟨later, hlater⟩ := hle.issued
  rwa [← hlater, List.getElem?_append_left (hi.trans_le h.1)] at ha

def GeneratorCommit (C : Cluster) (p g : Nat) (w : World) (v : GeneratorVersion) : Prop :=
  match v.write with
  | .create => w.generators g = [] ∧ g < C.layout.maxGenerators ∧
      ∃ now ∈ w.readings p, v.record = C.createdGeneratorRecord p g now
  | .takeover => g < C.layout.maxGenerators ∧
      ∃ v₀, (w.generators g).head? = some v₀ ∧ ∃ now ∈ w.readings p, ∃ expire,
      v₀.record.leaseExpireAtMs = some expire ∧
      leaseExpiredWithSafetyGap expire now (C.worker p).safetyGapMs = true ∧
      C.takeoverRecord p g now v₀.record = .ok v.record
  | .refresh reason => ∃ v₀, (w.generators g).head? = some v₀ ∧ ∃ lease,
      Mirrors C p g lease w v₀ ∧ ∃ now ∈ w.readings p, now < lease.leaseExpireAtMs ∧
      ∃ localLast, LocalLast C p g localLast w ∧
      v.record = C.refreshRecord p g lease localLast now reason
  | .floorFlush => ∃ v₀, (w.generators g).head? = some v₀ ∧
      v₀.record.ownerInstanceId = (C.worker p).instanceId ∧ ∃ localLast,
      LocalLast C p g (some localLast) w ∧ ∃ now, v.record =
        Cluster.flushedGeneratorRecord v₀.record localLast now

def TimelineCommit (C : Cluster) (p : Nat) (key : String) (w : World) (v : TimelineVersion) :
    Prop :=
  match v.write with
  | .create => w.timelines key = [] ∧ ∃ g tier now,
      v.record = createdTimelineRecord key (C.worker p).advertiseEndpoint g tier now
  | .activate => ∃ v₀, (w.timelines key).head? = some v₀ ∧ ∃ now,
      v.record = activatedRecord v₀.record now
  | .transfer reason cachedLast floor => ∃ v₀, (w.timelines key).head? = some v₀ ∧
      ∃ target state now,
        v.record = transferredRecord v₀.record reason cachedLast floor target state now
  | .fencedTransfer reason cachedLast state => ∃ v₀, (w.timelines key).head? = some v₀ ∧
      state.route = v₀.record.route ∧ state.revision = v₀.revision ∧
      ⟨p, key, none, state⟩ ∈ w.locks ∧ ∃ target now,
        v.record = fencedRecord v₀.record reason cachedLast state target now
  | .floorFlush localLast => ∃ v₀, (w.timelines key).head? = some v₀ ∧ ∃ now,
      v.record = flushedTimelineRecord v₀.record localLast now

structure ServingFact (C : Cluster) (p g : Nat) (args : Generator.AllocateArgs) (s : Serving)
    (w : World) : Prop where
  locked : ⟨p, s.request.timelineKey, some s.checkedRoute, s.state⟩ ∈ w.locks
  handle : HandleFact s.request.timelineKey s.state w
  positive : 0 < args.count
  range : g < C.layout.maxGenerators
  floor : args.floor = s.state.lastIssuedTso
  generator : s.checkedRoute.generatorId = g
  epoch : s.checkedRoute.epoch = s.request.expectedEpoch
  routeVersion : s.checkedRoute.routeVersion = s.request.expectedRouteVersion
  owner : C.isLocalEndpoint p s.checkedRoute.ownerWorkerEndpoint = true
  unbounded : args.issuedUpperBound = none → (p, g, none) ∈ w.finalReads
  invoked : InvokeFact s.request.timelineKey s.seen s.invokedEpoch w

lemma ServingFact.mono {args : Generator.AllocateArgs} {s : Serving}
    (h : ServingFact C p g args s w) (hle : w ≤ w') : ServingFact C p g args s w' :=
  { h with
    locked := hle.locks.mem h.locked
    handle := h.handle.mono hle
    unbounded := fun hnone => hle.finalReads.mem (h.unbounded hnone)
    invoked := h.invoked.mono hle }

structure IssueFact (C : Cluster) (p : Nat) (a : Allocation) (w : World) : Prop where
  process : a.process = p
  reserved : ∃ floorIdx last, Generator.floorIndex C.layout a.generatorId a.args.floor =
    .ok floorIdx ∧
    Generator.Reserved C.layout a.generatorId a.args floorIdx (w.runtime p a.generatorId).nextIndex
      ⟨a.startIndex, last, a.newIndex⟩
  bound : ∀ u, a.args.issuedUpperBound = some u →
    ∃ lease, LeaseFact C p a.generatorId lease w ∧ lease.issuedUpperBound = some u
  direct : a.serving = none → a.args.issuedUpperBound ≠ none
  serving : ∀ s, a.serving = some s → ServingFact C p a.generatorId a.args s w

def TimelineWrite.isTransfer : TimelineWrite → Bool
  | transfer .. | fencedTransfer .. => true
  | create | activate | floorFlush _ => false

/-- What a transfer has checked of its target: a worker that takes the timeline over itself owns the
generator, and one that hands it to another worker does not. -/
def TargetChecked (C : Cluster) (p : Nat) (endpoint : String) (generatorId : Nat) : Prop :=
  if C.isLocalEndpoint p endpoint then (C.worker p).ownsGeneratorId generatorId = true
  else 1 < (C.worker p).generatorOwnershipModulo →
    (C.worker p).ownsGeneratorId generatorId = false

def Permit (C : Cluster) (p : Nat) (w : World) : Effect → Prop
  | .readClock now => now = w.clock p
  | .finalRead g now bound => bound = w.validLeaseUpperBoundForOwner C p g now
  | .commitGenerators vs => ∀ x ∈ vs, x.2.revision = w.revision + 1 ∧ x.2.writer = p ∧
      GeneratorCommit C p x.1 w x.2
  | .commitTimeline key v => v.revision = w.revision + 1 ∧ TimelineCommit C p key w v ∧
      (v.write.isTransfer = true →
        TargetChecked C p v.record.route.ownerWorkerEndpoint v.record.route.generatorId)
  | .setLease g (some lease) => LeaseFact C p g lease w
  | .issue a => IssueFact C p a w
  | .newHandle key state _ => HandleFact key state w
  | .setHandle key _ state => HandleFact key state w ∧ StoreFact p key state w
  | .lock key _ _ state => ∃ hd ∈ w.handles p key, hd.state = state
  | _ => True

def Succeeds (newer older : TimelineVersion) : Prop :=
  older.revision < newer.revision ∧
    (newer.record.route = older.record.route ∨
      older.record.route.epoch < newer.record.route.epoch ∧
        older.record.route.routeVersion < newer.record.route.routeVersion)

structure Base (C : Cluster) (w : World) : Prop where
  generatorOrder : ∀ g, (w.generators g).Pairwise fun newer older => older.revision < newer.revision
  generatorRevision : ∀ g, ∀ v ∈ w.generators g, v.revision ≤ w.revision
  timelineOrder : ∀ k, (w.timelines k).Pairwise Succeeds
  timelineRevision : ∀ k, ∀ v ∈ w.timelines k, v.revision ≤ w.revision
  leases : ∀ p g lease, (w.runtime p g).lease = some lease → LeaseFact C p g lease w
  handles : ∀ p k, ∀ hd ∈ w.handles p k, HandleFact k hd.state w
  issued : ∀ a ∈ w.issued, ∀ s, a.serving = some s →
    ServingFact C a.process a.generatorId a.args s w

end Chronos
