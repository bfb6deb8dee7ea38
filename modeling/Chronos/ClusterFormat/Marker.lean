import Chronos.KeyValue.Ordered
import Chronos.Metadata.Keys
import Chronos.Metadata.Requests
import Chronos.Timestamp

/-! The format marker of a metadata prefix and the timestamp layout stored with it. -/

namespace Chronos

open Interleaving KeyValue

def defaultTimestampLayout : TimestampLayout where
  formatVersion := timestampLayoutFormatVersion
  epochUnixMs := 1767225600000
  physicalBits := 40
  generatorBits := 13
  sequenceBits := 11

def TimestampLayout.debugText (layout : TimestampLayout) : String :=
  "TimestampLayout \x7b format_version: " ++ toString layout.formatVersion ++
    ", epoch_unix_ms: " ++ toString layout.epochUnixMs ++
    ", physical_bits: " ++ toString layout.physicalBits ++
    ", generator_bits: " ++ toString layout.generatorBits ++
    ", sequence_bits: " ++ toString layout.sequenceBits ++ " \x7d"

def currentClusterFormatVersion : Nat := 3

inductive DataPrefix where
  | route | generator | request | legacyRequest | status
  deriving DecidableEq

structure DataEntry where
  name : String
  createRevision : Nat
  deriving DecidableEq

/-- `format` and `layout` are what reading the two keys gives: a text, and a layout, if the bytes
are one. -/
structure ClusterWorld where
  revision : Nat
  format : Option (Except String String)
  layout : Option (Except String TimestampLayout)
  data : DataPrefix → List DataEntry
  /-- Every probe that was answered: the worker that asked, and the revision of the answer. -/
  probes : List (Nat × Nat)

/-- Both write the current version and the layout of the worker. -/
inductive ClusterTxn where
  | migrate (layout : TimestampLayout)
  | create (layout : TimestampLayout)
  deriving DecidableEq

namespace ClusterTxn

def layout : ClusterTxn → TimestampLayout
  | migrate layout | create layout => layout

end ClusterTxn

namespace ClusterWorld

def expectedFormat : String := toString currentClusterFormatVersion

def admits (w : ClusterWorld) : ClusterTxn → Bool
  | .migrate _ => (match w.format with | some (.ok value) => value = "2" | _ => false) &&
      w.layout.isNone
  | .create _ => w.format.isNone && w.layout.isNone

def commit (w : ClusterWorld) (request : ClusterTxn) : ClusterWorld :=
  { w with
    revision := w.revision + 1
    format := some (.ok expectedFormat)
    layout := some (.ok request.layout) }

def probed (w : ClusterWorld) (worker : Nat) : ClusterWorld :=
  { w with probes := (worker, w.revision) :: w.probes }

def put (w : ClusterWorld) (place : DataPrefix) (name : String) : ClusterWorld :=
  { w with
    revision := w.revision + 1
    data := fun other =>
      if other = place ∧ ∀ entry ∈ w.data place, entry.name ≠ name then
        insertOrdered DataEntry.name ⟨name, w.revision + 1⟩ (w.data other)
      else w.data other }

def delete (w : ClusterWorld) (place : DataPrefix) (name : String) : ClusterWorld :=
  { w with
    revision := w.revision + 1
    data := fun other =>
      if other = place then (w.data other).filter fun entry => entry.name ≠ name
      else w.data other }

end ClusterWorld

structure ProbeResponse where
  revision : Nat
  names : List String

inductive ClusterOp where
  | getCluster
  | probe (place : DataPrefix) (limit : Nat)
  | txn (request : ClusterTxn)
  | retryAllowed

@[reducible] def ClusterOp.Reply : ClusterOp → Type
  | .getCluster =>
    Except String (Option (Except String String) × Option (Except String TimestampLayout))
  | .probe .. => Except String ProbeResponse
  | .txn _ => Except String Bool
  | .retryAllowed => Bool

abbrev clusterSig : Signature := ⟨ClusterOp, ClusterOp.Reply⟩

inductive ClusterChoice where
  | done
  | lost (message : String)
  | down (message : String)
  | flag (value : Bool)
  deriving DecidableEq

inductive ClusterEvent where
  | put (place : DataPrefix) (name : String)
  | delete (place : DataPrefix) (name : String)
  deriving DecidableEq

def clusterExec (worker : Nat) :
    (o : ClusterOp) → ClusterChoice → ClusterWorld → Option (o.Reply × ClusterWorld)
  | .getCluster, .done, w => some (.ok (w.format, w.layout), w)
  | .probe place limit, .done, w =>
    some (.ok ⟨w.revision, ((w.data place).take limit).map DataEntry.name⟩, w.probed worker)
  | .txn request, .done, w =>
    if w.admits request then some (.ok true, w.commit request) else some (.ok false, w)
  | .txn request, .lost message, w =>
    some (.error message, if w.admits request then w.commit request else w)
  | .getCluster, .down message, w => some (.error message, w)
  | .probe .., .down message, w => some (.error message, w)
  | .txn _, .down message, w => some (.error message, w)
  | .retryAllowed, .flag value, w => some (value, w)
  | _, _, _ => none

def clusterMachine : Machine clusterSig Nat ClusterChoice ClusterEvent ClusterWorld where
  exec := clusterExec
  env
    | .put place name, w => some (w.put place name)
    | .delete place name, w => some (w.delete place name)

abbrev ClusterProg := Prog clusterSig TsoError

abbrev clusterCall (o : ClusterOp) : ClusterProg o.Reply := @Prog.op clusterSig TsoError o

def retryClusterRequest {α : Type} (request : ClusterProg (Except String α)) :
    ClusterProg (Except String α) :=
  request.retry (clusterCall .retryAllowed) 3

def timestampDataPrefixes : List DataPrefix := [.route, .generator, .request, .legacyRequest]

/-- The loop over the prefixes, and then the status indexes, of which the marker does not count. -/
def probeTimestampData : Option Nat → List DataPrefix → ClusterProg (Option Nat × Bool)
  | checkedAt, place :: rest => do
    let response ← orInternal "Etcd timestamp data compatibility probe failed"
      (retryClusterRequest (clusterCall (.probe place 1)))
    let began := checkedAt.getD response.revision
    if response.names.isEmpty then probeTimestampData (some began) rest
    else return (some began, true)
  | checkedAt, [] => do
    let response ← orInternal "Etcd timestamp status compatibility probe failed"
      (retryClusterRequest (clusterCall (.probe .status 2)))
    return (checkedAt, response.names.any fun name => name ≠ timelineStatusIndexMarkerKey)

def timestampDataExists : ClusterProg (Option Nat × Bool) :=
  probeTimestampData none timestampDataPrefixes

def customLayoutRefused (found : String) : TsoError :=
  .internal ("custom timestamp layouts require a new, empty metadata prefix; " ++ found)

def acceptStoredLayout (timestampLayout : TimestampLayout) :
    Option (Except String TimestampLayout) → Except TsoError Unit
  | none => .error (.internal "cluster format v3 is missing cluster/timestamp_layout")
  | some (.error e) => .error (.internal ("Etcd timestamp layout is invalid: " ++ e))
  | some (.ok stored) =>
    match stored.validate with
    | .error e => .error (.internal ("Etcd timestamp layout is invalid: " ++ e.message))
    | .ok () =>
      if stored = timestampLayout then .ok ()
      else .error (.internal
        ("timestamp layout mismatch: configured " ++ timestampLayout.debugText ++
          ", metadata prefix contains " ++ stored.debugText))

/-- Returns the revision at which the last search for data of the worker began, if it has made
one. -/
def ensureClusterFormatMarkerLoop (timestampLayout : TimestampLayout) :
    Nat → Option Nat → ClusterProg (Option Nat)
  | 0, _ => .fail (.internal "cluster format marker remained contended after 8 attempts")
  | rounds + 1, checked => do
    let (format, layout) ← orInternal "Etcd cluster format lookup failed"
      (retryClusterRequest (clusterCall .getCluster))
    match format with
    | some (.error e) =>
      .fail (.internal ("Etcd cluster format marker is not valid UTF-8: " ++ e))
    | some (.ok actual) =>
      if actual = ClusterWorld.expectedFormat then do
        Prog.ofExcept (acceptStoredLayout timestampLayout layout)
        return checked
      else if actual = "2" ∧ layout.isNone ∧ timestampLayout = defaultTimestampLayout then do
        let migrated ← orInternal "Etcd cluster format migration failed"
          (retryClusterRequest (clusterCall (.txn (.migrate timestampLayout))))
        if migrated then return checked
        else ensureClusterFormatMarkerLoop timestampLayout rounds checked
      else if actual = "2" ∧ timestampLayout ≠ defaultTimestampLayout then
        .fail (customLayoutRefused
          "an existing v2 prefix can only migrate to the default layout")
      else
        .fail (.internal
          ("cluster format mismatch: binary requires v" ++ ClusterWorld.expectedFormat ++
            ", metadata prefix contains v" ++ actual ++
            "; downgrade and mixed-format startup are forbidden"))
    | none =>
      if layout.isSome then
        .fail (.internal
          "metadata prefix contains a timestamp layout without a cluster format marker")
      else do
        let (checkedAt, found) ←
          if timestampLayout ≠ defaultTimestampLayout then timestampDataExists
          else pure (none, false)
        if found then
          .fail (customLayoutRefused "existing timestamp-bearing metadata was found")
        else do
          let created ← orInternal "Etcd cluster format create failed"
            (retryClusterRequest (clusterCall (.txn (.create timestampLayout))))
          if created then return checkedAt
          else ensureClusterFormatMarkerLoop timestampLayout rounds checkedAt

def ensureClusterFormatMarker (timestampLayout : TimestampLayout) : ClusterProg (Option Nat) :=
  match timestampLayout.validate with
  | .error e => .fail (.internal ("invalid timestamp layout: " ++ e.message))
  | .ok () => ensureClusterFormatMarkerLoop timestampLayout 8 none

def clusterCode (_worker : Nat) (timestampLayout : TimestampLayout) :
    ClusterProg (TimestampLayout × Option Nat) := do
  let checked ← ensureClusterFormatMarker timestampLayout
  return (timestampLayout, checked)

abbrev ClusterState := Sys clusterSig Nat ClusterWorld TsoError (TimestampLayout × Option Nat)

abbrev ClusterRun : ClusterState → ClusterState → Prop :=
  Reach clusterMachine clusterCode .free

end Chronos
