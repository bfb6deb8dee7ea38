import Chronos.Interleaving.Program
import Chronos.KeyValue.Ordered
import Chronos.Metadata.Keys

/-! The part of etcd that holds the timeline records, their status indexes and the lease locks. -/

namespace Chronos

open Interleaving KeyValue

structure RouteEntry where
  key : String
  record : TimelineRecord
  modRevision : Nat
  deriving DecidableEq

inductive StatusValue where
  | record (record : TimelineRecord)
  | text (value : String)
  deriving DecidableEq

inductive LockName where
  | rebuild | creation
  deriving DecidableEq

structure IndexWorld where
  revision : Nat
  routes : List RouteEntry
  status : String → Option StatusValue
  lock : LockName → Option Nat
  leases : List Nat
  nextLease : Nat

inductive IndexCompare where
  | routeRevision (key : String) (revision : Nat)
  | lockValue (name : LockName) (token : Nat)
  | lockAbsent (name : LockName)
  deriving DecidableEq

inductive IndexTxnOp where
  | putRoute (key : String) (record : TimelineRecord)
  | putStatus (key : String) (value : StatusValue)
  | deleteStatus (key : String)
  | deleteStatusPrefix
  | putLock (name : LockName) (token : Nat)
  | deleteLock (name : LockName)
  deriving DecidableEq

def timelineStatusIndexPutOps (record : TimelineRecord) : List IndexTxnOp :=
  (timelineStatusIndexKeys record).map fun key => .putStatus key (.record record)

def timelineStatusIndexReplaceOps (previousRecord : Option TimelineRecord)
    (nextRecord : TimelineRecord) : List IndexTxnOp :=
  let nextKeys := timelineStatusIndexKeys nextRecord
  let deletes :=
    match previousRecord with
    | none => []
    | some previousRecord =>
      ((timelineStatusIndexKeys previousRecord).filter fun previousKey =>
        !nextKeys.any fun nextKey => nextKey = previousKey).map .deleteStatus
  deletes ++ timelineStatusIndexPutOps nextRecord

def currentStatusIndexVersion : String := "2"

structure TimelineExchange where
  key : String
  previousRevision : Nat
  previousRecord : TimelineRecord
  record : TimelineRecord
  deriving DecidableEq

inductive IndexTxn where
  | acquire (name : LockName) (token : Nat)
  | cleanup (token : Nat)
  | indexRoute (token : Nat) (entry : RouteEntry)
  | publish (token : Nat)
  | create (key : String) (record : TimelineRecord) (lock : Option Nat)
  | exchange (operations : List TimelineExchange)
  deriving DecidableEq

namespace IndexTxn

def compares : IndexTxn → List IndexCompare
  | acquire name _ => [.lockAbsent name]
  | cleanup token => [.lockValue .rebuild token]
  | indexRoute token entry =>
    [.lockValue .rebuild token, .routeRevision entry.key entry.modRevision]
  | publish token => [.lockValue .rebuild token]
  | create key _ lock => .routeRevision key 0 :: lock.toList.map (.lockValue .creation)
  | exchange operations => operations.map fun x => .routeRevision x.key x.previousRevision

def ops : IndexTxn → List IndexTxnOp
  | acquire name token => [.putLock name token]
  | cleanup _ => [.deleteStatusPrefix]
  | indexRoute _ entry => timelineStatusIndexPutOps entry.record
  | publish _ =>
    [.putStatus timelineStatusIndexMarkerKey (.text currentStatusIndexVersion),
      .deleteLock .rebuild]
  | create key record _ => .putRoute key record :: timelineStatusIndexPutOps record
  | exchange operations => operations.flatMap fun x =>
      .putRoute x.key x.record :: timelineStatusIndexReplaceOps (some x.previousRecord) x.record

def token : IndexTxn → Option Nat
  | acquire _ token | cleanup token | indexRoute token _ | publish token => some token
  | create _ _ lock => lock
  | exchange _ => none

end IndexTxn

namespace IndexWorld

variable (w : IndexWorld)

def getRoute (key : String) : Option RouteEntry := w.routes.find? fun entry => entry.key = key

def routeRevision (key : String) : Nat := ((w.getRoute key).map RouteEntry.modRevision).getD 0

/-- A value comparison on a missing key fails. -/
def holds : IndexCompare → Bool
  | .routeRevision key revision => w.routeRevision key = revision
  | .lockValue name token => w.lock name = some token
  | .lockAbsent name => (w.lock name).isNone

def admits (request : IndexTxn) : Bool := request.compares.all w.holds

/-- A key can only be attached to a lease that has not expired. -/
def leased : IndexTxn → Bool
  | .acquire _ token => token ∈ w.leases
  | _ => true

def apply (w : IndexWorld) : IndexTxnOp → IndexWorld
  | .putRoute key record =>
    { w with routes := insertOrdered RouteEntry.key ⟨key, record, w.revision⟩ w.routes }
  | .putStatus key value =>
    { w with status := fun other => if other = key then some value else w.status other }
  | .deleteStatus key =>
    { w with status := fun other => if other = key then none else w.status other }
  | .deleteStatusPrefix => { w with status := fun _ => none }
  | .putLock name token =>
    { w with lock := fun other => if other = name then some token else w.lock other }
  | .deleteLock name =>
    { w with lock := fun other => if other = name then none else w.lock other }

def commit (request : IndexTxn) : IndexWorld :=
  request.ops.foldl apply { w with revision := w.revision + 1 }

def grant : IndexWorld :=
  { w with leases := w.nextLease :: w.leases, nextLease := w.nextLease + 1 }

def revoke (lease : Nat) : IndexWorld :=
  { w with
    leases := w.leases.filter fun other => other ≠ lease
    lock := fun name => (w.lock name).filter fun token => token ≠ lease }

def scan (startKey : String) (limit : Nat) : List RouteEntry :=
  (w.routes.filter fun entry => startKey ≤ entry.key).take limit

end IndexWorld

inductive IndexOp where
  | txn (request : IndexTxn)
  | getMarker
  | getLock (name : LockName)
  | getRoute (key : String)
  | scanRoutes (startKey : String) (limit : Nat)
  | countRoutes
  | leaseGrant
  | leaseRevoke (token : Nat)
  | leaseKeepAlive (token : Nat)
  | isKnownLost (token : Nat)
  | deadlinePassed
  | retryAllowed

@[reducible] def IndexOp.Reply : IndexOp → Type
  | .txn _ => Except String (Option Nat)
  | .getMarker => Except String (Option StatusValue)
  | .getLock _ => Except String (Option Nat)
  | .getRoute _ => Except String (Option RouteEntry)
  | .scanRoutes .. => Except String (List RouteEntry)
  | .countRoutes => Except String Nat
  | .leaseGrant => Except String Nat
  | .leaseRevoke _ | .leaseKeepAlive _ => Except String Unit
  | .isKnownLost _ | .deadlinePassed | .retryAllowed => Bool

abbrev indexSig : Signature := ⟨IndexOp, IndexOp.Reply⟩

inductive IndexChoice where
  | done
  | lost (message : String)
  | down (message : String)
  | flag (value : Bool)
  deriving DecidableEq

inductive IndexEvent where
  | expire (lease : Nat)
  deriving DecidableEq

def indexExec (_ : Unit) : (o : IndexOp) → IndexChoice → IndexWorld → Option (o.Reply × IndexWorld)
  | .txn request, .done, w =>
    if !w.leased request then some (.error "requested lease not found", w)
    else if w.admits request then some (.ok (some (w.revision + 1)), w.commit request)
    else some (.ok none, w)
  | .txn request, .lost message, w =>
    if w.leased request && w.admits request then some (.error message, w.commit request)
    else some (.error message, w)
  | .getMarker, .done, w => some (.ok (w.status timelineStatusIndexMarkerKey), w)
  | .getLock name, .done, w => some (.ok (w.lock name), w)
  | .getRoute key, .done, w => some (.ok (w.getRoute key), w)
  | .scanRoutes startKey limit, .done, w => some (.ok (w.scan startKey limit), w)
  | .countRoutes, .done, w => some (.ok w.routes.length, w)
  | .leaseGrant, .done, w => some (.ok w.nextLease, w.grant)
  | .leaseGrant, .lost message, w => some (.error message, w.grant)
  | .leaseRevoke token, .done, w => some (.ok (), w.revoke token)
  | .leaseRevoke token, .lost message, w => some (.error message, w.revoke token)
  | .leaseKeepAlive _, .done, w => some (.ok (), w)
  | .txn _, .down message, w => some (.error message, w)
  | .getMarker, .down message, w => some (.error message, w)
  | .getLock _, .down message, w => some (.error message, w)
  | .getRoute _, .down message, w => some (.error message, w)
  | .scanRoutes .., .down message, w => some (.error message, w)
  | .countRoutes, .down message, w => some (.error message, w)
  | .leaseGrant, .down message, w => some (.error message, w)
  | .leaseRevoke _, .down message, w => some (.error message, w)
  | .leaseKeepAlive _, .down message, w => some (.error message, w)
  | .isKnownLost _, .flag value, w => some (value, w)
  | .deadlinePassed, .flag value, w => some (value, w)
  | .retryAllowed, .flag value, w => some (value, w)
  | _, _, _ => none

def indexMachine : Machine indexSig Unit IndexChoice IndexEvent IndexWorld where
  exec := indexExec
  env
    | .expire lease, w => some (w.revoke lease)

end Chronos
