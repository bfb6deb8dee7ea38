import Chronos.Interleaving.Discipline
import Chronos.Interleaving.Repair

/-! The readiness of a worker: a health snapshot behind a lock and the flag that probes read. -/

namespace Chronos

open Interleaving

inductive WorkerReadinessState where
  | ready | degraded
  deriving DecidableEq

inductive WorkerReadinessReason where
  | serving | identityLeaseLost | shuttingDown | ownershipDrift
  deriving DecidableEq

structure WorkerStatusSnapshot where
  readinessState : WorkerReadinessState
  readinessReason : WorkerReadinessReason
  identityLeaseHealthy : Bool
  deriving DecidableEq

namespace WorkerStatusSnapshot

def serving : WorkerStatusSnapshot := ⟨.ready, .serving, true⟩

variable (snapshot : WorkerStatusSnapshot)

def markShuttingDown : WorkerStatusSnapshot :=
  { snapshot with
    readinessState := .degraded
    readinessReason :=
      if snapshot.readinessReason ≠ .identityLeaseLost then .shuttingDown
      else snapshot.readinessReason }

def markIdentityLeaseLost : WorkerStatusSnapshot := ⟨.degraded, .identityLeaseLost, false⟩

def markOwnershipDrift : WorkerStatusSnapshot :=
  match snapshot.readinessReason with
  | .identityLeaseLost | .shuttingDown => snapshot
  | _ => { snapshot with readinessState := .degraded, readinessReason := .ownershipDrift }

def clearOwnershipDrift : WorkerStatusSnapshot :=
  if snapshot.readinessReason = .ownershipDrift then
    { snapshot with readinessState := .ready, readinessReason := .serving }
  else snapshot

def Serving : Prop := snapshot.readinessState = .ready ∧ snapshot.readinessReason = .serving

instance : Decidable snapshot.Serving := inferInstanceAs (Decidable (_ ∧ _))

def Consistent : Prop := snapshot.readinessState = .ready ↔ snapshot.readinessReason = .serving

def Stopped : Prop :=
  snapshot.readinessReason = .identityLeaseLost ∨ snapshot.readinessReason = .shuttingDown

end WorkerStatusSnapshot

structure ReadinessWorld where
  health : WorkerStatusSnapshot
  ready : Bool
  startupComplete : Bool
  deriving DecidableEq

def ReadinessWorld.initial : ReadinessWorld := ⟨.serving, false, false⟩

/-- The atomic steps. A drift is marked by a callback that has read the health before; the operation
carries what it read, for the conditions on runs. -/
inductive ReadinessOp where
  | readinessState
  | readinessReason
  | markShuttingDown
  | markIdentityLeaseLost
  | markOwnershipDrift (previousState : WorkerReadinessState)
      (previousReason : WorkerReadinessReason)
  | clearOwnershipDrift
  | loadStartupComplete
  | storeStartupComplete
  | setStartupReady (isReady : Bool)

@[reducible] def ReadinessOp.Reply : ReadinessOp → Type
  | .readinessState => WorkerReadinessState
  | .readinessReason => WorkerReadinessReason
  | .loadStartupComplete => Bool
  | _ => Unit

abbrev readinessSig : Signature := ⟨ReadinessOp, ReadinessOp.Reply⟩

def ReadinessOp.run : (o : ReadinessOp) → ReadinessWorld → o.Reply × ReadinessWorld
  | .readinessState, w => (w.health.readinessState, w)
  | .readinessReason, w => (w.health.readinessReason, w)
  | .markShuttingDown, w => ((), { w with health := w.health.markShuttingDown })
  | .markIdentityLeaseLost,
      w => ((), { w with health := WorkerStatusSnapshot.markIdentityLeaseLost })
  | .markOwnershipDrift .., w => ((), { w with health := w.health.markOwnershipDrift })
  | .clearOwnershipDrift, w => ((), { w with health := w.health.clearOwnershipDrift })
  | .loadStartupComplete, w => (w.startupComplete, w)
  | .storeStartupComplete, w => ((), { w with startupComplete := true })
  | .setStartupReady isReady, w => ((), { w with ready := isReady })

def readinessMachine : Machine readinessSig Unit Unit Empty ReadinessWorld where
  exec _ o _ w := some (o.run w)
  env e _ := nomatch e

abbrev ReadinessProg := Prog readinessSig Empty

abbrev readinessCall (o : ReadinessOp) : ReadinessProg o.Reply := @Prog.op readinessSig Empty o

def recordTransitionIfChanged (previousState : WorkerReadinessState)
    (previousReason : WorkerReadinessReason) :
    ReadinessProg (Option (WorkerReadinessState × WorkerReadinessReason)) := do
  let newState ← readinessCall .readinessState
  let newReason ← readinessCall .readinessReason
  return if previousState ≠ newState ∨ previousReason ≠ newReason then some (newState, newReason)
    else none

def ownershipDriftStarted : ReadinessProg Unit := do
  let previousState ← readinessCall .readinessState
  let previousReason ← readinessCall .readinessReason
  readinessCall (.markOwnershipDrift previousState previousReason)
  match ← recordTransitionIfChanged previousState previousReason with
  | some _ => readinessCall (.setStartupReady false)
  | none => return ()

def ownershipDriftCleared : ReadinessProg Unit := do
  let previousState ← readinessCall .readinessState
  let previousReason ← readinessCall .readinessReason
  readinessCall .clearOwnershipDrift
  match ← recordTransitionIfChanged previousState previousReason with
  | some (newState, newReason) => do
    let complete ← readinessCall .loadStartupComplete
    if complete ∧ newState = .ready ∧ newReason = .serving then
      readinessCall (.setStartupReady true)
    else return ()
  | none => return ()

inductive ShutdownTrigger where
  | identityLeaseLost
  | processSignal (signal : String)
  | criticalServerFailed (listener : String)
  deriving DecidableEq

def ShutdownTrigger.readinessReason : ShutdownTrigger → WorkerReadinessReason
  | .identityLeaseLost => .identityLeaseLost
  | .processSignal _ | .criticalServerFailed _ => .shuttingDown

def ShutdownTrigger.applyTo (trigger : ShutdownTrigger) : ReadinessProg Unit :=
  if trigger.readinessReason = .identityLeaseLost then readinessCall .markIdentityLeaseLost
  else readinessCall .markShuttingDown

def requestShutdown (trigger : ShutdownTrigger) : ReadinessProg Unit := do
  let _previousState ← readinessCall .readinessState
  let _previousReason ← readinessCall .readinessReason
  trigger.applyTo
  let _newState ← readinessCall .readinessState
  let _newReason ← readinessCall .readinessReason
  readinessCall (.setStartupReady false)

def completeStartup : ReadinessProg Unit := do
  readinessCall .storeStartupComplete
  let state ← readinessCall .readinessState
  if state = .ready then do
    let reason ← readinessCall .readinessReason
    if reason = .serving then readinessCall (.setStartupReady true) else return ()
  else return ()

inductive ReadinessEntry where
  | completeStartup
  | ownershipDriftStarted
  | ownershipDriftCleared
  | requestShutdown (trigger : ShutdownTrigger)
  deriving DecidableEq

def readinessCode (_ : Unit) (entry : ReadinessEntry) : ReadinessProg ReadinessEntry := do
  match entry with
  | .completeStartup => completeStartup
  | .ownershipDriftStarted => ownershipDriftStarted
  | .ownershipDriftCleared => ownershipDriftCleared
  | .requestShutdown trigger => requestShutdown trigger
  return entry

abbrev ReadinessState := Sys readinessSig Unit ReadinessWorld Empty ReadinessEntry

abbrev ReadinessGuard := Guard readinessSig Unit Unit Empty ReadinessWorld ReadinessEntry

abbrev ReadinessRun (G : ReadinessGuard) : ReadinessState → ReadinessState → Prop :=
  Unbroken readinessMachine readinessCode G

/-- What a call has read still holds when it acts on it: the flag is raised while the worker is
serving, and a drift is marked on a serving worker by a callback that has read it as serving. -/
def currentReads : ReadinessGuard where
  op _ o _ w :=
    match o with
    | .setStartupReady true => w.health.Serving
    | .markOwnershipDrift previousState previousReason =>
      w.health.Serving → previousState = .ready ∧ previousReason = .serving
    | _ => True

end Chronos
