import Chronos.Transition.Run
import Chronos.Types
import Mathlib.Algebra.Group.Nat.Defs

/-! The route watch of a worker: a task that follows the timeline records through an etcd watch,
reconnects when the watch breaks, and tells the service about changed routes. -/

namespace Chronos

def timelineRouteUpdateFromRoutes (previousRoute : Option TimelineRoute)
    (nextRoute : TimelineRoute) : Option TimelineRoute :=
  if (previousRoute.map fun route => decide (route ≠ nextRoute)).getD true then some nextRoute
  else none

inductive RouteUpdateSignal where
  | route (route : TimelineRoute)
  | reset
  deriving DecidableEq

inductive RouteWrite where
  | put (route : TimelineRoute)
  | delete (timelineKey : String)
  deriving DecidableEq

def RouteWrite.timelineKey : RouteWrite → String
  | put route => route.timelineKey
  | delete key => key

structure RouteEvent where
  revision : Nat
  write : RouteWrite
  previous : Option TimelineRoute
  deriving DecidableEq

def RouteEvent.changed (event : RouteEvent) : Option TimelineRoute :=
  match event.write with
  | .put route => timelineRouteUpdateFromRoutes event.previous route
  | .delete _ => none

inductive WatchEvent where
  | delete
  | missingKv
  | undecodable
  | put (route : TimelineRoute) (prevRoute : Option TimelineRoute)
  deriving DecidableEq

structure WatchResponse where
  headerRevision : Option Nat
  compactRevision : Nat
  canceled : Bool
  events : List WatchEvent
  deriving DecidableEq

/-- How the store may show an event: a value may be unreadable or missing, and so may the previous
value. -/
def RouteEvent.shows (event : RouteEvent) : WatchEvent → Bool
  | .delete => event.write = .delete event.write.timelineKey
  | .missingKv | .undecodable => event.write ≠ .delete event.write.timelineKey
  | .put route prevRoute =>
    event.write = .put route && (prevRoute = none || prevRoute = event.previous)

def remaining : List RouteEvent → List WatchEvent → Option (List RouteEvent)
  | pending, [] => some pending
  | event :: pending, shown :: rest =>
    if event.shows shown then remaining pending rest else none
  | [], _ :: _ => none

structure WatchTask where
  nextWatchRevision : Option Nat
  consecutiveFailures : Nat
  resetSentForOutage : Bool
  deriving DecidableEq

def WatchTask.initial : WatchTask := ⟨none, 0, false⟩

namespace WatchTask

def failed (task : WatchTask) : WatchTask :=
  { task with consecutiveFailures := min (task.consecutiveFailures + 1) (2 ^ 32 - 1) }

def sendRouteWatchResetOnce (task : WatchTask) : WatchTask × List RouteUpdateSignal :=
  if task.resetSentForOutage then (task, [])
  else ({ task with resetSentForOutage := true }, [.reset])

def reconnect (task : WatchTask) : WatchTask × List RouteUpdateSignal :=
  task.failed.sendRouteWatchResetOnce

/-- After a compaction, a cancellation or an unreadable event the revision is dropped. -/
def restart (task : WatchTask) : WatchTask × List RouteUpdateSignal :=
  { task.failed with nextWatchRevision := none }.sendRouteWatchResetOnce

def handleEvents (task : WatchTask) : List WatchEvent → WatchTask × List RouteUpdateSignal × Bool
  | [] => (task, [], true)
  | .delete :: rest => task.handleEvents rest
  | .missingKv :: _ | .undecodable :: _ => (task.restart.1, task.restart.2, false)
  | .put route prevRoute :: rest =>
    let result := task.handleEvents rest
    (result.1, ((timelineRouteUpdateFromRoutes prevRoute route).map .route).toList ++ result.2.1,
      result.2.2)

def nextRevision (revision : Nat) : Option Nat :=
  if revision + 1 < 2 ^ 63 then some (revision + 1) else none

def readHeader (task : WatchTask) : Option Nat → WatchTask
  | some revision =>
    if revision > 0 then { task with nextWatchRevision := nextRevision revision } else task
  | none => task

def handleResponse (task : WatchTask) (response : WatchResponse) :
    WatchTask × List RouteUpdateSignal × Bool :=
  let task := task.readHeader response.headerRevision
  if response.compactRevision > 0 then (task.restart.1, task.restart.2, false)
  else if response.canceled then (task.restart.1, task.restart.2, false)
  else task.handleEvents response.events

def startRevision (task : WatchTask) : Option Nat :=
  task.nextWatchRevision.filter fun revision => revision > 0

end WatchTask

inductive WatchTrace where
  | commit (event : RouteEvent)
  | signal (signal : RouteUpdateSignal)
  | connected
  deriving DecidableEq

structure WatchWorld where
  revision : Nat
  routes : String → Option TimelineRoute
  /-- Every committed write, oldest first. -/
  log : List RouteEvent
  task : WatchTask
  /-- The events that the stream has yet to deliver, while there is one. -/
  connection : Option (List RouteEvent)
  running : Bool
  trace : List WatchTrace

def WatchWorld.initial (revision : Nat) (routes : String → Option TimelineRoute)
    (log : List RouteEvent) : WatchWorld :=
  ⟨revision, routes, log, .initial, none, true, []⟩

inductive WatchLabel where
  | commit (writes : List RouteWrite)
  | connect
  | connectFailed
  | receive (response : WatchResponse)
  | streamClosed
  | streamFailed
  | shutdown
  deriving DecidableEq

namespace WatchWorld

variable (w : WatchWorld)

def events (writes : List RouteWrite) : List RouteEvent :=
  writes.map fun write => ⟨w.revision + 1, write, w.routes write.timelineKey⟩

def commit (writes : List RouteWrite) : WatchWorld :=
  { w with
    revision := w.revision + 1
    routes := fun key =>
      match writes.find? fun write => write.timelineKey = key with
      | some (.put route) => some route
      | some (.delete _) => none
      | none => w.routes key
    log := w.log ++ w.events writes
    connection := w.connection.map (· ++ w.events writes)
    trace := (w.events writes).reverse.map .commit ++ w.trace }

def move (task : WatchTask) (signals : List RouteUpdateSignal)
    (connection : Option (List RouteEvent)) : WatchWorld :=
  { w with
    task := task
    connection := connection
    trace := signals.reverse.map .signal ++ w.trace }

/-- A new stream: from a start revision on it has every event since, otherwise only new ones. -/
def connected : WatchWorld :=
  { w with
    task := { w.task with consecutiveFailures := 0, resetSentForOutage := false }
    connection := some (match w.task.startRevision with
      | some start => w.log.filter fun event => start ≤ event.revision
      | none => [])
    trace := .connected :: w.trace }

def step : WatchLabel → Option WatchWorld
  | .commit writes => if w.revision + 1 < 2 ^ 63 then some (w.commit writes) else none
  | .connect => if w.running && w.connection.isNone then some w.connected else none
  | .connectFailed =>
    if w.running && w.connection.isNone then some
      (w.move w.task.reconnect.1 w.task.reconnect.2 none)
    else none
  | .receive response =>
    match w.connection with
    | none => none
    | some pending =>
      if response.headerRevision.all (· ≤ w.revision) then
        (remaining pending response.events).map fun rest =>
          let (task, signals, goesOn) := w.task.handleResponse response
          w.move task signals (if goesOn then some rest else none)
      else none
  | .streamClosed | .streamFailed =>
    if w.connection.isSome then some (w.move w.task.reconnect.1 w.task.reconnect.2 none) else none
  | .shutdown => some { w with running := false, connection := none }

end WatchWorld

end Chronos
