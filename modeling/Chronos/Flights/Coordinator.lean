import Chronos.Transition.Run
import Mathlib.Logic.Function.Basic
import Mathlib.Data.Option.Basic

/-! The single flight in front of a generator's lease. The map holds one completion channel for each
generator whose lease is being worked on; a caller that finds one subscribes to it and waits until
the value changes or the last sender is gone. -/

namespace Chronos

/-- A watch channel. Its sender is shared; `arcs` counts the references to it. -/
structure FlightChannel where
  generator : Nat
  value : Bool
  version : Nat
  arcs : Nat
  receivers : Nat
  deriving DecidableEq

namespace FlightChannel

/-- Without a receiver nothing is stored. -/
def send (channel : FlightChannel) (value : Bool) : FlightChannel :=
  if channel.receivers = 0 then channel
  else { channel with value, version := channel.version + 1 }

def subscribe (channel : FlightChannel) : FlightChannel :=
  { channel with receivers := channel.receivers + 1 }

def unsubscribe (channel : FlightChannel) : FlightChannel :=
  { channel with receivers := channel.receivers - 1 }

def release (channel : FlightChannel) : FlightChannel := { channel with arcs := channel.arcs - 1 }

def changed (channel : FlightChannel) (seen : Nat) : Bool :=
  channel.version ≠ seen || channel.arcs = 0

end FlightChannel

inductive FlightPhase where
  | looping
  | entering
  /-- It has a receiver and has let go of the entry. -/
  | subscribed (channel seen : Nat)
  /-- It has signed up for its cancellation, and will look at the flag once more. -/
  | signedUp (channel seen : Nat)
  | waiting (channel seen : Nat) (notified : Bool)
  | holding (channel : Nat)
  | dropping (channel : Nat)
  | sent (channel : Nat)
  | removed (channel : Nat)
  | gone
  deriving DecidableEq

namespace FlightPhase

def guard : FlightPhase → Option Nat
  | holding channel | dropping channel | sent channel | removed channel => some channel
  | _ => none

def registered : FlightPhase → Option Nat
  | holding channel | dropping channel | sent channel => some channel
  | _ => none

def leaving : FlightPhase → Option Nat
  | removed channel => some channel
  | _ => none

def listens : FlightPhase → Option Nat
  | subscribed channel _ | signedUp channel _ | waiting channel _ _ => some channel
  | _ => none

def notify : FlightPhase → FlightPhase
  | waiting channel seen _ => waiting channel seen true
  | phase => phase

end FlightPhase

structure FlightCaller where
  generator : Nat
  cancellation : Option Nat
  phase : FlightPhase
  deriving DecidableEq

structure FlightState where
  flights : Nat → Option Nat
  channels : Nat → Option FlightChannel
  nextChannel : Nat
  callers : Nat → Option FlightCaller
  cancelled : Nat → Bool

/-- The steps of a caller, the last four those of its guard. -/
inductive FlightMove where
  | check | enter | borrow | look | wake | wakeCancelled | abandon
  | dropGuard | send | remove | dropSender
  deriving DecidableEq

inductive FlightLabel where
  | call (i generator : Nat) (cancellation : Option Nat)
  | move (i : Nat) (move : FlightMove)
  | cancel (cancellation : Nat)
  | notify (cancellation : Nat)
  deriving DecidableEq

namespace FlightState

def initial : FlightState := ⟨fun _ => none, fun _ => none, 0, fun _ => none, fun _ => false⟩

variable (s : FlightState)

def setPhase (i : Nat) (phase : FlightPhase) : FlightState :=
  { s with
    callers := Function.update s.callers i
      ((s.callers i).map fun caller => { caller with phase := phase }) }

def onChannel (channel : Nat) (f : FlightChannel → FlightChannel) : FlightState :=
  { s with channels := Function.update s.channels channel ((s.channels channel).map f) }

/-- A caller without an entry makes a channel, whose receiver is dropped at once; the map and the
guard share its sender. -/
def create (i generator : Nat) : FlightState :=
  { s.setPhase i (.holding s.nextChannel) with
    flights := Function.update s.flights generator (some s.nextChannel)
    channels := Function.update s.channels s.nextChannel (some ⟨generator, false, 0, 2, 0⟩)
    nextChannel := s.nextChannel + 1 }

/-- Takes the entry out of the map, whoever put it there, and with it the reference it holds. -/
def takeEntry (generator : Nat) : FlightState :=
  match s.flights generator with
  | none => s
  | some channel =>
    { s.onChannel channel FlightChannel.release with
      flights := Function.update s.flights generator none }

def leave (i : Nat) (caller : FlightCaller) (phase : FlightPhase) : FlightState :=
  match caller.phase.listens with
  | none => s.setPhase i phase
  | some channel => (s.onChannel channel FlightChannel.unsubscribe).setPhase i phase

def isCancelled (cancellation : Option Nat) : Bool := cancellation.any s.cancelled

def stepCaller (i : Nat) (caller : FlightCaller) : FlightMove → Option FlightState
  | .check =>
    match caller.phase with
    | .looping =>
      some (s.setPhase i (if s.isCancelled caller.cancellation then .gone else .entering))
    | _ => none
  | .enter =>
    match caller.phase with
    | .entering =>
      match s.flights caller.generator with
      | none => some (s.create i caller.generator)
      | some channel =>
        (s.channels channel).map fun found =>
          (s.onChannel channel FlightChannel.subscribe).setPhase i
            (.subscribed channel found.version)
    | _ => none
  | .borrow =>
    match caller.phase with
    | .subscribed channel seen =>
      (s.channels channel).map fun found =>
        if found.value then s.leave i caller .looping
        else if caller.cancellation.isSome then s.setPhase i (.signedUp channel seen)
        else s.setPhase i (.waiting channel seen false)
    | _ => none
  | .look =>
    match caller.phase with
    | .signedUp channel seen =>
      some (if s.isCancelled caller.cancellation then s.leave i caller .gone
        else s.setPhase i (.waiting channel seen false))
    | _ => none
  | .wake =>
    match caller.phase with
    | .waiting channel seen _ =>
      match s.channels channel with
      | some found => if found.changed seen then some (s.leave i caller .looping) else none
      | none => none
    | _ => none
  | .wakeCancelled =>
    match caller.phase with
    | .waiting _ _ true => some (s.leave i caller .gone)
    | _ => none
  | .abandon => if caller.phase.guard.isSome then none else some (s.leave i caller .gone)
  | .dropGuard =>
    match caller.phase with
    | .holding channel => some (s.setPhase i (.dropping channel))
    | _ => none
  | .send =>
    match caller.phase with
    | .dropping channel =>
      some ((s.onChannel channel fun found => found.send true).setPhase i (.sent channel))
    | _ => none
  | .remove =>
    match caller.phase with
    | .sent channel => some ((s.takeEntry caller.generator).setPhase i (.removed channel))
    | _ => none
  | .dropSender =>
    match caller.phase with
    | .removed channel => some ((s.onChannel channel FlightChannel.release).setPhase i .gone)
    | _ => none

def step : FlightLabel → Option FlightState
  | .call i generator cancellation =>
    match s.callers i with
    | some _ => none
    | none => some { s with
        callers := Function.update s.callers i (some ⟨generator, cancellation, .looping⟩) }
  | .cancel cancellation =>
    some { s with cancelled := Function.update s.cancelled cancellation true }
  | .notify cancellation =>
    if s.cancelled cancellation then
      some { s with
        callers := fun i => (s.callers i).map fun caller =>
          if caller.cancellation = some cancellation then
            { caller with phase := caller.phase.notify }
          else caller }
    else none
  | .move i move => (s.callers i).bind fun caller => s.stepCaller i caller move

end FlightState

end Chronos
