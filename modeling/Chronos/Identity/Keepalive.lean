import Chronos.Transition.Run
import Mathlib.Logic.Function.Basic
import Mathlib.Order.Lattice

/-! The identity lease and the task that keeps it alive. Moments are nanoseconds of the local
monotonic clock. Etcd is present with what it promises: the lease lives at least the reported time
to live from the moment a grant or a keepalive is processed. -/

namespace Chronos

def nanosPerSecond : Nat := 1000000000

def ttlNanos (ttl : Int) : Nat := ttl.toNat * nanosPerSecond

structure IdentityLeaseConfirmedWindow where
  deadline : Nat
  heartbeatInterval : Nat
  deriving DecidableEq

inductive IdentityKeepaliveResponseDecision where
  | confirmed (window : IdentityLeaseConfirmedWindow)
  | loseAuthority (reason : String)
  deriving DecidableEq

/-- The last moment that the local clock can tell is `clockRange`. An error is the text of the
internal error. -/
def identityLeaseConfirmedWindow (clockRange requestStartedAt responseObservedAt : Nat)
    (confirmedTtlSeconds : Int) : Except String IdentityLeaseConfirmedWindow :=
  if confirmedTtlSeconds ≤ 0 then
    .error ("Etcd identity lease response returned non-positive TTL: "
      ++ toString confirmedTtlSeconds)
  else if clockRange < requestStartedAt + ttlNanos confirmedTtlSeconds then
    .error ("Etcd identity lease response TTL " ++ toString confirmedTtlSeconds
      ++ "s exceeds the local monotonic clock range")
  else if requestStartedAt + ttlNanos confirmedTtlSeconds ≤ responseObservedAt then
    .error ("Etcd identity lease response TTL " ++ toString confirmedTtlSeconds
      ++ "s was already exhausted before confirmation")
  else
    .ok ⟨requestStartedAt + ttlNanos confirmedTtlSeconds,
      (requestStartedAt + ttlNanos confirmedTtlSeconds - responseObservedAt) / 3⟩

def identityKeepaliveResponseDecision (clockRange requestStartedAt responseObservedAt : Nat)
    (responseTtlSeconds : Int) : IdentityKeepaliveResponseDecision :=
  match identityLeaseConfirmedWindow clockRange requestStartedAt responseObservedAt
      responseTtlSeconds with
  | .ok window => .confirmed window
  | .error error => .loseAuthority ("keepalive_response_invalid: internal error: " ++ error)

variable {started observed : Nat} {ttl : Int} {window : IdentityLeaseConfirmedWindow}

lemma deadline_of_window {clockRange : Nat}
    (h : identityLeaseConfirmedWindow clockRange started observed ttl = .ok window) :
    window.deadline = started + ttlNanos ttl := by
  unfold identityLeaseConfirmedWindow at h
  split_ifs at h
  exact congrArg IdentityLeaseConfirmedWindow.deadline (Except.ok.inj h).symm

lemma deadline_of_confirmed {clockRange : Nat}
    (h : identityKeepaliveResponseDecision clockRange started observed ttl = .confirmed window) :
    window.deadline = started + ttlNanos ttl := by
  unfold identityKeepaliveResponseDecision at h
  split at h
  · next hwindow =>
    cases h
    exact deadline_of_window hwindow
  · cases h

structure LeaseGrant where
  ttl : Int
  expiresFrom : Nat
  deriving DecidableEq

/-- A keepalive request on its stream; etcd's answer is in it once it has been processed. -/
structure KeepaliveRequest where
  id : Nat
  answer : Option Int
  deriving DecidableEq

def answerFirst (ttl : Int) : List KeepaliveRequest → Option (List KeepaliveRequest)
  | [] => none
  | ⟨id, none⟩ :: rest => some (⟨id, some ttl⟩ :: rest)
  | request :: rest => (answerFirst ttl rest).map (request :: ·)

inductive LeasePhase where
  | granting (requestStartedAt : Nat)
  /-- The identity is being claimed and the first stream opened. -/
  | claiming
  | failed
  | sending (request requestStartedAt : Nat)
  | awaiting (request requestStartedAt : Nat)
  | sleeping (wakeAt : Nat)
  /-- At the top of the inner loop. -/
  | reconnecting
  | opening
  | ended
  deriving DecidableEq

structure Confirmation where
  answers : Nat
  timedFrom : Nat
  deriving DecidableEq

structure LeaseState where
  now : Nat
  /-- The earliest moment at which etcd may expire the lease. -/
  expiresFrom : Nat
  grants : List LeaseGrant
  /-- The requests of each stream whose answers have not been read. -/
  streams : Nat → List KeepaliveRequest
  stream : Nat
  nextStream : Nat
  nextRequest : Nat
  phase : LeasePhase
  leaseAliveUntil : Nat
  lost : Bool
  confirmations : List Confirmation

/-- The waits end with what was waited for, with an error or, at the deadline, elapsed. -/
inductive LeaseMove where
  | grantAnswered (attempt : Nat) | grantFailed | acquireFailed
  | sent | sendFailed (queued : Bool) | sendElapsed (queued : Bool)
  | answered | closed | responseElapsed
  | woke | heartbeatElapsed
  | checkDeadline | opened | openFailed | openElapsed
  deriving DecidableEq

inductive LeaseLabel where
  | pass (duration : Nat)
  | processGrant (ttl : Int)
  | process (stream : Nat) (ttl : Int)
  /-- A request that some opening of a stream sends itself. -/
  | processOpening (ttl : Int)
  | move (move : LeaseMove)
  deriving DecidableEq

namespace LeaseState

def initial (now : Nat) : LeaseState where
  now
  expiresFrom := 0
  grants := []
  streams _ := []
  stream := 0
  nextStream := 1
  nextRequest := 0
  phase := .granting now
  leaseAliveUntil := 0
  lost := false
  confirmations := []

variable (clockRange : Nat) (s : LeaseState)

def extend (ttl : Int) : LeaseState :=
  { s with expiresFrom := max s.expiresFrom (s.now + ttlNanos ttl) }

def enqueue (request : Nat) : LeaseState :=
  { s with streams := Function.update s.streams s.stream (s.streams s.stream ++ [⟨request, none⟩]) }

def beginRequest : LeaseState :=
  { s with nextRequest := s.nextRequest + 1, phase := .sending s.nextRequest s.now }

/-- The new stream has no answer outstanding: opening it has consumed the one to its own request. -/
def openStream : LeaseState :=
  { s with stream := s.nextStream, nextStream := s.nextStream + 1 }.beginRequest

def reconnect : LeaseState := { s with phase := .reconnecting }

def lose : LeaseState := { s with lost := true, phase := .ended }

def observeGrant (requestStartedAt : Nat) (grant : LeaseGrant) : LeaseState :=
  match identityLeaseConfirmedWindow clockRange requestStartedAt s.now grant.ttl with
  | .error _ => { s with phase := .failed }
  | .ok window =>
    { s with phase := .claiming, leaseAliveUntil := window.deadline,
             expiresFrom := grant.expiresFrom }

def observeResponse (request requestStartedAt answers : Nat) (ttl : Int) : LeaseState :=
  match identityKeepaliveResponseDecision clockRange requestStartedAt s.now ttl with
  | .loseAuthority _ => s.lose
  | .confirmed window =>
    { s with leaseAliveUntil := window.deadline
             phase := .sleeping (s.now + window.heartbeatInterval)
             confirmations := ⟨answers, request⟩ :: s.confirmations }

def moveStep (move : LeaseMove) : Option LeaseState :=
  match move, s.phase with
  | .grantAnswered attempt, .granting requestStartedAt =>
    s.grants[attempt]?.map (s.observeGrant clockRange requestStartedAt)
  | .grantFailed, .granting _ | .acquireFailed, .claiming => some { s with phase := .failed }
  | .opened, .claiming | .opened, .opening => some s.openStream
  | .sent, .sending request requestStartedAt =>
    some { s.enqueue request with phase := .awaiting request requestStartedAt }
  | .sendFailed queued, .sending request _ =>
    some (if queued then s.enqueue request else s).reconnect
  | .sendElapsed queued, .sending request _ =>
    if s.leaseAliveUntil ≤ s.now then some (if queued then s.enqueue request else s).reconnect
    else none
  | .answered, .awaiting request requestStartedAt =>
    match s.streams s.stream with
    | ⟨answers, some ttl⟩ :: rest =>
      some ({ s with streams := Function.update s.streams s.stream rest }.observeResponse clockRange
        request requestStartedAt answers ttl)
    | _ => none
  | .closed, .awaiting _ _ => some s.reconnect
  | .responseElapsed, .awaiting _ _ | .heartbeatElapsed, .sleeping _ | .openElapsed, .opening =>
    if s.leaseAliveUntil ≤ s.now then some s.reconnect else none
  | .woke, .sleeping wakeAt => if wakeAt ≤ s.now then some s.beginRequest else none
  | .checkDeadline, .reconnecting =>
    some (if s.leaseAliveUntil ≤ s.now then s.lose else { s with phase := .opening })
  | .openFailed, .opening => some s.reconnect
  | _, _ => none

def step : LeaseLabel → Option LeaseState
  | .pass duration => some { s with now := s.now + duration }
  | .processGrant ttl => some { s with grants := ⟨ttl, s.now + ttlNanos ttl⟩ :: s.grants }
  | .process stream ttl =>
    (answerFirst ttl (s.streams stream)).map fun requests =>
      { s.extend ttl with streams := Function.update s.streams stream requests }
  | .processOpening ttl => some (s.extend ttl)
  | .move move => s.moveStep clockRange move

end LeaseState

end Chronos
