import Chronos.Interleaving.Discipline
import Chronos.Types

/-! Single-flight loads of one key. The first caller makes a flight and loads; callers that come
while the flight is current wait for its result. -/

namespace Chronos

open Interleaving Discipline Option

inductive FlightEntry where
  | vacant (flight : Nat)
  | occupied (flight : Nat)
  deriving DecidableEq

/-- The atomic operations of `load_once`. `invoke` reads off the moment at which the call is made,
and `enter` and `load` name the call and the flight they are for. -/
inductive LoadOp (V : Type) where
  | invoke
  | isCancelled
  | enter (invokedAt : Nat)
  | load (flight : Nat)
  | publish (flight : Nat) (result : Except TsoError V)
  | finish (flight : Nat)
  | result (flight : Nat)
  | flightIsCurrent (flight : Nat)
  | notified (flight : Nat)
  | awaitNotified (flight seen : Nat) (cancellable : Bool)

@[reducible] def LoadOp.Reply {V : Type} : LoadOp V → Type
  | .invoke | .notified _ => Nat
  | .isCancelled | .flightIsCurrent _ | .awaitNotified .. => Bool
  | .enter _ => FlightEntry
  | .load _ => Except TsoError V
  | .publish .. | .finish _ => Unit
  | .result _ => Option (Except TsoError V)

abbrev loadSig (V : Type) : Signature := ⟨LoadOp V, LoadOp.Reply⟩

abbrev onFlights {V : Type} (o : LoadOp V) : Prog (loadSig V) TsoError o.Reply :=
  @Prog.op (loadSig V) TsoError o

section

variable {V : Type} (cancellable : Bool)

def checkLoadCancellation : Prog (loadSig V) TsoError Unit :=
  if cancellable then do
    if ← onFlights .isCancelled then .fail .requestCancelled else return ()
  else return ()

def waitForFlightResult (flight : Nat) :
    Nat → Prog (loadSig V) TsoError (Option (Except TsoError V))
  | 0 => .fail .requestCancelled
  | fuel + 1 => do
    match ← onFlights (.result flight) with
    | some result => return some result
    | none =>
      if ← onFlights (.flightIsCurrent flight) then do
        let seen ← onFlights (.notified flight)
        match ← onFlights (.result flight) with
        | some result => return some result
        | none =>
          if ← onFlights (.flightIsCurrent flight) then do
            if ← onFlights (.awaitNotified flight seen cancellable) then
              waitForFlightResult flight fuel
            else .fail .requestCancelled
          else return none
      else return none

def publishUnlessCancelled (flight : Nat) (result : Except TsoError V) :
    Prog (loadSig V) TsoError Unit :=
  match result with
  | .error .requestCancelled => return ()
  | _ => onFlights (.publish flight result)

def ownFlight (flight : Nat) : Prog (loadSig V) TsoError V := do
  let result ← onFlights (.load flight)
  publishUnlessCancelled flight result
  onFlights (.finish flight)
  .ofExcept result

def loadOnceLoop (invokedAt waitFuel : Nat) : Nat → Prog (loadSig V) TsoError V
  | 0 => .fail .requestCancelled
  | fuel + 1 => do
    checkLoadCancellation cancellable
    match ← onFlights (.enter invokedAt) with
    | .vacant flight => ownFlight flight
    | .occupied flight => do
      match ← waitForFlightResult cancellable flight waitFuel with
      | some result => .ofExcept result
      | none => loadOnceLoop invokedAt waitFuel fuel

/-- A call of `load_once`; its value comes with the moment of the call. -/
def loadOnce (waitFuel fuel : Nat) : Prog (loadSig V) TsoError (Nat × V) := do
  let invokedAt ← onFlights .invoke
  let value ← loadOnceLoop cancellable invokedAt waitFuel fuel
  return (invokedAt, value)

end

structure TimelineLoadFlight (V : Type) where
  result : Option (Except TsoError V) := none
  notifications : Nat := 0

structure StoreRead (V : Type) where
  flight : Nat
  moment : Nat
  value : V
  deriving DecidableEq

/-- A caller whose call was made at some moment has joined a flight. -/
structure FlightJoin where
  caller : Nat
  flight : Nat
  invokedAt : Nat
  deriving DecidableEq

/-- The store is given by its first value and what was written since; a moment is the number of
writes before it. -/
structure LoadWorld (V : Type) where
  first : V
  writes : List V
  /-- Every flight that was made; the map holds the position of the current one. -/
  flights : List (TimelineLoadFlight V)
  current : Option Nat
  reads : List (StoreRead V)
  joins : List FlightJoin

namespace LoadWorld

variable {V : Type} (w : LoadWorld V)

def initial (first : V) : LoadWorld V where
  first := first
  writes := []
  flights := []
  current := none
  reads := []
  joins := []

def moment : Nat := w.writes.length

def valueAt (moment : Nat) : Option V := (w.first :: w.writes)[moment]?

def value : V := (w.first :: w.writes).getLast (List.cons_ne_nil _ _)

/-- `remove_flight_if_current` and the notification of the waiters. -/
def release (flight : Nat) : LoadWorld V :=
  { w with
    current := if w.current = some flight then none else w.current
    flights := w.flights.modify flight fun x => { x with notifications := x.notifications + 1 } }

end LoadWorld

inductive LoadChoice where
  | go
  | flag (value : Bool)
  | error (e : TsoError)
  deriving DecidableEq

/-- Others write to the store, and an owner that is dropped lets go of its flight. -/
inductive LoadEvent (V : Type) where
  | write (value : V)
  | dropOwner (flight : Nat)

variable {V : Type}

def loadAct (caller : Nat) (w : LoadWorld V) : (o : LoadOp V) → LoadChoice →
    Option (o.Reply × LoadWorld V)
  | .invoke, .go => some (w.moment, w)
  | .isCancelled, .flag b => some (b, w)
  | .enter invokedAt, .go =>
    match w.current with
    | some flight => some (.occupied flight,
        { w with joins := ⟨caller, flight, invokedAt⟩ :: w.joins })
    | none => some (.vacant w.flights.length,
        { w with flights := w.flights ++ [{}], current := some w.flights.length })
  | .load flight, .go =>
    some (.ok w.value, { w with reads := ⟨flight, w.moment, w.value⟩ :: w.reads })
  | .load _, .error e => some (.error e, w)
  | .publish flight result, .go =>
    some ((), { w with flights := w.flights.modify flight fun x =>
      { x with result := some result } })
  | .finish flight, .go => some ((), w.release flight)
  | .result flight, .go => some (w.flights[flight]?.bind (·.result), w)
  | .flightIsCurrent flight, .go => some (w.current = some flight, w)
  | .notified flight, .go => some ((w.flights[flight]?.map (·.notifications)).getD 0, w)
  | .awaitNotified flight seen cancellable, .flag cancelled =>
    if cancelled then
      if cancellable then some (false, w) else none
    else if seen < (w.flights[flight]?.map (·.notifications)).getD 0 then some (true, w)
    else none
  | _, _ => none

def loadMachine (V : Type) : Machine (loadSig V) Nat LoadChoice (LoadEvent V) (LoadWorld V) where
  exec caller o c w := loadAct caller w o c
  env e w :=
    match e with
    | .write value => some { w with writes := w.writes ++ [value] }
    | .dropOwner flight => some (w.release flight)

structure LoadCall where
  cancellable : Bool
  waitFuel : Nat
  fuel : Nat
  deriving DecidableEq

def loadCode (V : Type) (_caller : Nat) (e : LoadCall) : Prog (loadSig V) TsoError (Nat × V) :=
  loadOnce e.cancellable e.waitFuel e.fuel

abbrev LoadGuard (V : Type) := Guard (loadSig V) Nat LoadChoice (LoadEvent V) (LoadWorld V) LoadCall

abbrev LoadRun (G : LoadGuard V) (first : V)
    (s : Sys (loadSig V) Nat (LoadWorld V) TsoError (Nat × V)) : Prop :=
  Reach (loadMachine V) (loadCode V) G ⟨.initial first, []⟩ s

/-- A flight that has read the store before the call was made is joined only while the store holds
what was read. -/
def freshJoins : LoadGuard V where
  op _ o _ w :=
    match o with
    | .enter invokedAt => ∀ r ∈ w.reads, w.current = some r.flight →
        invokedAt ≤ r.moment ∨ r.value = w.value
    | _ => True

section

variable [DecidableEq V]

instance : (freshJoins (V := V)).Checked where
  op _ o _ _ := by
    unfold freshJoins
    cases o <;> infer_instance

def LoadOp.usual : LoadOp V → LoadChoice
  | .isCancelled | .awaitNotified .. => .flag false
  | _ => .go

abbrev LoadCommand (V : Type) := Command Nat LoadCall LoadChoice (LoadEvent V)

/-- A first caller has read the store for its flight, then there are some writes, and a second
caller joins the flight and waits for its result. -/
def joinedAfterRead (writes : List (LoadEvent V)) : List (LoadCommand V) :=
  [.label (.spawn 0 ⟨false, 1, 1⟩), .drive 0 3] ++ writes.map (fun e => .label (.env e)) ++
    [.label (.spawn 1 ⟨false, 1, 1⟩), .drive 1 2]

end

section

variable {w w' : LoadWorld V}

instance : Preorder (LoadWorld V) where
  le w w' := w'.first = w.first ∧ w.writes <+: w'.writes ∧ w.reads <:+ w'.reads ∧
    w.joins <:+ w'.joins
  le_refl w := ⟨rfl, List.prefix_rfl, List.suffix_rfl, List.suffix_rfl⟩
  le_trans _ _ _ h h' := ⟨h'.1.trans h.1, h.2.1.trans h'.2.1, h.2.2.1.trans h'.2.2.1,
    h.2.2.2.trans h'.2.2.2⟩

lemma LoadWorld.moment_mono (h : w ≤ w') : w.moment ≤ w'.moment := h.2.1.length_le

variable {n caller : Nat} {v : V} {o : LoadOp V} {c : LoadChoice}

lemma LoadWorld.valueAt_mono (h : w ≤ w') (hv : w.valueAt n = some v) :
    w'.valueAt n = some v := by
  obtain ⟨hfirst, ⟨newer, hwrites⟩, -, -⟩ := h
  rw [valueAt, hfirst, ← hwrites, ← List.cons_append]
  exact List.getElem?_append_left (List.getElem?_eq_some_iff.mp hv).1 ▸ hv

lemma LoadWorld.valueAt_moment : w.valueAt w.moment = some w.value := by
  rw [valueAt, value, moment, List.getLast_eq_getElem]
  simp

lemma LoadWorld.le_moment_of_valueAt (h : w.valueAt n = some v) : n ≤ w.moment := by
  have hlt := (List.getElem?_eq_some_iff.mp h).1
  exact Nat.lt_succ_iff.mp hlt

lemma LoadWorld.le_write (v : V) : w ≤ { w with writes := w.writes ++ [v] } :=
  ⟨rfl, List.prefix_append _ _, List.suffix_rfl, List.suffix_rfl⟩

lemma LoadWorld.le_release (flight : Nat) : w ≤ w.release flight :=
  ⟨rfl, List.prefix_rfl, List.suffix_rfl, List.suffix_rfl⟩

structure LoadInv (w : LoadWorld V) : Prop where
  published : ∀ flight x v, w.flights[flight]? = some x → x.result = some (.ok v) →
    ∃ n, ⟨flight, n, v⟩ ∈ w.reads
  held : ∀ r ∈ w.reads, w.valueAt r.moment = some r.value

lemma loadAct_cases {r : o.Reply} (h : loadAct caller w o c = some (r, w')) : w' = w ∨
    (∃ invokedAt flight, o = .enter invokedAt ∧ w.current = some flight ∧
      w' = { w with joins := ⟨caller, flight, invokedAt⟩ :: w.joins }) ∨
    (∃ invokedAt, o = .enter invokedAt ∧
      w' = { w with flights := w.flights ++ [{}], current := some w.flights.length }) ∨
    (∃ flight, o = .load flight ∧ w' = { w with reads := ⟨flight, w.moment, w.value⟩ :: w.reads }) ∨
    (∃ flight result, o = .publish flight result ∧ w' = { w with
      flights := w.flights.modify flight fun x => { x with result := some result } }) ∨
    ∃ flight, o = .finish flight ∧ w' = w.release flight := by
  cases o with
  | enter invokedAt =>
    cases c <;> simp only [loadAct, reduceCtorEq] at h
    split at h
    · next flight hcurrent =>
      exact .inr (.inl ⟨invokedAt, flight, rfl, hcurrent, (Prod.mk.inj (some.inj h)).2.symm⟩)
    · exact .inr (.inr (.inl ⟨invokedAt, rfl, (Prod.mk.inj (some.inj h)).2.symm⟩))
  | load flight =>
    cases c with
    | go => exact .inr (.inr (.inr (.inl ⟨flight, rfl, (Prod.mk.inj (some.inj h)).2.symm⟩)))
    | error e => exact .inl (Prod.mk.inj (some.inj h)).2.symm
    | flag b => cases h
  | publish flight result =>
    cases c <;> simp only [loadAct, reduceCtorEq] at h
    exact .inr (.inr (.inr (.inr (.inl
      ⟨flight, result, rfl, (Prod.mk.inj (some.inj h)).2.symm⟩))))
  | finish flight =>
    cases c <;> simp only [loadAct, reduceCtorEq] at h
    exact .inr (.inr (.inr (.inr (.inr ⟨flight, rfl, (Prod.mk.inj (some.inj h)).2.symm⟩))))
  | awaitNotified flight seen cancellable =>
    cases c <;> simp only [loadAct, reduceCtorEq] at h
    split_ifs at h <;> exact .inl (Prod.mk.inj (some.inj h)).2.symm
  | _ =>
    cases c <;> simp only [loadAct, reduceCtorEq] at h
    exact .inl (Prod.mk.inj (some.inj h)).2.symm

lemma le_of_loadAct {r : o.Reply} (h : loadAct caller w o c = some (r, w')) : w ≤ w' := by
  obtain rfl | ⟨_, _, -, -, rfl⟩ | ⟨_, -, rfl⟩ | ⟨_, -, rfl⟩ | ⟨_, _, -, rfl⟩ | ⟨_, -, rfl⟩ :=
    loadAct_cases h
  · exact le_rfl
  · exact ⟨rfl, List.prefix_rfl, List.suffix_rfl, List.suffix_cons _ _⟩
  · exact ⟨rfl, List.prefix_rfl, List.suffix_rfl, List.suffix_rfl⟩
  · exact ⟨rfl, List.prefix_rfl, List.suffix_cons _ _, List.suffix_rfl⟩
  · exact ⟨rfl, List.prefix_rfl, List.suffix_rfl, List.suffix_rfl⟩
  · exact LoadWorld.le_release _

def LoadAllowed : LoadOp V → LoadWorld V → Prop
  | .publish flight (.ok v), w => ∃ n, ⟨flight, n, v⟩ ∈ w.reads
  | .enter invokedAt, w => invokedAt ≤ w.moment
  | _, _ => True

variable (h : LoadInv w)

include h

lemma LoadInv.release (flight : Nat) : LoadInv (w.release flight) := by
  refine ⟨fun i x v hx hv => ?_, h.held⟩
  obtain ⟨y, hy, rfl⟩ : ∃ y, w.flights[i]? = some y ∧
      (if flight = i then { y with notifications := y.notifications + 1 } else y) = x := by
    simpa [LoadWorld.release, List.getElem?_modify] using hx
  refine h.published i y v hy ?_
  split_ifs at hv <;> exact hv

lemma LoadInv.publish {flight : Nat} {res : Except TsoError V}
    (hread : ∀ v, res = .ok v → ∃ n, ⟨flight, n, v⟩ ∈ w.reads) :
    LoadInv { w with
      flights := w.flights.modify flight fun x => { x with result := some res } } := by
  refine ⟨fun i x v hx hv => ?_, h.held⟩
  obtain ⟨y, hy, rfl⟩ : ∃ y, w.flights[i]? = some y ∧
      (if flight = i then { y with result := some res } else y) = x := by
    simpa [List.getElem?_modify] using hx
  split_ifs at hv with heq
  · exact heq ▸ hread v (some.inj hv)
  · exact h.published i y v hy hv

lemma LoadInv.act {r : o.Reply} (hallowed : LoadAllowed o w)
    (hact : loadAct caller w o c = some (r, w')) : LoadInv w' := by
  obtain rfl | ⟨_, _, -, -, rfl⟩ | ⟨_, -, rfl⟩ | ⟨flight, -, rfl⟩ | ⟨flight, res, rfl, rfl⟩ |
    ⟨flight, -, rfl⟩ := loadAct_cases hact
  · exact h
  · exact ⟨h.published, h.held⟩
  · refine ⟨fun i x v hx hv => ?_, h.held⟩
    rcases Nat.lt_or_ge i w.flights.length with hi | hi
    · rw [List.getElem?_append_left hi] at hx
      exact h.published i x v hx hv
    -- the new flight has no result
    rw [List.getElem?_append_right hi] at hx
    obtain rfl := List.mem_singleton.mp (List.mem_of_getElem? hx)
    cases hv
  · refine ⟨fun i x v hx hv => ?_, fun r hr => ?_⟩
    · obtain ⟨n, hn⟩ := h.published i x v hx hv
      exact ⟨n, List.mem_cons_of_mem _ hn⟩
    rcases List.mem_cons.mp hr with rfl | hr
    · exact LoadWorld.valueAt_moment
    · exact h.held r hr
  · refine h.publish fun v hv => ?_
    subst hv
    exact hallowed
  · exact h.release flight

end

def loadDiscipline (V : Type) : Discipline (loadMachine V) where
  Inv := LoadInv
  Allowed _ := LoadAllowed
  exec_inv hinv hallowed hexec := hinv.act hallowed hexec
  exec_le _ _ hexec := le_of_loadAct hexec
  env_inv {e w w'} hinv henv := by
    cases e with
    | write v =>
      obtain rfl := Option.some.inj henv
      exact ⟨hinv.published, fun r hr => LoadWorld.valueAt_mono (LoadWorld.le_write v)
        (hinv.held r hr)⟩
    | dropOwner flight => exact Option.some.inj henv ▸ hinv.release flight
  env_le {e w w'} _ henv := by
    cases e with
    | write v => exact Option.some.inj henv ▸ LoadWorld.le_write v
    | dropOwner flight => exact Option.some.inj henv ▸ LoadWorld.le_release flight

section

variable {w w' : LoadWorld V} {caller invokedAt flight : Nat} {v : V} {α : Type}

def Received (caller invokedAt : Nat) (v : V) (w : LoadWorld V) : Prop :=
  (∃ n, invokedAt ≤ n ∧ w.valueAt n = some v) ∨
    ∃ flight n, ⟨caller, flight, invokedAt⟩ ∈ w.joins ∧ ⟨flight, n, v⟩ ∈ w.reads

lemma Received.mono (h : Received caller invokedAt v w) (hle : w ≤ w') :
    Received caller invokedAt v w' := by
  rcases h with ⟨n, hn, hv⟩ | ⟨flight, n, hjoin, hread⟩
  · exact .inl ⟨n, hn, LoadWorld.valueAt_mono hle hv⟩
  · exact .inr ⟨flight, n, hle.2.2.2.subset hjoin, hle.2.2.1.subset hread⟩

abbrev LoadSafe (caller : Nat) (prog : Prog (loadSig V) TsoError α)
    (R : α → LoadWorld V → Prop) (w : LoadWorld V) : Prop :=
  (loadDiscipline V).Safe caller prog (OnOk R) w

variable {o : LoadOp V} {R : α → LoadWorld V → Prop} {cancellable : Bool} {waitFuel : Nat}

lemma loadSafe_bind {k : o.Reply → Prog (loadSig V) TsoError α}
    (hallowed : ∀ w1, w ≤ w1 → LoadAllowed o w1)
    (hnext : ∀ w1 c r w2, w ≤ w1 → LoadInv w1 → loadAct caller w1 o c = some (r, w2) → w1 ≤ w2 →
      LoadSafe caller (k r) R w2) :
    LoadSafe caller (onFlights o >>= k) R w :=
  fun w1 hle hinv => ⟨hallowed w1 hle,
    fun c r w2 hexec => hnext w1 c r w2 hle hinv hexec (le_of_loadAct hexec)⟩

lemma loadSafe_skip {k : o.Reply → Prog (loadSig V) TsoError α}
    (hallowed : ∀ w1, w ≤ w1 → LoadAllowed o w1)
    (hnext : ∀ r w1, w ≤ w1 → LoadSafe caller (k r) R w1) :
    LoadSafe caller (onFlights o >>= k) R w :=
  loadSafe_bind hallowed fun _ _ r w2 hle _ _ h2 => hnext r w2 (hle.trans h2)

def OutOf (flight : Nat) (result : Option (Except TsoError V)) (w : LoadWorld V) : Prop :=
  ∀ v, result = some (.ok v) → ∃ n, ⟨flight, n, v⟩ ∈ w.reads

lemma loadSafe_result {k : Option (Except TsoError V) → Prog (loadSig V) TsoError α}
    (hnext : ∀ res w1, w ≤ w1 → OutOf flight res w1 → LoadSafe caller (k res) R w1) :
    LoadSafe caller (onFlights (.result flight) >>= k) R w := by
  refine loadSafe_bind (fun _ _ => trivial) fun w1 c r w2 hle hinv hact _ => ?_
  cases c <;> simp only [loadAct, reduceCtorEq] at hact
  cases hact
  refine hnext _ w1 hle fun v hv => ?_
  obtain ⟨x, hx, hres⟩ := bind_eq_some_iff.mp hv
  exact hinv.published flight x v hx hres

lemma loadSafe_waitForFlightResult (fuel : Nat) :
    LoadSafe caller (waitForFlightResult cancellable flight fuel) (OutOf flight) w := by
  have hreturn : ∀ res (w1 : LoadWorld V), OutOf flight res w1 →
      LoadSafe caller (pure res) (OutOf flight) w1 := by
    intro res w1 hres w2 hle v hv
    obtain ⟨n, hn⟩ := hres v hv
    exact ⟨n, hle.2.2.1.subset hn⟩
  have hnone : ∀ w1 : LoadWorld V, LoadSafe caller (pure none) (OutOf flight) w1 :=
    fun w1 => hreturn none w1 nofun
  induction fuel generalizing w with
  | zero => exact safe_fail
  | succ fuel ih =>
    refine loadSafe_result fun res w1 _ hres => ?_
    split
    · exact hreturn _ w1 hres
    refine loadSafe_skip (fun _ _ => trivial) fun isCurrent w2 _ => ?_
    split
    · refine loadSafe_skip (fun _ _ => trivial) fun seen w3 _ => ?_
      refine loadSafe_result fun res' w4 _ hres' => ?_
      split
      · exact hreturn _ w4 hres'
      refine loadSafe_skip (fun _ _ => trivial) fun stillCurrent w5 _ => ?_
      split
      · refine loadSafe_skip (fun _ _ => trivial) fun woken w6 _ => ?_
        split
        · exact ih
        · exact safe_fail
      · exact hnone w5
    · exact hnone w2

lemma loadSafe_ownFlight (hinvoked : invokedAt ≤ w.moment) :
    LoadSafe caller (ownFlight flight) (Received caller invokedAt) w := by
  refine loadSafe_bind (fun _ _ => trivial) fun w1 c result w2 hle _ hact _ => ?_
  -- what was loaded is in the store and among the reads of the flight
  have hread : ∀ v, result = .ok v → Received caller invokedAt v w2 ∧
      ∃ n, ⟨flight, n, v⟩ ∈ w2.reads := by
    rintro v rfl
    cases c with
    | go =>
      obtain ⟨hv, rfl⟩ := Prod.mk.inj (Option.some.inj hact)
      cases hv
      exact ⟨.inl ⟨w1.moment, Nat.le_trans hinvoked (LoadWorld.moment_mono hle),
        LoadWorld.valueAt_moment⟩, w1.moment, List.mem_cons_self⟩
    | error e => cases (Prod.mk.inj (Option.some.inj hact)).1
    | flag b => cases hact
  have hrest : ∀ w3, w2 ≤ w3 → LoadSafe caller
      (onFlights (.finish flight) >>= fun _ => .ofExcept result)
        (Received caller invokedAt) w3 := by
    intro w3 h3
    refine loadSafe_skip (fun _ _ => trivial) fun _ w4 h4 => ?_
    exact safe_ofExcept fun v hv w5 h5 => (hread v hv).1.mono (h3.trans (h4.trans h5))
  unfold publishUnlessCancelled
  split
  · exact hrest w2 le_rfl
  refine loadSafe_skip (fun w3 h3 => ?_) fun _ w3 h3 => hrest w3 h3
  cases result with
  | error e => trivial
  | ok v =>
    obtain ⟨n, hn⟩ := (hread v rfl).2
    exact ⟨n, h3.2.2.1.subset hn⟩

lemma loadSafe_loadOnceLoop (fuel : Nat) (hinvoked : invokedAt ≤ w.moment) (hinv : LoadInv w) :
    LoadSafe caller (loadOnceLoop cancellable invokedAt waitFuel fuel)
      (Received caller invokedAt) w := by
  induction fuel generalizing w with
  | zero => exact safe_fail
  | succ fuel ih =>
    have hcheck : LoadSafe caller (checkLoadCancellation cancellable) (fun _ _ => True) w := by
      unfold checkLoadCancellation
      split
      · refine loadSafe_skip (fun _ _ => trivial) fun cancelled w1 _ => ?_
        split
        · exact safe_fail
        · exact safe_done
      · exact safe_done
    refine Safe.bind hcheck hinv fun _ w1 h1 _ _ => ?_
    have hlater : ∀ w2, w1 ≤ w2 → invokedAt ≤ w2.moment := fun w2 h2 =>
      Nat.le_trans hinvoked (LoadWorld.moment_mono (h1.trans h2))
    refine loadSafe_bind hlater fun w2 c entry w3 h2 hinv2 hact h3 => ?_
    have hinv3 : LoadInv w3 := hinv2.act (o := .enter invokedAt) (hlater w2 h2) hact
    cases c <;> simp only [loadAct, reduceCtorEq] at hact
    split at hact
    · next flight _ =>
      cases hact
      refine Safe.bind (loadSafe_waitForFlightResult waitFuel) hinv3 fun res w4 h4 hinv4 hres => ?_
      have hjoin := h4.2.2.2.subset List.mem_cons_self
      split
      · next res =>
        refine safe_ofExcept fun v hv w5 h5 => ?_
        obtain ⟨n, hn⟩ := hres v (congrArg some hv)
        exact .inr ⟨flight, n, h5.2.2.2.subset hjoin, h5.2.2.1.subset hn⟩
      · exact ih (hlater w4 (h2.trans (h3.trans h4))) hinv4
    · cases hact
      exact loadSafe_ownFlight (hlater _ (h2.trans h3))

lemma loadSafe_loadOnce {fuel : Nat} :
    LoadSafe caller (loadOnce (V := V) cancellable waitFuel fuel)
      (fun x => Received caller x.1 x.2) w := by
  refine loadSafe_bind (fun _ _ => trivial) fun w1 c invokedAt w2 _ hinv hact _ => ?_
  cases c <;> simp only [loadAct, reduceCtorEq] at hact
  cases hact
  refine Safe.bind (loadSafe_loadOnceLoop fuel (Nat.le_refl _) hinv) hinv fun v w2 _ _ hv => ?_
  exact safe_pure fun w3 h3 => hv.mono h3

end

section

variable {s : Sys (loadSig V) Nat (LoadWorld V) TsoError (Nat × V)} {first : V}

lemma load_holds_initial : (loadDiscipline V).Holds (fun caller => OnOk fun x =>
    Received caller x.1 x.2)
    (⟨.initial first, []⟩ : Sys (loadSig V) Nat (LoadWorld V) TsoError (Nat × V)) where
  inv := ⟨nofun, fun _ hr => by cases hr⟩
  safe _ ht := by cases ht

variable {v : V} {G : LoadGuard V} {invokedAt : Nat}

lemma loadRun_received (h : LoadRun G first s) {caller : Nat}
    (hreturned : ⟨caller, .ret (invokedAt, v)⟩ ∈ s.threads) :
    LoadInv s.world ∧ Received caller invokedAt v s.world := by
  have hholds := load_holds_initial.reach (fun _ _ _ _ _ => loadSafe_loadOnce) h
  exact ⟨hholds.inv, hholds.post hreturned⟩

structure JoinsFresh (w : LoadWorld V) : Prop where
  invoked : ∀ join ∈ w.joins, join.invokedAt ≤ w.moment
  fresh : ∀ join ∈ w.joins, ∀ r ∈ w.reads, r.flight = join.flight →
    ∃ n, join.invokedAt ≤ n ∧ w.valueAt n = some r.value

variable {w w' : LoadWorld V}

lemma JoinsFresh.act {o : LoadOp V} {c : LoadChoice} {r : o.Reply} (h : JoinsFresh w)
    (hinv : LoadInv w) (hallowed : LoadAllowed o w) {caller : Nat}
    (hguard : freshJoins.op caller o c w) (hact : loadAct caller w o c = some (r, w')) :
    JoinsFresh w' := by
  obtain rfl | ⟨invokedAt, flight, rfl, hcurrent, rfl⟩ | ⟨_, -, rfl⟩ | ⟨flight, -, rfl⟩ |
    ⟨_, _, -, rfl⟩ | ⟨_, -, rfl⟩ := loadAct_cases hact
  · exact h
  · refine ⟨fun j hj => ?_, fun j hj x hx hflight => ?_⟩
    · rcases List.mem_cons.mp hj with rfl | hj
      · exact hallowed
      · exact h.invoked j hj
    rcases List.mem_cons.mp hj with rfl | hj
    · rcases hguard x hx (hflight ▸ hcurrent) with hsince | hsame
      · exact ⟨x.moment, hsince, hinv.held x hx⟩
      · exact ⟨w.moment, hallowed, hsame ▸ LoadWorld.valueAt_moment⟩
    · exact h.fresh j hj x hx hflight
  · exact ⟨h.invoked, h.fresh⟩
  · refine ⟨h.invoked, fun j hj x hx hflight => ?_⟩
    rcases List.mem_cons.mp hx with rfl | hx
    · exact ⟨w.moment, h.invoked j hj, LoadWorld.valueAt_moment⟩
    · exact h.fresh j hj x hx hflight
  · exact ⟨h.invoked, h.fresh⟩
  · exact ⟨h.invoked, h.fresh⟩

lemma JoinsFresh.env {e : LoadEvent V} (h : JoinsFresh w)
    (henv : (loadMachine V).env e w = some w') : JoinsFresh w' := by
  cases e with
  | write v =>
    cases henv
    refine ⟨fun j hj => Nat.le_trans (h.invoked j hj)
      (LoadWorld.moment_mono (LoadWorld.le_write v)),
      fun j hj x hx hflight => ?_⟩
    obtain ⟨n, hn, hv⟩ := h.fresh j hj x hx hflight
    exact ⟨n, hn, LoadWorld.valueAt_mono (LoadWorld.le_write v) hv⟩
  | dropOwner flight => exact some.inj henv ▸ ⟨h.invoked, h.fresh⟩

lemma loadRun_joinsFresh (h : LoadRun freshJoins first s) : JoinsFresh s.world := by
  refine load_holds_initial.invariant ⟨nofun, fun _ hj => by cases hj⟩
    (fun _ _ _ _ _ => loadSafe_loadOnce) (fun _ o c w r w' hinv hfresh hallowed hguard hexec => ?_)
    (fun e w w' _ hfresh _ henv => hfresh.env henv) h
  exact hfresh.act hinv hallowed hguard hexec

end

/-- The value that a caller receives was in the store at some moment between its call and its
return. -/
theorem load_once_fresh (first : V) {s : Sys (loadSig V) Nat (LoadWorld V) TsoError (Nat × V)}
    (h : LoadRun freshJoins first s) {i invokedAt : Nat} {v : V}
    (hresult : s.result i = some (invokedAt, v)) :
    ∃ n, invokedAt ≤ n ∧ n ≤ s.world.moment ∧ s.world.valueAt n = some v := by
  have hfresh := loadRun_joinsFresh h
  obtain ⟨caller, hreturned⟩ := Sys.mem_threads_of_result hresult
  obtain ⟨-, hreceived⟩ := loadRun_received h hreturned
  obtain ⟨n, hn, hv⟩ : ∃ n, invokedAt ≤ n ∧ s.world.valueAt n = some v := by
    rcases hreceived with hown | ⟨flight, n, hjoin, hread⟩
    · exact hown
    · exact hfresh.fresh _ hjoin _ hread rfl
  exact ⟨n, hn, LoadWorld.le_moment_of_valueAt hv, hv⟩

/-- The second caller joins while the store holds what was read; a write follows before it
returns. -/
theorem load_once_fresh_sample : ∃ s, LoadRun freshJoins (5 : Nat) s ∧ s.result 1 = some (0, 5) ∧
    s.world.value = 7 ∧ ∃ n, 0 ≤ n ∧ n ≤ s.world.moment ∧ s.world.valueAt n = some 5 := by
  have hrun : (script (loadMachine Nat) (loadCode Nat) freshJoins LoadOp.usual
      (joinedAfterRead [] ++ [.label (.env (.write 7)), .drive 0 1, .drive 1 1])
      ⟨.initial 5, []⟩).any (fun s => s.result 1 = some (0, 5) && s.world.value = 7) = true := by
    decide +kernel
  obtain ⟨s, hs, hst⟩ := Reach.exists_of_script hrun
  simp only [Bool.and_eq_true, decide_eq_true_eq] at hst
  exact ⟨s, hs, hst.1, hst.2, load_once_fresh 5 hs hst.1⟩

lemma exists_staleRun : ∃ s, LoadRun Guard.free (5 : Nat) s ∧ s.result 1 = some (1, 5) ∧
    ∀ n, s.world.valueAt n = some 5 → n < 1 := by
  have hrun : (script (loadMachine Nat) (loadCode Nat) Guard.free LoadOp.usual
      (joinedAfterRead [.write 7] ++ [.drive 0 1, .drive 1 1]) ⟨.initial 5, []⟩).any
      (fun s => s.result 1 = some (1, 5) ∧ s.world.first :: s.world.writes = [5, 7]) = true := by
    decide +kernel
  obtain ⟨s, hs, hfound⟩ := Reach.exists_of_script hrun
  obtain ⟨hresult, hvalues⟩ := of_decide_eq_true hfound
  refine ⟨s, hs, hresult, fun n hn => ?_⟩
  rw [LoadWorld.valueAt, hvalues] at hn
  match n, hn with
  | 0, _ => exact Nat.one_pos
  | 1, hn => cases hn
  | n + 2, hn => cases hn

/-- The second caller is invoked after the write and is given what was in the store before it. -/
theorem load_once_stale : ∃ s, LoadRun Guard.free (5 : Nat) s ∧ s.result 1 = some (1, 5) ∧
    ¬ ∃ n, 1 ≤ n ∧ n ≤ s.world.moment ∧ s.world.valueAt n = some 5 := by
  obtain ⟨s, hs, hresult, hgone⟩ := exists_staleRun
  exact ⟨s, hs, hresult, fun ⟨n, hn, _, hv⟩ => absurd (hgone n hv) (Nat.not_lt.mpr hn)⟩

/-- Under no condition, what a caller receives has been in the store; and if it was gone before the
call, the caller itself has joined a flight that had read the store before. -/
theorem load_once_stale_joined {G : LoadGuard V} {first : V}
    {s : Sys (loadSig V) Nat (LoadWorld V) TsoError (Nat × V)} (h : LoadRun G first s)
    {caller invokedAt : Nat} {v : V} (hreturned : ⟨caller, .ret (invokedAt, v)⟩ ∈ s.threads) :
    (∃ n ≤ s.world.moment, s.world.valueAt n = some v) ∧
      ((∀ n, s.world.valueAt n = some v → n < invokedAt) → ∃ flight n, n < invokedAt ∧
        ⟨caller, flight, invokedAt⟩ ∈ s.world.joins ∧ ⟨flight, n, v⟩ ∈ s.world.reads) := by
  obtain ⟨hinv, hown | ⟨flight, n, hjoin, hread⟩⟩ := loadRun_received h hreturned
  · obtain ⟨n, hn, hv⟩ := hown
    exact ⟨⟨n, LoadWorld.le_moment_of_valueAt hv, hv⟩, fun hgone => absurd (hgone n hv) (by omega)⟩
  · have hv := hinv.held _ hread
    exact ⟨⟨n, LoadWorld.le_moment_of_valueAt hv, hv⟩,
      fun hgone => ⟨flight, n, hgone n hv, hjoin, hread⟩⟩

/-- A write comes between the read of the flight and the call that joins it. -/
theorem load_once_stale_joined_sample : ∃ s caller flight n, LoadRun Guard.free (5 : Nat) s ∧
    ⟨caller, .ret (1, 5)⟩ ∈ s.threads ∧ n < 1 ∧ ⟨caller, flight, 1⟩ ∈ s.world.joins ∧
      ⟨flight, n, 5⟩ ∈ s.world.reads := by
  obtain ⟨s, hs, hresult, hgone⟩ := exists_staleRun
  obtain ⟨caller, hreturned⟩ := Sys.mem_threads_of_result hresult
  obtain ⟨flight, n, hn, hjoin, hread⟩ := (load_once_stale_joined hs hreturned).2 hgone
  exact ⟨s, caller, flight, n, hs, hreturned, hn, hjoin, hread⟩

end Chronos
