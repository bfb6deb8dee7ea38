import Chronos.Interleaving.Tenure
import Chronos.Types

/-! The route refresh of a client. Allocations that fail because the cached route is stale refresh
it one after the other, under a lock; one that finds another route in the cache than the one it has
tried leaves it at that. -/

namespace Chronos

open Interleaving Tenure Option

inductive RpcStatus where
  | staleRoute
  | unavailable
  | other
  deriving DecidableEq

inductive ClientError where
  | rpc (status : RpcStatus)
  | missingRoute
  | invalidRoute
  | endpoint
  | dropped
  deriving DecidableEq

structure RouteSnapshot where
  position : Nat
  route : TimelineRoute
  deriving DecidableEq

/-- The atomic operations of an allocation. A snapshot is read for the first attempt of an
allocation, or for the one after a refresh of the snapshot `after`; the owner of the refresh lock
has a ticket. -/
inductive ClientOp where
  | routeSnapshot (after : Option Nat)
  | allocateOnce (route : TimelineRoute)
  | lockRouteRefresh
  | unlockRouteRefresh (ticket : Nat)
  | getTimelineRoute (ticket observed : Nat)

@[reducible] def ClientOp.Reply : ClientOp → Type
  | .routeSnapshot _ => RouteSnapshot
  | .allocateOnce _ => Except RpcStatus (List TimestampRange)
  | .lockRouteRefresh => Option Nat
  | .unlockRouteRefresh _ => Unit
  | .getTimelineRoute .. => Except ClientError TimelineRoute

abbrev clientSig : Signature := ⟨ClientOp, ClientOp.Reply⟩

abbrev ClientProg (α : Type) := Prog clientSig ClientError α

abbrev onClient (o : ClientOp) : ClientProg o.Reply := @Prog.op clientSig ClientError o

def sameRouteIdentity (left right : TimelineRoute) : Bool :=
  left.timelineKey = right.timelineKey && left.generatorId = right.generatorId &&
    left.ownerWorkerEndpoint = right.ownerWorkerEndpoint && left.epoch = right.epoch &&
    left.routeVersion = right.routeVersion && left.resourceTier = right.resourceTier

def isRouteRecoveryError : RpcStatus → Bool
  | .staleRoute | .unavailable => true
  | .other => false

def isTransientClientError : ClientError → Bool
  | .rpc .unavailable => true
  | _ => false

/-- `refresh_route` under the lock; the answer of the route service is installed at once. -/
def refreshRouteIfUnchanged (observed : RouteSnapshot) : ClientProg TimelineRoute := do
  match ← onClient .lockRouteRefresh with
  | none => .fail .dropped
  | some ticket => do
    let current ← onClient (.routeSnapshot none)
    if sameRouteIdentity current.route observed.route then do
      let result ← onClient (.getTimelineRoute ticket observed.position)
      onClient (.unlockRouteRefresh ticket)
      .ofExcept result
    else do
      onClient (.unlockRouteRefresh ticket)
      return current.route

def allocateAttempts : Nat → Option Nat → ClientProg (List TimestampRange)
  | retries, after => do
    let snapshot ← onClient (.routeSnapshot after)
    match ← onClient (.allocateOnce snapshot.route) with
    | .ok ranges => return ranges
    | .error status =>
      if isRouteRecoveryError status then
        match retries with
        | 0 => .fail (.rpc status)
        | retries + 1 => do
          match ← (refreshRouteIfUnchanged snapshot).attempt with
          | .ok _ => allocateAttempts retries (some snapshot.position)
          | .error error =>
            if isTransientClientError error then allocateAttempts retries none else .fail error
      else .fail (.rpc status)

structure RouteCall where
  observed : Nat
  installed : Option Nat
  deriving DecidableEq

/-- The client: every route that was in the cache, the last one being there now, the ticket of the
holder of `route_refresh`, the successful calls, and for each successful refresh the snapshot it was
for and the one the allocation went on with. -/
structure ClientWorld where
  installed : List TimelineRoute
  guard : Option Nat
  tickets : Nat
  calls : List RouteCall
  continued : List (Nat × Nat)
  deriving DecidableEq

def ClientWorld.initial (route : TimelineRoute) : ClientWorld where
  installed := [route]
  guard := none
  tickets := 0
  calls := []
  continued := []

inductive ClientChoice where
  | go
  | dropped
  | ranges (ranges : List TimestampRange)
  | status (status : RpcStatus)
  | answer (route : Option TimelineRoute)
  | unusable (route : TimelineRoute)
  deriving DecidableEq

namespace ClientWorld

variable (w : ClientWorld)

def snapshot : Option RouteSnapshot := w.installed.getLast?.map fun route =>
  ⟨w.installed.length - 1, route⟩

/-- What the client makes of an answer: `require_route` and `replace_route_snapshot`. -/
def install (observed : Nat) : Option TimelineRoute → Except ClientError TimelineRoute × ClientWorld
  | none => (.error .missingRoute, w)
  | some route =>
    if route.ownerWorkerEndpoint = "" then (.error .invalidRoute, w)
    else (.ok route,
      { w with
        installed := w.installed ++ [route]
        calls := w.calls ++ [⟨observed, some w.installed.length⟩] })

def act : (o : ClientOp) → ClientChoice → Option (o.Reply × ClientWorld)
  | .routeSnapshot after, .go => w.snapshot.map fun current =>
    (current, { w with
      continued := (after.map fun observed => (observed, current.position)).toList ++ w.continued })
  | .allocateOnce _, .ranges ranges => some (.ok ranges, w)
  | .allocateOnce _, .status status => some (.error status, w)
  | .lockRouteRefresh, .go =>
    if w.guard = none then
      some (some w.tickets, { w with guard := some w.tickets, tickets := w.tickets + 1 })
    else none
  | .lockRouteRefresh, .dropped => some (none, w)
  | .unlockRouteRefresh _, .go => some ((), { w with guard := none })
  | .getTimelineRoute _ observed, .answer route => some (w.install observed route)
  | .getTimelineRoute _ observed, .unusable _ =>
    some (.error .endpoint, { w with calls := w.calls ++ [⟨observed, none⟩] })
  | .getTimelineRoute .., .status status => some (.error (.rpc status), w)
  | .getTimelineRoute .., .dropped => some (.error .dropped, w)
  | _, _ => none

end ClientWorld

def clientMachine : Machine clientSig Unit ClientChoice Empty ClientWorld where
  exec _ o c w := w.act o c
  env e _ := e.elim

def clientCode (_ : Unit) (staleRouteRetryAttempts : Nat) : ClientProg (List TimestampRange) :=
  allocateAttempts staleRouteRetryAttempts none

abbrev ClientGuard := Guard clientSig Unit ClientChoice Empty ClientWorld Nat

abbrev ClientRun (G : ClientGuard) (route : TimelineRoute)
    (s : Sys clientSig Unit ClientWorld ClientError (List TimestampRange)) : Prop :=
  Reach clientMachine clientCode G ⟨.initial route, []⟩ s

/-- The route service answers with a route that the client has not had before, and that it can
install. -/
def answersChanged : ClientGuard where
  op _ o c w :=
    match o, c with
    | .getTimelineRoute .., .answer (some route) =>
      ∀ old ∈ w.installed, sameRouteIdentity old route = false
    | .getTimelineRoute .., .unusable _ => False
    | _, _ => True

instance : answersChanged.Checked where
  op _ _ _ _ := by
    unfold answersChanged
    dsimp only
    split <;> infer_instance

def staleUntil (route : TimelineRoute) : ClientOp → ClientChoice
  | .allocateOnce _ => .status .staleRoute
  | .getTimelineRoute .. => .answer (some route)
  | _ => .go

def twoStaleAllocations : List (Command Unit Nat ClientChoice Empty) :=
  [.label (.spawn () 1), .label (.spawn () 1), .drive 0 2, .drive 1 2, .drive 0 5, .drive 1 5]

def cachedRoute (version : Nat) : TimelineRoute := ⟨"k", 0, version, version, .shared, "a:1"⟩

variable {w w' : ClientWorld} {T : Set Nat} {ticket : Nat} {observed : RouteSnapshot} {α : Type}

lemma sameRouteIdentity_iff {left right : TimelineRoute} :
    sameRouteIdentity left right = true ↔ left = right := by
  cases left
  cases right
  simp only [sameRouteIdentity, Bool.and_eq_true, decide_eq_true_eq, TimelineRoute.mk.injEq]
  constructor
  · rintro ⟨⟨⟨⟨⟨hkey, hgen⟩, hown⟩, hepoch⟩, hversion⟩, htier⟩
    exact ⟨hkey, hgen, hepoch, hversion, htier, hown⟩
  · rintro ⟨hkey, hgen, hepoch, hversion, htier, hown⟩
    exact ⟨⟨⟨⟨⟨hkey, hgen⟩, hown⟩, hepoch⟩, hversion⟩, htier⟩

section

instance : Preorder ClientWorld where
  le w w' := w.installed <+: w'.installed ∧ w.tickets ≤ w'.tickets
  le_refl w := ⟨List.prefix_rfl, le_rfl⟩
  le_trans _ _ _ h h' := ⟨h.1.trans h'.1, h.2.trans h'.2⟩

variable {o : ClientOp} {c : ClientChoice}

lemma ClientWorld.act_cases {r : o.Reply} (h : w.act o c = some (r, w')) : w' = w ∨
    (∃ after current, o = .routeSnapshot after ∧ w.snapshot = some current ∧ w' = { w with
      continued := (after.map fun k => (k, current.position)).toList ++ w.continued }) ∨
    (o = .lockRouteRefresh ∧ w.guard = none ∧
      w' = { w with guard := some w.tickets, tickets := w.tickets + 1 }) ∨
    (∃ t, o = .unlockRouteRefresh t ∧ w' = { w with guard := none }) ∨
    (∃ t k route, o = .getTimelineRoute t k ∧ c = .answer (some route) ∧ w' = { w with
        installed := w.installed ++ [route]
        calls := w.calls ++ [⟨k, some w.installed.length⟩] }) ∨
    ∃ t k route, o = .getTimelineRoute t k ∧ c = .unusable route ∧
      w' = { w with calls := w.calls ++ [⟨k, none⟩] } := by
  cases o with
  | routeSnapshot after =>
    cases c <;> simp only [act, reduceCtorEq] at h
    obtain ⟨current, hcurrent, heq⟩ := map_eq_some_iff.mp h
    exact .inr (.inl ⟨after, current, rfl, hcurrent, (Prod.mk.inj heq).2.symm⟩)
  | allocateOnce route =>
    cases c <;> simp only [act, reduceCtorEq] at h <;>
      exact .inl (Prod.mk.inj (some.inj h)).2.symm
  | lockRouteRefresh =>
    cases c <;> simp only [act, reduceCtorEq] at h
    · split_ifs at h with hfree
      exact .inr (.inr (.inl ⟨rfl, hfree, (Prod.mk.inj (some.inj h)).2.symm⟩))
    · exact .inl (Prod.mk.inj (some.inj h)).2.symm
  | unlockRouteRefresh t =>
    cases c <;> simp only [act, reduceCtorEq] at h
    exact .inr (.inr (.inr (.inl ⟨t, rfl, (Prod.mk.inj (some.inj h)).2.symm⟩)))
  | getTimelineRoute t k =>
    cases c with
    | answer answered =>
      have hinstall := some.inj h
      cases answered with
      | none => exact .inl (Prod.mk.inj hinstall).2.symm
      | some route =>
        simp only [install] at hinstall
        split_ifs at hinstall
        · exact .inl (Prod.mk.inj hinstall).2.symm
        · exact .inr (.inr (.inr (.inr (.inl
            ⟨t, k, route, rfl, rfl, (Prod.mk.inj hinstall).2.symm⟩))))
    | unusable route =>
      exact .inr (.inr (.inr (.inr (.inr
        ⟨t, k, route, rfl, rfl, (Prod.mk.inj (some.inj h)).2.symm⟩))))
    | status status => exact .inl (Prod.mk.inj (some.inj h)).2.symm
    | dropped => exact .inl (Prod.mk.inj (some.inj h)).2.symm
    | go => cases h
    | ranges ranges => cases h

lemma ClientWorld.le_of_act {r : o.Reply} (h : w.act o c = some (r, w')) : w ≤ w' := by
  obtain rfl | ⟨_, _, -, -, rfl⟩ | ⟨-, -, rfl⟩ | ⟨_, -, rfl⟩ | ⟨_, _, _, -, -, rfl⟩ |
    ⟨_, _, _, -, -, rfl⟩ := act_cases h
  · exact le_rfl
  · exact ⟨List.prefix_rfl, le_rfl⟩
  · exact ⟨List.prefix_rfl, Nat.le_succ _⟩
  · exact ⟨List.prefix_rfl, le_rfl⟩
  · exact ⟨List.prefix_append _ _, le_rfl⟩
  · exact ⟨List.prefix_rfl, le_rfl⟩

lemma ClientWorld.installed_of_le {k : Nat} {route : TimelineRoute} (h : w ≤ w')
    (hk : w.installed[k]? = some route) : w'.installed[k]? = some route := by
  obtain ⟨newer, hinstalled⟩ := h.1
  rw [← hinstalled, List.getElem?_append_left (List.getElem?_eq_some_iff.mp hk).1, hk]

lemma ClientWorld.snapshot_eq {current : RouteSnapshot} (h : w.snapshot = some current) :
    w.installed.getLast? = some current.route ∧ current.position + 1 = w.installed.length ∧
      w.installed[current.position]? = some current.route := by
  obtain ⟨route, hlast, rfl⟩ := map_eq_some_iff.mp h
  have hpos : 0 < w.installed.length := by
    refine List.length_pos_iff.mpr fun hnil => ?_
    simp [hnil] at hlast
  refine ⟨hlast, Nat.sub_add_cancel hpos, ?_⟩
  rw [← List.getLast?_eq_getElem?, hlast]

structure ClientInv (w : ClientWorld) : Prop where
  guard : ∀ t, w.guard = some t → t < w.tickets
  continued : ∀ x ∈ w.continued, x.1 < x.2 ∧ x.2 < w.installed.length

/-- What is known before an operation: a refresh has been successful when the next snapshot is read
for it, and the route is asked for by the holder of the lock, who has found the observed route in
the cache. -/
def ClientAllowed : ClientOp → ClientWorld → Prop
  | .routeSnapshot (some k), w => k + 1 < w.installed.length
  | .unlockRouteRefresh t, w => w.guard = some t
  | .getTimelineRoute t k, w => w.guard = some t ∧
      ∃ route, w.installed[k]? = some route ∧ w.installed.getLast? = some route
  | _, _ => True

def clientUses : ClientOp → Option Nat
  | .unlockRouteRefresh t | .getTimelineRoute t _ => some t
  | _ => none

def clientGrants : (o : ClientOp) → o.Reply → Option Nat
  | .lockRouteRefresh, some t => some t
  | _, _ => none

def ClientKeeps (t : Nat) (w w' : ClientWorld) : Prop :=
  w.guard = some t → w'.guard = some t ∧ w'.installed = w.installed

lemma ClientInv.act {r : o.Reply} (hinv : ClientInv w)
    (hallowed : ClientAllowed o w) (h : w.act o c = some (r, w')) : ClientInv w' := by
  obtain rfl | ⟨after, current, rfl, hcurrent, rfl⟩ | ⟨-, -, rfl⟩ | ⟨_, -, rfl⟩ |
    ⟨_, _, _, -, -, rfl⟩ | ⟨_, _, _, -, -, rfl⟩ := ClientWorld.act_cases h
  · exact hinv
  · refine ⟨hinv.guard, fun x hx => ?_⟩
    rcases List.mem_append.mp hx with hnew | hold
    · obtain ⟨k, rfl, rfl⟩ := map_eq_some_iff.mp (mem_toList.mp hnew)
      have hlen := (ClientWorld.snapshot_eq hcurrent).2.1
      have hlater : k + 1 < w.installed.length := hallowed
      show k < current.position ∧ current.position < w.installed.length
      omega
    · exact hinv.continued x hold
  · refine ⟨fun t ht => ?_, hinv.continued⟩
    rw [← some.inj ht]
    exact Nat.lt_succ_self _
  · exact ⟨fun _ ht => (by cases ht), hinv.continued⟩
  · refine ⟨hinv.guard, fun x hx => ⟨(hinv.continued x hx).1, ?_⟩⟩
    exact (hinv.continued x hx).2.trans_le (List.prefix_append _ _).length_le
  · exact ⟨hinv.guard, hinv.continued⟩

lemma clientKeeps_act {r : o.Reply} {t : Nat}
    (hallowed : ClientAllowed o w) (h : w.act o c = some (r, w')) (huses : clientUses o ≠ some t) :
    ClientKeeps t w w' := by
  intro hguard
  obtain rfl | ⟨_, _, -, -, rfl⟩ | ⟨-, hfree, rfl⟩ | ⟨t', rfl, rfl⟩ | ⟨t', _, _, rfl, -, rfl⟩ |
    ⟨t', _, _, rfl, -, rfl⟩ := ClientWorld.act_cases h
  · exact ⟨hguard, rfl⟩
  · exact ⟨hguard, rfl⟩
  · cases hfree.symm.trans hguard
  · exact absurd ((show w.guard = some t' from hallowed).symm.trans hguard) huses
  · exact absurd (hallowed.1.symm.trans hguard) huses
  · exact absurd (hallowed.1.symm.trans hguard) huses

def clientTenure : Tenure clientMachine Nat where
  Inv := ClientInv
  Allowed := ClientAllowed
  Issued w t := t < w.tickets
  uses := clientUses
  grants := clientGrants
  Keeps := ClientKeeps
  issued_mono hle h := h.trans_le hle.2
  keeps_refl _ _ hguard := ⟨hguard, rfl⟩
  keeps_trans h h' hguard :=
    ⟨(h' (h hguard).1).1, (h' (h hguard).1).2.trans (h hguard).2⟩
  exec_inv hinv hallowed hexec := hinv.act hallowed hexec
  exec_le _ _ hexec := ClientWorld.le_of_act hexec
  exec_keeps _ hallowed hexec huses := clientKeeps_act hallowed hexec huses
  exec_grants {a o c w r w' t} hexec hgrants := by
    cases o with
    | lockRouteRefresh =>
      have hact : w.act .lockRouteRefresh c = some (r, w') := hexec
      cases c <;> simp only [ClientWorld.act, reduceCtorEq] at hact
      · split_ifs at hact
        obtain ⟨rfl, rfl⟩ := Prod.mk.inj (Option.some.inj hact)
        obtain rfl := Option.some.inj hgrants
        exact ⟨Nat.lt_irrefl _, Nat.lt_succ_self _⟩
      · obtain ⟨rfl, rfl⟩ := Prod.mk.inj (Option.some.inj hact)
        cases hgrants
    | _ => cases hgrants
  env_inv {e} := e.elim
  env_le {e} := e.elim
  env_keeps {e} := e.elim

end

section

abbrev ClientSafe (prog : ClientProg α) (T : Set Nat)
    (Q : Except ClientError α → Set Nat → ClientWorld → Prop) (w : ClientWorld) : Prop :=
  clientTenure.Safe () prog T Q w

variable {Q : Except ClientError α → Set Nat → ClientWorld → Prop}
  {out : Except ClientError TimelineRoute}

lemma clientSafe_bind {o : ClientOp} {k : o.Reply → ClientProg α}
    (huses : ∀ t, clientUses o = some t → t ∈ T)
    (hallowed : ∀ w1, clientTenure.Rely T w w1 → ClientAllowed o w1)
    (hnext : ∀ w1 c r w2, clientTenure.Rely T w w1 → ClientInv w1 → w1.act o c = some (r, w2) →
      ClientSafe (k r) (T ∪ {t | clientGrants o r = some t}) Q w2) :
    ClientSafe (onClient o >>= k) T Q w :=
  fun w1 hrely hinv => ⟨huses, hallowed w1 hrely, fun c r w2 hexec =>
    hnext w1 c r w2 hrely hinv hexec⟩

def Refreshed (k : Nat) (out : Except ClientError TimelineRoute) (w : ClientWorld) : Prop :=
  ∀ route, out = .ok route → k + 1 < w.installed.length

lemma Refreshed.mono {k : Nat} (h : Refreshed k out w) (hle : w ≤ w') : Refreshed k out w' :=
  fun route hroute => (h route hroute).trans_le hle.1.length_le

lemma clientSafe_unlock {k : Nat} (hT : ticket ∈ T)
    (hguard : w.guard = some ticket) (h : Refreshed k out w) :
    ClientSafe (onClient (.unlockRouteRefresh ticket) >>= fun _ => .ofExcept out) T
      (fun out _ => Refreshed k out) w := by
  refine clientSafe_bind (fun t ht => some.inj ht ▸ hT)
    (fun w1 hrely => (hrely.2 ticket hT hguard).1) fun w1 c r w2 hrely _ hact => ?_
  have hlater : ∀ w3, w2 ≤ w3 → Refreshed k out w3 := fun w3 hle =>
    h.mono (hrely.1.trans ((ClientWorld.le_of_act hact).trans hle))
  cases out with
  | ok route => exact fun w3 h3 => hlater w3 h3.1
  | error e => exact fun w3 h3 => hlater w3 h3.1

lemma clientSafe_getTimelineRoute (hT : ticket ∈ T) (hguard : w.guard = some ticket)
    (hobserved : w.installed[observed.position]? = some observed.route)
    (hcurrent : w.installed.getLast? = some observed.route) :
    ClientSafe (onClient (.getTimelineRoute ticket observed.position) >>= fun res =>
      onClient (.unlockRouteRefresh ticket) >>= fun _ => .ofExcept res) T
      (fun out _ => Refreshed observed.position out) w := by
  have hkept : ∀ w1, clientTenure.Rely T w w1 →
      w1.guard = some ticket ∧ w1.installed = w.installed := fun w1 h => h.2 ticket hT hguard
  refine clientSafe_bind (fun t ht => Option.some.inj ht ▸ hT) (fun w1 hrely => ?_)
    fun w1 c res w2 hrely _ hact => ?_
  · obtain ⟨hguard1, hinstalled⟩ := hkept w1 hrely
    refine ⟨hguard1, observed.route, ?_, ?_⟩
    · rw [hinstalled, hobserved]
    · rw [hinstalled, hcurrent]
  · obtain ⟨hguard1, hinstalled⟩ := hkept w1 hrely
    have hheld : w2.guard = some ticket := by
      obtain rfl | ⟨_, _, ho, -, -⟩ | ⟨ho, -, -⟩ | ⟨_, ho, -⟩ | ⟨_, _, _, -, -, rfl⟩ |
        ⟨_, _, _, -, -, rfl⟩ := ClientWorld.act_cases hact
      · exact hguard1
      · cases ho
      · cases ho
      · cases ho
      · exact hguard1
      · exact hguard1
    refine clientSafe_unlock (.inl hT) hheld fun route hroute => ?_
    -- an answer that was accepted has been installed
    subst hroute
    have hlen : observed.position < w1.installed.length := by
      rw [hinstalled]
      exact (List.getElem?_eq_some_iff.mp hobserved).1
    cases c with
    | answer answered =>
      have hinstall := Option.some.inj hact
      cases answered with
      | none => cases (Prod.mk.inj hinstall).1
      | some answered =>
        simp only [ClientWorld.install] at hinstall
        split_ifs at hinstall
        · cases (Prod.mk.inj hinstall).1
        · rw [← (Prod.mk.inj hinstall).2]
          simpa using hlen
    | unusable answered => cases (Prod.mk.inj (Option.some.inj hact)).1
    | status status => cases (Prod.mk.inj (Option.some.inj hact)).1
    | dropped => cases (Prod.mk.inj (Option.some.inj hact)).1
    | go => cases hact
    | ranges ranges => cases hact

lemma clientSafe_refreshRouteIfUnchanged
    (hobserved : w.installed[observed.position]? = some observed.route) :
    ClientSafe (refreshRouteIfUnchanged observed) T
      (fun out _ => Refreshed observed.position out) w := by
  refine clientSafe_bind nofun (fun _ _ => trivial) fun w1 c r w2 hrely _ hact => ?_
  cases r with
  | none => exact nofun
  | some ticket =>
    have hguard : w2.guard = some ticket := by
      cases c <;> simp only [ClientWorld.act, reduceCtorEq] at hact
      · split_ifs at hact
        obtain ⟨hticket, rfl⟩ := Prod.mk.inj (Option.some.inj hact)
        exact hticket
      · cases (Prod.mk.inj (Option.some.inj hact)).1
    have hobserved2 := ClientWorld.installed_of_le (hrely.1.trans (ClientWorld.le_of_act hact))
      hobserved
    have hT : ticket ∈ T ∪ {t | clientGrants .lockRouteRefresh (some ticket) = some t} := .inr rfl
    refine clientSafe_bind nofun (fun _ _ => trivial) fun w3 c3 current w4 hrely3 _ hact3 => ?_
    obtain ⟨hguard3, hinstalled3⟩ := hrely3.2 ticket hT hguard
    cases c3 <;> simp only [ClientWorld.act, reduceCtorEq] at hact3
    obtain ⟨current, hcurrent, heq⟩ := Option.map_eq_some_iff.mp hact3
    obtain ⟨rfl, rfl⟩ := Prod.mk.inj heq
    obtain ⟨hlast, hposition, -⟩ := ClientWorld.snapshot_eq hcurrent
    have hobserved3 : w3.installed[observed.position]? = some observed.route := by
      rw [hinstalled3, hobserved2]
    split
    · next hsame =>
      refine clientSafe_getTimelineRoute (.inl hT) hguard3 hobserved3 ?_
      rw [← sameRouteIdentity_iff.mp hsame]
      exact hlast
    · next hother =>
      -- another route is in the cache, so the observed one is not the last
      have hlt := (List.getElem?_eq_some_iff.mp hobserved3).1
      have hlater : observed.position + 1 < w3.installed.length := by
        refine Nat.lt_of_le_of_ne hlt fun hlastPosition => hother (sameRouteIdentity_iff.mpr ?_)
        rw [List.getLast?_eq_getElem?, ← hlastPosition, Nat.add_sub_cancel, hobserved3] at hlast
        exact (Option.some.inj hlast).symm
      have hrefreshed : Refreshed observed.position (.ok current.route) w3 := fun _ _ => hlater
      exact clientSafe_unlock (.inl hT) hguard3 hrefreshed

lemma clientSafe_routeSnapshot {after : Option Nat} {k : RouteSnapshot → ClientProg α}
    (hafter : ∀ i, after = some i → i + 1 < w.installed.length)
    (hnext : ∀ snapshot T' w1, w1.installed[snapshot.position]? = some snapshot.route →
      ClientSafe (k snapshot) T' Q w1) :
    ClientSafe (onClient (.routeSnapshot after) >>= k) T Q w := by
  refine clientSafe_bind nofun (fun w1 hrely => ?_) fun w1 c snapshot w2 _ _ hact => ?_
  · cases after with
    | none => trivial
    | some i => exact (hafter i rfl).trans_le hrely.1.1.length_le
  cases c <;> simp only [ClientWorld.act, reduceCtorEq] at hact
  obtain ⟨current, hcurrent, heq⟩ := map_eq_some_iff.mp hact
  obtain ⟨rfl, rfl⟩ := Prod.mk.inj heq
  exact hnext current _ _ (ClientWorld.snapshot_eq hcurrent).2.2

lemma clientSafe_allocateOnce {route : TimelineRoute}
    {k : Except RpcStatus (List TimestampRange) → ClientProg α}
    (hnext : ∀ res T' w1, w ≤ w1 → ClientInv w1 → ClientSafe (k res) T' Q w1) :
    ClientSafe (onClient (.allocateOnce route) >>= k) T Q w := by
  refine clientSafe_bind nofun (fun _ _ => trivial) fun w1 c res w2 hrely hinv hact => ?_
  exact hnext res _ w2 (hrely.1.trans (ClientWorld.le_of_act hact))
    (hinv.act (o := .allocateOnce route) trivial hact)

lemma clientSafe_allocateAttempts (retries : Nat) (after : Option Nat)
    (hafter : ∀ i, after = some i → i + 1 < w.installed.length) :
    ClientSafe (allocateAttempts retries after) T (OnOk fun _ _ _ => True) w := by
  induction retries generalizing after w T with
  | zero =>
    unfold allocateAttempts
    refine clientSafe_routeSnapshot hafter fun snapshot T1 w1 _ => ?_
    refine clientSafe_allocateOnce fun res T2 w2 _ _ => ?_
    split
    · exact safe_done
    · split <;> exact safe_fail
  | succ retries ih =>
    unfold allocateAttempts
    refine clientSafe_routeSnapshot hafter fun snapshot T1 w1 hsnapshot => ?_
    refine clientSafe_allocateOnce fun res T2 w2 h2 hinv2 => ?_
    split
    · exact safe_done
    split
    · have hrefresh : ClientSafe (refreshRouteIfUnchanged snapshot) T2
          (fun out _ => Refreshed snapshot.position out) w2 :=
        clientSafe_refreshRouteIfUnchanged (ClientWorld.installed_of_le h2 hsnapshot)
      refine Safe.bind hrefresh.attempt hinv2 fun out T3 w3 _ _ _ hout => ?_
      split
      · next route =>
        refine ih (some snapshot.position) fun i hi => ?_
        cases hi
        exact hout w3 (Rely.refl w3) route rfl
      · split
        · exact ih none nofun
        · exact safe_fail
    · exact safe_fail

end

structure SingleFlight (w : ClientWorld) : Prop where
  distinct : w.installed.Pairwise (· ≠ ·)
  nonempty : w.installed ≠ []
  calls : w.calls = (List.range (w.installed.length - 1)).map fun k => ⟨k, some (k + 1)⟩

lemma SingleFlight.act {o : ClientOp} {c : ClientChoice} {r : o.Reply} (h : SingleFlight w)
    (hallowed : ClientAllowed o w) (hguard : answersChanged.op () o c w)
    (hact : w.act o c = some (r, w')) : SingleFlight w' := by
  obtain rfl | ⟨_, _, -, -, rfl⟩ | ⟨-, -, rfl⟩ | ⟨_, -, rfl⟩ | ⟨t, k, route, rfl, rfl, rfl⟩ |
    ⟨t, k, route, rfl, rfl, rfl⟩ := ClientWorld.act_cases hact
  · exact h
  · exact ⟨h.distinct, h.nonempty, h.calls⟩
  · exact ⟨h.distinct, h.nonempty, h.calls⟩
  · exact ⟨h.distinct, h.nonempty, h.calls⟩
  · obtain ⟨-, current, hk, hlast⟩ := hallowed
    have hpos : 0 < w.installed.length := List.length_pos_iff.mpr h.nonempty
    -- the observed route is in the cache, and no other snapshot had it
    have hposition : k = w.installed.length - 1 := by
      rw [List.getLast?_eq_getElem?] at hlast
      obtain ⟨hk, hkroute⟩ := List.getElem?_eq_some_iff.mp hk
      obtain ⟨hl, hlroute⟩ := List.getElem?_eq_some_iff.mp hlast
      by_contra hne
      have hlt : k < w.installed.length - 1 := by omega
      exact List.pairwise_iff_getElem.mp h.distinct k _ hk hl hlt (hkroute.trans hlroute.symm)
    refine ⟨?_, by simp, ?_⟩
    · refine List.pairwise_append.mpr ⟨h.distinct, List.pairwise_singleton _ _, ?_⟩
      intro old hold new hnew
      obtain rfl := List.mem_singleton.mp hnew
      have hchanged := hguard old hold
      rintro rfl
      cases (sameRouteIdentity_iff.mpr rfl).symm.trans hchanged
    · have hlen := Nat.sub_add_cancel hpos
      rw [h.calls, hposition, List.length_append, List.length_singleton, Nat.add_sub_cancel]
      conv_rhs => rw [← hlen, List.range_succ, List.map_append, List.map_singleton, hlen]
  · exact hguard.elim

lemma SingleFlight.calls_for (h : SingleFlight w) (k : Nat) :
    w.calls.filter (fun call => call.observed = k) =
      if k + 1 < w.installed.length then [⟨k, some (k + 1)⟩] else [] := by
  have hrange : ∀ n, (List.range n).filter (fun i => decide (i = k)) =
      if k < n then [k] else [] := by
    intro n
    induction n with
    | zero => rfl
    | succ n ih =>
      rw [List.range_succ, List.filter_append, ih]
      rcases Nat.lt_trichotomy k n with hlt | rfl | hlt
      · rw [if_pos hlt, if_pos (by omega), List.filter_singleton]
        simp [hlt.ne']
      · simp
      · rw [if_neg (by omega), if_neg (by omega), List.filter_singleton]
        simp [hlt.ne]
  rw [h.calls, List.filter_map]
  show List.map _ ((List.range _).filter fun i => decide (i = k)) = _
  rw [hrange]
  have hiff : k < w.installed.length - 1 ↔ k + 1 < w.installed.length := by omega
  simp only [hiff]
  split_ifs <;> rfl

lemma clientInv_initial {route : TimelineRoute} : ClientInv (.initial route) :=
  ⟨nofun, fun _ hx => by cases hx⟩

/-- Whatever the allocations of a client do, for each snapshot of its route there is at most one
successful call of the route service, and exactly one as soon as an allocation has refreshed it;
the allocation goes on with a later snapshot. -/
theorem route_refresh_single_flight (route : TimelineRoute)
    {s : Sys clientSig Unit ClientWorld ClientError (List TimestampRange)}
    (h : ClientRun answersChanged route s) :
    (∀ k, (s.world.calls.filter fun call => call.observed = k).length ≤ 1) ∧
      ∀ x ∈ s.world.continued, ∃ position, position ≤ x.2 ∧
        s.world.calls.filter (fun call => call.observed = x.1) = [⟨x.1, some position⟩] := by
  have hcode : ∀ (a : Unit) (e : Nat) w, clientTenure.Inv w → answersChanged.entry a e →
      clientTenure.Safe a (clientCode a e) ∅ (OnOk fun _ _ _ => True) w :=
    fun _ e _ _ _ => clientSafe_allocateAttempts e none nofun
  have hinv : ClientInv s.world := reach_inv clientInv_initial hcode h
  have hsingle : SingleFlight s.world := by
    refine reach_invariant clientInv_initial
      ⟨List.pairwise_singleton _ _, List.cons_ne_nil _ _, rfl⟩ hcode ?_ (fun e => e.elim) h
    exact fun _ o c w r w' _ hflight hallowed hguard hexec => hflight.act hallowed hguard hexec
  refine ⟨fun k => ?_, fun x hx => ?_⟩
  · rw [hsingle.calls_for k]
    split_ifs
    · exact le_rfl
    · exact Nat.zero_le _
  · obtain ⟨hlt, hlast⟩ := hinv.continued x hx
    exact ⟨x.1 + 1, hlt, by rw [hsingle.calls_for, if_pos (by omega)]⟩

/-- The service answers with a changed route: the second allocation finds it in the cache. -/
theorem route_refresh_single_flight_sample : ∃ s,
    ClientRun answersChanged (cachedRoute 1) s ∧ s.world.continued = [(0, 1), (0, 1)] ∧
      (∀ k, (s.world.calls.filter fun call => call.observed = k).length ≤ 1) ∧
      ∀ x ∈ s.world.continued, ∃ position, position ≤ x.2 ∧
        s.world.calls.filter (fun call => call.observed = x.1) = [⟨x.1, some position⟩] := by
  have hrun : (script clientMachine clientCode answersChanged (staleUntil (cachedRoute 2))
      twoStaleAllocations ⟨.initial (cachedRoute 1), []⟩).any
      (fun s => s.world.continued = [(0, 1), (0, 1)]) = true := by
    decide +kernel
  obtain ⟨s, hs, hcontinued⟩ := Reach.exists_of_script hrun
  exact ⟨s, hs, of_decide_eq_true hcontinued, route_refresh_single_flight (cachedRoute 1) hs⟩

/-- The service answers with the same route again: each of the two allocations calls it. -/
theorem route_refresh_called_twice : ∃ s, ClientRun Guard.free (cachedRoute 1) s ∧
    s.world.calls.filter (fun call => call.observed = 0) = [⟨0, some 1⟩, ⟨0, some 2⟩] := by
  have hrun : (script clientMachine clientCode Guard.free (staleUntil (cachedRoute 1))
      twoStaleAllocations ⟨.initial (cachedRoute 1), []⟩).any (fun s =>
        s.world.calls.filter (fun call => call.observed = 0) = [⟨0, some 1⟩, ⟨0, some 2⟩]) =
      true := by
    decide +kernel
  obtain ⟨s, hs, hcalls⟩ := Reach.exists_of_script hrun
  exact ⟨s, hs, of_decide_eq_true hcalls⟩

/-- Whatever the route service answers: an allocation that has refreshed its route goes on with a
snapshot from after the one that failed. -/
theorem refreshed_route_is_newer (route : TimelineRoute) {G : ClientGuard}
    {s : Sys clientSig Unit ClientWorld ClientError (List TimestampRange)}
    (h : ClientRun G route s) :
    ∀ x ∈ s.world.continued, x.1 < x.2 ∧ x.2 < s.world.installed.length :=
  (reach_inv clientInv_initial
    (fun _ entry _ _ _ => clientSafe_allocateAttempts entry none fun _ h => (by cases h))
      h).continued

/-- The service answers with the same route again, and both allocations take it for a new one. -/
theorem refreshed_route_is_newer_sample : ∃ s, ClientRun Guard.free (cachedRoute 1) s ∧
    s.world.continued = [(0, 2), (0, 1)] ∧
    ∀ x ∈ s.world.continued, x.1 < x.2 ∧ x.2 < s.world.installed.length := by
  have hrun : (script clientMachine clientCode Guard.free (staleUntil (cachedRoute 1))
      twoStaleAllocations ⟨.initial (cachedRoute 1), []⟩).any
      (fun s => s.world.continued = [(0, 2), (0, 1)]) = true := by
    decide +kernel
  obtain ⟨s, hs, hcontinued⟩ := Reach.exists_of_script hrun
  exact ⟨s, hs, of_decide_eq_true hcontinued, refreshed_route_is_newer (cachedRoute 1) hs⟩

end Chronos
