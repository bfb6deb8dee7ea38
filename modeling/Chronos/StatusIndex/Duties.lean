import Chronos.Interleaving.Tenure
import Chronos.StatusIndex.Steps

/-! What the programs on the timeline store owe each other. The holder of a lease lock relies on it
that nobody else makes a transaction under its token, and that nobody makes one under another token
while it has the lock. -/

namespace Chronos

open Interleaving KeyValue List Option

structure Duty where
  coherent : Prop
  limit : Option Nat

namespace Duty

variable (d : Duty)

structure Inv (w : IndexWorld) : Prop where
  wellformed : w.Wellformed
  coherent : d.coherent → w.MarkerCurrent → w.Coherent
  limit : ∀ max, d.limit = some max → w.routes.length ≤ max

def Owed (w : IndexWorld) : IndexTxn → Prop
  | .publish token => w.lock .rebuild = some token → w.Coherent
  | .create _ _ none => d.limit = none
  | .create key _ (some token) => w.lock .creation = some token →
      (∀ entry ∈ w.routes, entry.key ≠ key) → ∀ max, d.limit = some max → w.routes.length < max
  | _ => True

def Allowed : IndexOp → IndexWorld → Prop
  | .txn request, w => w.Fits request ∧ d.Owed w request
  | _, _ => True

def uses : IndexOp → Option Nat
  | .txn request => request.token
  | _ => none

def grants : (o : IndexOp) → o.Reply → Option Nat
  | .leaseGrant, .ok token => some token
  | _, _ => none

/-- While a token holds a lock, the steps of the others only bring indexes up to date, and they
create no timeline. -/
structure Keeps (token : Nat) (w w' : IndexWorld) : Prop where
  rebuild : w'.lock .rebuild = some token → w.lock .rebuild = some token ∧ (w.Sound → w'.Sound) ∧
    ∀ entry, w'.Uncovered entry → w.Uncovered entry
  creation : w'.lock .creation = some token → w.lock .creation = some token ∧
    (d.limit ≠ none → w'.routes.length = w.routes.length)

end Duty

variable {d : Duty} {w w' : IndexWorld} {token : Nat}

lemma IndexWorld.Sound.congr (h : w.Sound) (hroutes : w'.routes = w.routes)
    (hstatus : ∀ key, key ≠ timelineStatusIndexMarkerKey → w'.status key = w.status key) :
    w'.Sound := by
  intro key value hmarker hval
  rw [hroutes]
  exact h key value hmarker (hstatus key hmarker ▸ hval)

lemma IndexWorld.Uncovered.congr {entry : RouteEntry} (h : w'.Uncovered entry)
    (hroutes : w'.routes = w.routes)
    (hstatus : ∀ key, key ≠ timelineStatusIndexMarkerKey → w'.status key = w.status key) :
    w.Uncovered entry := by
  refine ⟨hroutes ▸ h.1, fun hcovered => h.2 fun key hkey => ?_⟩
  have hmarker : key ≠ timelineStatusIndexMarkerKey := by
    rintro rfl
    exact marker_notMem_indexKeys entry.record hkey
  rw [hstatus key hmarker]
  exact hcovered key hkey

lemma IndexWorld.coherent_iff : w.Coherent ↔ w.Sound ∧ ∀ entry, ¬ w.Uncovered entry := by
  constructor
  · intro h
    exact ⟨h.sound, fun entry hentry => hentry.2 (h.covered entry hentry.1)⟩
  rintro ⟨hsound, hnone⟩
  refine ⟨hsound, fun entry hentry => ?_⟩
  by_contra hcovered
  exact hnone entry ⟨hentry, hcovered⟩

lemma IndexWorld.Coherent.of_kept (h : w.Coherent) (hsound : w.Sound → w'.Sound)
    (huncovered : ∀ entry, w'.Uncovered entry → w.Uncovered entry) : w'.Coherent := by
  obtain ⟨hold, hnone⟩ := coherent_iff.mp h
  exact coherent_iff.mpr ⟨hsound hold, fun entry hentry => hnone entry (huncovered entry hentry)⟩

section

variable {entry : RouteEntry} (hw : w.Wellformed) (hentry : entry ∈ w.routes)

lemma status_commit_indexRoute (key : String) : (w.commit (.indexRoute token entry)).status key =
      if key ∈ timelineStatusIndexKeys entry.record then some (.record entry.record)
      else w.status key := by
  change ((timelineStatusIndexPutOps entry.record).foldl IndexWorld.apply w.advance).status key = _
  rw [putOps_eq]
  rfl

include hentry in
lemma sound_commit_indexRoute (hsound : w.Sound) : (w.commit (.indexRoute token entry)).Sound := by
  intro key value hmarker hvalue
  rw [status_commit_indexRoute] at hvalue
  split_ifs at hvalue with hkey
  · exact ⟨entry, hentry, hkey, (some.inj hvalue).symm⟩
  · exact hsound key value hmarker hvalue

include hw hentry in
lemma uncovered_commit_indexRoute {other : RouteEntry}
    (h : (w.commit (.indexRoute token entry)).Uncovered other) :
    w.Uncovered other ∧ other ≠ entry := by
  obtain ⟨hmem, hnot⟩ := h
  have hother : other ∈ w.routes := hmem
  have hne : other ≠ entry := by
    rintro rfl
    refine hnot fun key hkey => ?_
    rw [status_commit_indexRoute, if_pos hkey]
  refine ⟨⟨hother, fun hcovered => hnot fun key hkey => ?_⟩, hne⟩
  rw [status_commit_indexRoute, if_neg]
  · exact hcovered key hkey
  intro hmine
  have hsame := key_eq_of_mem_indexKeys hkey hmine
  rw [hw.keyed other hother, hw.keyed entry hentry] at hsame
  exact hne (hw.ordered.eq_of_key_eq hother hentry hsame)

end

namespace Duty

lemma Keeps.refl (token : Nat) (w : IndexWorld) : d.Keeps token w w :=
  ⟨fun h => ⟨h, id, fun _ h => h⟩, fun h => ⟨h, fun _ => rfl⟩⟩

lemma Keeps.trans {w'' : IndexWorld} (h : d.Keeps token w w') (h' : d.Keeps token w' w'') :
    d.Keeps token w w'' := by
  constructor
  · intro hlock
    obtain ⟨hlock', hsound', huncovered'⟩ := h'.rebuild hlock
    obtain ⟨hlock'', hsound, huncovered⟩ := h.rebuild hlock'
    exact ⟨hlock'', fun hs => hsound' (hsound hs), fun e he => huncovered e (huncovered' e he)⟩
  · intro hlock
    obtain ⟨hlock', hlen'⟩ := h'.creation hlock
    obtain ⟨hlock'', hlen⟩ := h.creation hlock'
    exact ⟨hlock'', fun hd => (hlen' hd).trans (hlen hd)⟩

lemma Keeps.quiet (h : w.Quiet w') : d.Keeps token w w' := by
  have hstatus : ∀ key, key ≠ timelineStatusIndexMarkerKey → w'.status key = w.status key :=
    fun key _ => by rw [h.status]
  refine ⟨fun hlock => ⟨h.lock _ _ hlock, fun hsound => hsound.congr h.routes hstatus,
    fun entry hentry => hentry.congr h.routes hstatus⟩, fun hlock =>
      ⟨h.lock _ _ hlock, fun _ => ?_⟩⟩
  rw [h.routes]

lemma Inv.quiet (hinv : d.Inv w) (h : w.Quiet w') : d.Inv w' := by
  have hstatus : ∀ key, key ≠ timelineStatusIndexMarkerKey → w'.status key = w.status key :=
    fun key _ => by rw [h.status]
  refine ⟨h.wellformed hinv.wellformed, fun hd hmarker => ?_, h.routes ▸ hinv.limit⟩
  rw [IndexWorld.MarkerCurrent, h.status] at hmarker
  exact (hinv.coherent hd hmarker).of_kept (fun hsound => hsound.congr h.routes hstatus)
    fun entry hentry => hentry.congr h.routes hstatus

lemma coherent_rewritten (hinv : d.Inv w) (h : w.advance.Rewritten w') (hd : d.coherent)
    (hmarker : w'.MarkerCurrent) : w'.Coherent := by
  have hbefore : w.MarkerCurrent := by
    rw [IndexWorld.MarkerCurrent, h.marker] at hmarker
    exact hmarker
  exact (hinv.coherent hd hbefore).of_kept h.sound h.uncovered

lemma Inv.commit {request : IndexTxn} (hinv : d.Inv w) (hfits : w.Fits request)
    (howed : d.Owed w request) (hadmits : w.admits request = true) : d.Inv (w.commit request) := by
  have hw := hinv.wellformed
  refine ⟨hw.commit hfits hadmits, fun hd hmarker => ?_, fun max hmax => ?_⟩
  · cases request with
    | create key record lock =>
      exact coherent_rewritten hinv (.of_create hw hfits hadmits) hd hmarker
    | exchange operations =>
      exact coherent_rewritten hinv (.of_exchange hw hfits hadmits) hd hmarker
    | acquire name token => exact (hinv.coherent hd hmarker).of_kept id fun _ h => h
    | cleanup token => cases hmarker
    | indexRoute token entry =>
      have hentry : entry ∈ w.routes := IndexWorld.Seen.mem hfits hw
        (IndexWorld.admits_routeRevision hadmits (by simp [IndexTxn.compares]))
      exact (hinv.coherent hd hmarker).of_kept (sound_commit_indexRoute hentry)
        fun other hother => (uncovered_commit_indexRoute hw hentry hother).1
    | publish token =>
      have hcoherent := howed (IndexWorld.admits_fence hadmits (by simp [IndexTxn.compares]))
      have hstatus : ∀ key, key ≠ timelineStatusIndexMarkerKey →
          (w.commit (.publish token)).status key = w.status key := fun key hkey => if_neg hkey
      exact hcoherent.of_kept (fun hsound => hsound.congr rfl hstatus)
        fun entry hentry => hentry.congr rfl hstatus
  · have hold := hinv.limit max hmax
    cases request with
    | create key record lock =>
      cases lock with
      | none => cases howed.symm.trans hmax
      | some token =>
        have habsent := hw.notMem_of_routeRevision
          (IndexWorld.admits_routeRevision hadmits mem_cons_self)
        have hless : w.routes.length < max :=
          howed (IndexWorld.admits_fence hadmits (by simp [IndexTxn.compares])) habsent max hmax
        exact IndexWorld.length_commit_create.trans hless
    | exchange operations =>
      rw [IndexWorld.length_commit_exchange hw hfits hadmits]
      exact hold
    | acquire name token => exact hold
    | cleanup token => exact hold
    | indexRoute token entry => exact hold
    | publish token => exact hold

lemma Keeps.commit {request : IndexTxn} (hinv : d.Inv w) (hfits : w.Fits request)
    (howed : d.Owed w request) (hadmits : w.admits request = true)
    (htoken : request.token ≠ some token) : d.Keeps token w (w.commit request) := by
  have hw := hinv.wellformed
  have hne : ∀ {name : LockName} {other : Nat}, request.token = some other →
      .lockValue name other ∈ request.compares → w.lock name ≠ some token := by
    intro name other hother hmem hlock
    rw [IndexWorld.admits_fence hadmits hmem] at hlock
    exact htoken (hother.trans hlock)
  cases request with
  | create key record lock =>
    have h := IndexWorld.Rewritten.of_create hw hfits hadmits
    refine ⟨fun hlock => ⟨h.lock ▸ hlock, h.sound, h.uncovered⟩, fun hlock => ?_⟩
    have hbefore : w.lock .creation = some token := by exact hlock
    refine ⟨hbefore, fun hd => ?_⟩
    cases lock with
    | none => exact absurd howed hd
    | some other => exact absurd hbefore (hne rfl (by simp [IndexTxn.compares]))
  | exchange operations =>
    have h := IndexWorld.Rewritten.of_exchange hw hfits hadmits
    refine ⟨fun hlock => ⟨h.lock ▸ hlock, h.sound, h.uncovered⟩, fun hlock => ⟨h.lock ▸ hlock, ?_⟩⟩
    exact fun _ => IndexWorld.length_commit_exchange hw hfits hadmits
  | acquire name other =>
    have hother : other ≠ token := fun heq => htoken (congrArg some heq)
    have hlock : ∀ n, (w.commit (.acquire name other)).lock n = some token →
        w.lock n = some token := by
      intro n hn
      change (if n = name then some other else w.lock n) = some token at hn
      split_ifs at hn
      · exact absurd (some.inj hn) hother
      · exact hn
    exact ⟨fun h => ⟨hlock _ h, id, fun _ h => h⟩, fun h => ⟨hlock _ h, fun _ => rfl⟩⟩
  | cleanup other =>
    refine ⟨fun hlock => ?_, fun hlock => ⟨hlock, fun _ => rfl⟩⟩
    exact absurd hlock (hne rfl mem_cons_self)
  | indexRoute other entry =>
    refine ⟨fun hlock => ?_, fun hlock => ⟨hlock, fun _ => rfl⟩⟩
    exact absurd hlock (hne rfl mem_cons_self)
  | publish other =>
    refine ⟨fun hlock => ?_, fun hlock => ⟨hlock, fun _ => rfl⟩⟩
    cases hlock

lemma exec_grants {o : IndexOp} {c : IndexChoice} {r : o.Reply}
    (h : indexExec () o c w = some (r, w')) (hgrant : grants o r = some token) :
    ¬ token < w.nextLease ∧ token < w'.nextLease := by
  cases o with
  | leaseGrant =>
    cases c with
    | done =>
      cases h
      cases hgrant
      exact ⟨lt_irrefl _, Nat.lt_succ_self _⟩
    | lost msg =>
      cases h
      cases hgrant
    | down msg =>
      cases h
      cases hgrant
    | flag value => cases h
  | _ => cases hgrant

def tenure (d : Duty) : Tenure indexMachine Nat where
  Inv := d.Inv
  Allowed := d.Allowed
  Issued w token := token < w.nextLease
  uses := uses
  grants := grants
  Keeps := d.Keeps
  issued_mono hle h := h.trans_le hle.nextLease
  keeps_refl := Keeps.refl
  keeps_trans := Keeps.trans
  exec_inv hinv hallowed hexec := by
    rcases IndexWorld.exec_cases hexec with ⟨request, rfl, hadmits, rfl⟩ | hquiet
    · exact hinv.commit hallowed.1 hallowed.2 hadmits
    · exact hinv.quiet hquiet
  exec_le hinv hallowed hexec := by
    rcases IndexWorld.exec_cases hexec with ⟨request, rfl, hadmits, rfl⟩ | hquiet
    · exact IndexWorld.le_commit hinv.wellformed hallowed.1 hadmits
    · exact hquiet.le
  exec_keeps hinv hallowed hexec huses := by
    rcases IndexWorld.exec_cases hexec with ⟨request, rfl, hadmits, rfl⟩ | hquiet
    · exact .commit hinv hallowed.1 hallowed.2 hadmits huses
    · exact .quiet hquiet
  exec_grants := exec_grants
  env_inv := by
    rintro ⟨lease⟩ w w' hinv hstep
    cases hstep
    exact hinv.quiet (.revoke w lease)
  env_le := by
    rintro ⟨lease⟩ w w' hinv hstep
    cases hstep
    exact (IndexWorld.Quiet.revoke w lease).le
  env_keeps := by
    rintro ⟨lease⟩ w w' token hinv hstep
    cases hstep
    exact .quiet (.revoke w lease)

end Duty

end Chronos
