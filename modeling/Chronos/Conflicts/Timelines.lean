import Chronos.Interleaving.Sequential
import Chronos.StatusIndex.Steps

/-! What a reported conflict of an exchange of timelines says. A transaction whose answer is lost is
sent again, and the second attempt fails on the work of the first; the exchange then reads the
records back before it reports a conflict. -/

namespace Chronos

open Interleaving KeyValue List

/-- A store, with a mark once an attempt of the call in progress has been committed. -/
structure Marked (World : Type) where
  store : World
  committed : Bool

def Marked.fresh {World : Type} (w : Marked World) : Marked World := { w with committed := false }

def markCommits {S : Signature} {Choice Event World : Type} (M : Machine S Unit Choice Event World)
    (commits : S.Op → Choice → World → Bool) : Machine S Unit Choice Event (Marked World) where
  exec a o c w :=
    (M.exec a o c w.store).map fun x => (x.1, ⟨x.2, w.committed || commits o c w.store⟩)
  env e w := (M.env e w.store).map fun store => { w with store }

def Truthful {World α : Type} (out : Except TsoError α) (w : Marked World) : Prop :=
  out = .error .casFailed → w.committed = false

def IndexOp.commits : IndexOp → IndexChoice → IndexWorld → Bool
  | .txn request, .done, w | .txn request, .lost _, w => w.leased request && w.admits request
  | _, _, _ => false

def sharedIndexMachine : Machine indexSig Unit IndexChoice IndexTxn IndexWorld where
  exec := indexExec
  env request w := if w.admits request then some (w.commit request) else none

abbrev timelineCasMachine : Machine indexSig Unit IndexChoice IndexTxn (Marked IndexWorld) :=
  markCommits sharedIndexMachine IndexOp.commits

inductive TimelineCas where
  | one (key : String) (expectedRevision : Nat) (record : TimelineRecord)
  | batch (operations : List TimelineBatchOp)
  deriving DecidableEq

def TimelineCas.keys : TimelineCas → List String
  | one key _ _ => [key]
  | batch operations => operations.map TimelineBatchOp.timelineKey

def timelineCasCode : TimelineCas → IndexProg (List Nat)
  | .one key expectedRevision record => do
    let revision ← compareExchangeTimelineRecord key expectedRevision record
    return [revision]
  | .batch operations => compareExchangeTimelineRecords operations

abbrev TimelineCasState := Single indexSig (Marked IndexWorld) TimelineCas TsoError (List Nat)

def TimelineCasState.unmarked (s : TimelineCasState) : Turn TimelineCas IndexChoice IndexTxn → Prop
  | .start _ => s.world.committed = false
  | _ => True

def IndexTxn.routeKeys : IndexTxn → List String
  | create key _ _ => [key]
  | exchange operations => operations.map TimelineExchange.key
  | _ => []

/-- Besides, no other client writes a record of the call in progress once an attempt of the call
has been committed. -/
def TimelineCasState.undisturbed (s : TimelineCasState) :
    Turn TimelineCas IndexChoice IndexTxn → Prop
  | .start _ => s.world.committed = false
  | .env request => s.world.committed = true →
      ∀ call ∈ s.running, ∀ key ∈ call.1.keys, key ∉ request.routeKeys
  | _ => True

abbrev TimelineCasRun (G : TimelineCasState → Turn TimelineCas IndexChoice IndexTxn → Prop)
    (w₀ : Marked IndexWorld) : TimelineCasState → Prop :=
  Transition.Reach (turn timelineCasMachine () timelineCasCode Marked.fresh) G ⟨w₀, none⟩

def timelineCasSetting (keys : List String) :
    Setting indexSig Unit IndexChoice IndexTxn (Marked IndexWorld) where
  machine := timelineCasMachine
  actor := ()
  Allowed _ _ _ := True
  Drift w w' := w'.committed = w.committed ∧
    (w.committed = true → ∀ key ∈ keys, w'.store.getRoute key = w.store.getRoute key)
  drift_refl _ := ⟨rfl, fun _ _ _ => rfl⟩
  drift_trans h h' := ⟨h'.1.trans h.1, fun hmark key hkey =>
    (h'.2 (h.1.trans hmark) key hkey).trans (h.2 hmark key hkey)⟩

section

variable {w : IndexWorld} {key : String}

lemma getRoute_apply {op : IndexTxnOp} (h : ∀ record, op ≠ .putRoute key record) :
    (w.apply op).getRoute key = w.getRoute key := by
  cases op with
  | putRoute other record =>
    have hne : other ≠ key := fun heq => h record (by rw [heq])
    exact find?_insertOrdered_of_ne RouteEntry.key hne w.routes
  | _ => rfl

lemma getRoute_foldl {ops : List IndexTxnOp} (h : ∀ record, .putRoute key record ∉ ops) :
    (ops.foldl IndexWorld.apply w).getRoute key = w.getRoute key := by
  induction ops generalizing w with
  | nil => rfl
  | cons op rest ih =>
    rw [foldl_cons, ih fun record hmem => h record (mem_cons_of_mem _ hmem)]
    exact getRoute_apply fun record heq => h record (heq ▸ mem_cons_self)

lemma getRoute_rewrite (prev : Option TimelineRecord) (record : TimelineRecord) (other : String) :
    ((w.rewrite key prev record).getRoute other).map RouteEntry.record =
      if other = key then some record else (w.getRoute other).map RouteEntry.record := by
  rw [rewrite_eq]
  split_ifs with hother
  · subst hother
    have hfind := find?_insertOrdered_self RouteEntry.key ⟨other, record, w.revision⟩ w.routes
    exact congrArg (Option.map RouteEntry.record) hfind
  · exact congrArg _ (find?_insertOrdered_of_ne RouteEntry.key (Ne.symm hother) _)

lemma getRoute_commit_exchange {operations : List TimelineExchange}
    (hnodup : (operations.map TimelineExchange.key).Nodup) {x : TimelineExchange}
    (hx : x ∈ operations) :
    ((w.commit (.exchange operations)).getRoute x.key).map RouteEntry.record = some x.record := by
  rw [IndexWorld.commit_exchange]
  generalize w.advance = w'
  induction operations generalizing w' with
  | nil => cases hx
  | cons first rest ih =>
    rw [List.map_cons, List.nodup_cons] at hnodup
    rw [List.foldl_cons]
    rcases List.mem_cons.mp hx with rfl | hrest
    · -- the later exchanges are on other timelines
      have hkept : ∀ (rest : List TimelineExchange) (w : IndexWorld),
          x.key ∉ rest.map TimelineExchange.key →
          ((rest.foldl (fun w y => w.rewrite y.key (some y.previousRecord) y.record) w).getRoute
            x.key).map RouteEntry.record = (w.getRoute x.key).map RouteEntry.record := by
        intro rest
        induction rest with
        | nil => exact fun _ _ => rfl
        | cons y rest ihrest =>
          intro w hnotMem
          rw [List.map_cons, List.mem_cons, not_or] at hnotMem
          rw [List.foldl_cons, ihrest _ hnotMem.2, getRoute_rewrite, if_neg hnotMem.1]
      rw [hkept rest _ hnodup.1, getRoute_rewrite, if_pos rfl]
    · exact ih hnodup.2 hrest _

end

namespace TimelineCas

variable {keys : List String} {J : Marked IndexWorld → Prop} {w : Marked IndexWorld}
  {operations : List TimelineExchange}

def Undrifting (keys : List String) (J : Marked IndexWorld → Prop) : Prop :=
  ∀ w w', J w → (timelineCasSetting keys).Drift w w' → J w'

abbrev CasWp {α : Type} (keys : List String) (prog : IndexProg α)
    (Q : Except TsoError α → Marked IndexWorld → Prop) (w : Marked IndexWorld) : Prop :=
  (timelineCasSetting keys).Wp (fun _ => True) prog Q w

def Standing (operations : List TimelineExchange) (w : Marked IndexWorld) : Prop :=
  w.committed = true → ∀ x ∈ operations,
    (w.store.getRoute x.key).map RouteEntry.record = some x.record

lemma undrifting_standing (hkeys : ∀ x ∈ operations, x.key ∈ keys) :
    Undrifting keys (Standing operations) := by
  intro w w' h hdrift hmark x hx
  have hmark' : w.committed = true := hdrift.1.symm.trans hmark
  rw [hdrift.2 hmark' x.key (hkeys x hx)]
  exact h hmark' x hx

lemma undrifting_unmarked : Undrifting keys fun w => w.committed = false :=
  fun _ _ h hdrift => hdrift.1.trans h

variable {c : IndexChoice} {key : String} {α : Type} {batch : List TimelineBatchOp}

lemma casExec_cases {o : IndexOp} {r : o.Reply} {w' : Marked IndexWorld}
    (h : timelineCasMachine.exec () o c w = some (r, w')) :
    ∃ store, indexExec () o c w.store = some (r, store) ∧
      w' = ⟨store, w.committed || o.commits c w.store⟩ := by
  obtain ⟨⟨r', store⟩, hexec, heq⟩ := Option.map_eq_some_iff.mp h
  obtain ⟨rfl, rfl⟩ := Prod.mk.inj heq
  exact ⟨store, hexec, rfl⟩

lemma txn_cases {req : IndexTxn} {r : Except String (Option Nat)}
    {store store' : IndexWorld} (h : indexExec () (.txn req) c store = some (r, store')) :
    store' = store.commit req ∨ store' = store ∧ IndexOp.commits (.txn req) c store = false := by
  cases c with
  | done =>
    simp only [indexExec] at h
    split_ifs at h with hleased hadmits
    · cases h
      rw [Bool.not_eq_true'] at hleased
      exact .inr ⟨rfl, by simp [IndexOp.commits, hleased]⟩
    · cases h
      exact .inl rfl
    · cases h
      exact .inr ⟨rfl, by simp [IndexOp.commits, hadmits]⟩
  | lost msg =>
    simp only [indexExec] at h
    split_ifs at h with hadmits
    · cases h
      exact .inl rfl
    · cases h
      exact .inr ⟨rfl, Bool.eq_false_iff.mpr hadmits⟩
  | down msg =>
    cases h
    exact .inr ⟨rfl, rfl⟩
  | flag value => cases h

lemma wp_retryAllowed (hJ : Undrifting keys J) (h : J w) :
    CasWp keys (indexCall .retryAllowed) (fun out w1 => (∃ b, out = .ok b) ∧ J w1) w := by
  refine Setting.wp_op fun w1 hdrift _ c r w2 _ hexec => ⟨trivial, fun w3 hdrift3 => ⟨⟨r, rfl⟩, ?_⟩⟩
  obtain ⟨store, hstore, rfl⟩ := casExec_cases hexec
  have hsame : store = w1.store ∧ IndexOp.commits .retryAllowed c w1.store = false := by
    cases c with
    | flag value =>
      cases hstore
      exact ⟨rfl, rfl⟩
    | done | lost | down => cases hstore
  rw [hsame.1, hsame.2, Bool.or_false] at hdrift3
  exact hJ _ _ (hJ _ _ h hdrift) hdrift3

def Found {η : Type} (key : String) (J : Marked IndexWorld → Prop)
    (r : Except η (Option RouteEntry)) (w : Marked IndexWorld) : Prop :=
  J w ∧ ∀ found, r = .ok found → w.committed = true → found = w.store.getRoute key

lemma undrifting_found {η : Type} (hkey : key ∈ keys) (hJ : Undrifting keys J)
    (r : Except η (Option RouteEntry)) : Undrifting keys (Found key J r) := by
  intro w1 w2 hw hdrift
  refine ⟨hJ _ _ hw.1 hdrift, fun found hfound hmark => ?_⟩
  have hmark1 : w1.committed = true := hdrift.1.symm.trans hmark
  rw [hdrift.2 hmark1 key hkey]
  exact hw.2 found hfound hmark1

lemma wp_getRoute (hkey : key ∈ keys) (hJ : Undrifting keys J) (h : J w) :
    CasWp keys (retryEtcdRequest (indexCall (.getRoute key)))
      (fun out w1 => ∃ r, out = .ok r ∧ Found key J r w1) w := by
  have hstay := fun r => undrifting_found (η := String) hkey hJ r
  refine Setting.Wp.retry (J := J) (fun r _ _ => hstay r _ _) ?_
    (fun e w1 hr => wp_retryAllowed (hstay _) hr) (fun _ _ hr => hr.1) 3 h
  intro w1 h1
  refine Setting.wp_op fun w2 hdrift _ c r w3 _ hexec => ⟨trivial, fun w4 hdrift4 => ⟨r, rfl, ?_⟩⟩
  obtain ⟨store, hstore, rfl⟩ := casExec_cases hexec
  have h2 : J w2 := hJ _ _ h1 hdrift
  have hread : store = w2.store ∧ IndexOp.commits (.getRoute key) c w2.store = false ∧
      ∀ found, r = .ok found → found = w2.store.getRoute key := by
    cases c with
    | done =>
      cases hstore
      exact ⟨rfl, rfl, fun found hfound => (Except.ok.inj hfound).symm⟩
    | down msg =>
      cases hstore
      exact ⟨rfl, rfl, fun found hfound => by cases hfound⟩
    | lost | flag => cases hstore
  obtain ⟨rfl, hcommits, hfound⟩ := hread
  rw [hcommits, Bool.or_false] at hdrift4
  exact hstay r w2 w4 ⟨h2, fun found hr _ => hfound found hr⟩ hdrift4

lemma wp_orInternal {context : String} {request : IndexProg (Except String α)}
    {R : Except String α → Marked IndexWorld → Prop} (hR : ∀ r, Undrifting keys (R r))
    (h : CasWp keys request (fun out w1 => ∃ r, out = .ok r ∧ R r w1) w) :
    CasWp keys (orInternal context request) (fun out w1 => out ≠ .error .casFailed ∧
      ∃ r, (∀ x, out = .ok x → r = .ok x) ∧ R r w1) w := by
  refine Setting.Wp.bind h (fun r w1 hr => ?_) fun e w1 hr => ?_
  · obtain ⟨r', heq, hr⟩ := hr
    cases heq
    cases r with
    | ok x =>
      intro w2 hdrift
      refine ⟨(by simp), .ok x, fun y hy => ?_, hR _ _ _ hr hdrift⟩
      rw [Except.ok.inj hy]
    | error message =>
      intro w2 hdrift
      exact ⟨(by simp), .error message, fun y hy => (by cases hy), hR _ _ _ hr hdrift⟩
  · obtain ⟨r, heq, -⟩ := hr
    cases heq

lemma wp_loadTimeline (hkey : key ∈ keys) (hJ : Undrifting keys J) (h : J w) :
    CasWp keys (loadTimeline key)
      (fun out w1 => out ≠ .error .casFailed ∧ Found key J out w1) w := by
  refine Setting.Wp.bind (wp_orInternal (undrifting_found hkey hJ) (wp_getRoute hkey hJ h))
    (fun found w1 hfound => ?_) fun e w1 hfound => ?_
  · obtain ⟨-, r, hr, hfound⟩ := hfound
    rw [hr found rfl] at hfound
    have hback : Found key J (.ok found : Except TsoError _) w1 :=
      ⟨hfound.1, fun x hx => hfound.2 x (by rw [Except.ok.inj hx])⟩
    split
    · exact fun w2 hdrift => ⟨(by simp), undrifting_found hkey hJ _ _ _ hback hdrift⟩
    · next entry =>
      refine Setting.Wp.bind (R := fun out w2 => out ≠ .error .casFailed ∧
        Found key J (.ok (some entry) : Except TsoError _) w2) ?_ (fun _ w2 hw2 w3 hdrift => ?_)
        fun e w2 hw2 => ?_
      · refine Setting.wp_ofExcept fun w2 hdrift =>
          ⟨?_, undrifting_found hkey hJ _ _ _ hback hdrift⟩
        unfold TimelineRecord.validateSchemaVersion
        split <;> simp
      · exact ⟨(by simp), undrifting_found hkey hJ _ _ _ hw2.2 hdrift⟩
      · exact ⟨fun he => hw2.1 (by rw [Except.error.inj he]), hw2.2.1, fun _ hx => (by cases hx)⟩
  · obtain ⟨hne, r, -, hfound⟩ := hfound
    exact ⟨fun he => hne (by rw [Except.error.inj he]), hfound.1, fun _ hx => (by cases hx)⟩

lemma wp_exchange (hkeys : ∀ x ∈ operations, x.key ∈ keys)
    (hnodup : (operations.map TimelineExchange.key).Nodup) (h : Standing operations w) :
    CasWp keys (indexEtcdTxn (.exchange operations))
      (fun out w1 => ∃ r, out = .ok r ∧ Standing operations w1) w := by
  have hstay := undrifting_standing hkeys
  refine Setting.Wp.retry (J := Standing operations)
    (fun _ => hstay) ?_ (fun e w1 hr => wp_retryAllowed hstay hr) (fun _ _ hr => hr) 3 h
  intro w1 h1
  refine Setting.wp_op fun w2 hdrift _ c r w3 _ hexec => ⟨trivial, fun w4 hdrift4 => ⟨r, rfl, ?_⟩⟩
  refine hstay _ _ ?_ hdrift4
  obtain ⟨store, hstore, rfl⟩ := casExec_cases hexec
  rcases txn_cases hstore with rfl | ⟨rfl, hcommits⟩
  · exact fun _ x hx => getRoute_commit_exchange hnodup hx
  · rw [hcommits, Bool.or_false]
    exact hstay _ _ h1 hdrift

lemma wp_casFailed (h : w.committed = false) :
    CasWp keys (.fail .casFailed : IndexProg α) Truthful w :=
  fun _ hdrift _ => hdrift.1.trans h

lemma wp_return {x : α} : CasWp keys (pure x : IndexProg α) Truthful w := nofun

lemma wp_fails {e : TsoError} (h : e ≠ .casFailed) :
    CasWp keys (.fail e : IndexProg α) Truthful w :=
  fun _ _ he => absurd (Except.error.inj he) h

lemma unmarked_of_found {x : TimelineExchange} {found : Option RouteEntry}
    (hx : x ∈ operations) (h : Found x.key (Standing operations) (.ok found : Except TsoError _) w)
    (hfound : found.map RouteEntry.record ≠ some x.record) : w.committed = false := by
  by_contra hmark
  rw [Bool.not_eq_false] at hmark
  apply hfound
  rw [h.2 found rfl hmark]
  exact h.1 hmark x hx

lemma wp_compareExchangeTimelineWithIndexes {expected : Nat}
    {record : TimelineRecord} (h : w.committed = false) :
    CasWp [key] (compareExchangeTimelineWithIndexes key expected record) Truthful w := by
  have hkey : key ∈ [key] := List.mem_singleton_self key
  refine Setting.Wp.bind (wp_loadTimeline hkey undrifting_unmarked h)
    (fun prev w1 hprev => ?_) fun e w1 hprev he => hprev.2.1
  have h1 : w1.committed = false := hprev.2.1
  split
  · exact wp_fails (by simp)
  · next prev =>
    split
    · exact wp_casFailed h1
    -- the transaction, and then the record is read back
    let x : TimelineExchange := ⟨key, expected, prev.record, record⟩
    have hkeys : ∀ y ∈ [x], y.key ∈ [key] := by simp [x]
    have hstanding : Standing [x] w1 := fun hmark => by rw [h1] at hmark; cases hmark
    refine Setting.Wp.bind (wp_orInternal (fun _ => undrifting_standing hkeys)
      (wp_exchange hkeys (List.nodup_singleton _) hstanding)) (fun answer w2 hanswer => ?_)
      fun e w2 hanswer he => absurd (by rw [Except.error.inj he]) hanswer.1
    obtain ⟨-, r, -, h2⟩ := hanswer
    split
    · exact wp_return
    refine Setting.Wp.bind (wp_loadTimeline hkey (undrifting_standing hkeys) h2)
      (fun existing w3 hexisting => ?_)
      fun e w3 hexisting he => absurd (by rw [Except.error.inj he]) hexisting.1
    have hunmarked := unmarked_of_found (List.mem_singleton_self x) hexisting.2
    split
    · split
      · exact wp_return
      · next hne => exact wp_casFailed (hunmarked (by simpa [x] using hne))
    · exact wp_casFailed (hunmarked (by simp))

structure Exchanges (seen : List String) (operations : List TimelineBatchOp)
    (exchanges : List TimelineExchange) : Prop where
  keys : exchanges.map TimelineExchange.key = operations.map TimelineBatchOp.timelineKey
  records : exchanges.map TimelineExchange.record = operations.map TimelineBatchOp.record
  nodup : (exchanges.map TimelineExchange.key).Nodup
  unseen : ∀ x ∈ exchanges, x.key ∉ seen

lemma wp_loadExchanges (seen : List String)
    (hkeys : ∀ op ∈ batch, op.timelineKey ∈ keys) (h : w.committed = false) :
    CasWp keys (loadExchanges seen batch) (fun out w1 => w1.committed = false ∧
      ∀ exchanges, out = .ok exchanges → Exchanges seen batch exchanges) w := by
  induction batch generalizing seen w with
  | nil =>
    refine fun w1 hdrift => ⟨hdrift.1.trans h, fun exchanges hout => ?_⟩
    cases hout
    exact ⟨rfl, rfl, nodup_nil, fun _ hx => absurd hx not_mem_nil⟩
  | cons op rest ih =>
    have hfails : ∀ (e : TsoError) (w1 : Marked IndexWorld), w1.committed = false →
        CasWp keys (.fail e : IndexProg (List TimelineExchange)) (fun out w1 =>
          w1.committed = false ∧ ∀ exchanges, out = .ok exchanges →
            Exchanges seen (op :: rest) exchanges) w1 :=
      fun e w1 h1 w2 hdrift => ⟨hdrift.1.trans h1, fun _ hout => by cases hout⟩
    rw [forall_mem_cons] at hkeys
    unfold loadExchanges
    split
    · exact hfails _ w h
    · next hunseen =>
      refine Setting.Wp.bind (wp_loadTimeline hkeys.1 undrifting_unmarked h)
        (fun prev w1 hprev => ?_)
        fun e w1 hprev => ⟨hprev.2.1, fun _ hout => by cases hout⟩
      split
      · exact hfails _ w1 hprev.2.1
      split
      · exact hfails _ w1 hprev.2.1
      refine Setting.Wp.bind (ih (op.timelineKey :: seen) hkeys.2 hprev.2.1)
        (fun exchanges w2 hexchanges w3 hdrift => ⟨hdrift.1.trans hexchanges.1, ?_⟩)
        fun e w2 hexchanges => ⟨hexchanges.1, fun _ hout => by cases hout⟩
      intro all hall
      cases hall
      obtain ⟨heqKeys, heqRecords, hnodup, hfresh⟩ := hexchanges.2 exchanges rfl
      refine ⟨by rw [map_cons, heqKeys]; rfl, by rw [map_cons, heqRecords]; rfl, ?_, ?_⟩
      · rw [map_cons, nodup_cons]
        refine ⟨fun hmem => ?_, hnodup⟩
        obtain ⟨x, hx, hkey⟩ := mem_map.mp hmem
        exact hfresh x hx (hkey ▸ mem_cons_self)
      · rw [forall_mem_cons]
        exact ⟨hunseen, fun x hx hmem => hfresh x hx (mem_cons_of_mem _ hmem)⟩

lemma wp_recoverRevisions (hkeys : ∀ x ∈ operations, x.key ∈ keys)
    (hbatch : ∀ op ∈ batch, ∃ x ∈ operations, x.key = op.timelineKey ∧
      x.record = op.record) (h : Standing operations w) :
    CasWp keys (recoverRevisions batch) Truthful w := by
  induction batch generalizing w with
  | nil => exact wp_return
  | cons op rest ih =>
    rw [forall_mem_cons] at hbatch
    obtain ⟨⟨x, hx, hkey, hrecord⟩, hrest⟩ := hbatch
    have hkeyMem : op.timelineKey ∈ keys := hkey ▸ hkeys x hx
    refine Setting.Wp.bind (wp_loadTimeline hkeyMem (undrifting_standing hkeys) h)
      (fun existing w1 hexisting => ?_)
      fun e w1 hexisting he => absurd (by rw [Except.error.inj he]) hexisting.1
    rw [← hkey] at hexisting
    have hunmarked := unmarked_of_found hx hexisting.2
    split
    · split
      · exact Setting.Wp.bind (ih hrest hexisting.2.1) (fun _ _ _ => wp_return)
          fun e w2 hout he => hout (by rw [Except.error.inj he])
      · next hne =>
        refine wp_casFailed (hunmarked ?_)
        simpa [hrecord] using hne
    · exact wp_casFailed (hunmarked (by simp))

lemma wp_compareExchangeTimelinesWithIndexes (h : w.committed = false) :
    CasWp (batch.map TimelineBatchOp.timelineKey) (compareExchangeTimelinesWithIndexes batch)
      Truthful w := by
  unfold compareExchangeTimelinesWithIndexes
  split
  · exact wp_return
  refine Setting.Wp.bind (wp_loadExchanges [] (fun _ hmem => mem_map_of_mem hmem) h)
    (fun exchanges w1 hload => ?_) fun e w1 hload _ => hload.1
  obtain ⟨heqKeys, heqRecords, hnodup, -⟩ := hload.2 exchanges rfl
  have hkeys : ∀ x ∈ exchanges, x.key ∈ batch.map TimelineBatchOp.timelineKey :=
    fun x hx => heqKeys ▸ mem_map_of_mem hx
  have hstanding : Standing exchanges w1 := fun hmark => by rw [hload.1] at hmark; cases hmark
  refine Setting.Wp.bind (wp_orInternal (fun _ => undrifting_standing hkeys)
    (wp_exchange hkeys hnodup hstanding)) (fun answer w2 hanswer => ?_)
    fun e w2 hanswer he => absurd (by rw [Except.error.inj he]) hanswer.1
  obtain ⟨-, r, -, h2⟩ := hanswer
  split
  · exact wp_return
  refine wp_recoverRevisions hkeys (fun op hmem => ?_) h2
  obtain ⟨i, hi, rfl⟩ := getElem_of_mem hmem
  have hlen : exchanges.length = batch.length := by simpa using congrArg length heqKeys
  have hi' : i < exchanges.length := hlen ▸ hi
  refine ⟨exchanges[i], getElem_mem hi', ?_, ?_⟩
  · simpa [hi, hi'] using congrArg (fun l => l[i]?) heqKeys
  · simpa [hi, hi'] using congrArg (fun l => l[i]?) heqRecords

lemma validateOperations_ne_casFailed (batch : List TimelineBatchOp) :
    validateOperations batch ≠ .error .casFailed := by
  induction batch with
  | nil => simp [validateOperations]
  | cons op rest ih =>
    unfold validateOperations
    split
    · next e h =>
      unfold TimelineRecord.validateSchemaVersion at h
      split_ifs at h
      cases h
      simp
    · exact ih

lemma wp_timelineCasCode (call : TimelineCas) (h : w.committed = false) :
    CasWp call.keys (timelineCasCode call) Truthful w := by
  have hvalidated : ∀ {α : Type} (keys : List String) (x : Except TsoError Unit)
      (rest : IndexProg α), x ≠ .error .casFailed →
      (∀ w1 : Marked IndexWorld, w1.committed = false → CasWp keys rest Truthful w1) →
      CasWp keys (Prog.ofExcept x >>= fun _ => rest) Truthful w := by
    intro α keys x rest hx hrest
    cases x with
    | ok u => exact hrest w h
    | error e => exact wp_fails fun he => hx (by rw [he])
  cases call with
  | one key expectedRevision record =>
    refine Setting.Wp.bind (hvalidated _ _ _ ?_ fun w1 h1 =>
      wp_compareExchangeTimelineWithIndexes h1) (fun _ _ _ => wp_return)
      fun e w1 hout he => hout (by rw [Except.error.inj he])
    unfold TimelineRecord.validateSchemaVersion
    split <;> simp
  | batch operations =>
    refine hvalidated _ _ _ (validateOperations_ne_casFailed operations) fun w1 h1 => ?_
    have hkeys : (operations.map fun operation =>
        { operation with record := operation.record.stampedForPersistence }).map
          TimelineBatchOp.timelineKey = operations.map TimelineBatchOp.timelineKey := by
      rw [map_map]
      rfl
    rw [TimelineCas.keys, ← hkeys]
    exact wp_compareExchangeTimelinesWithIndexes h1

end TimelineCas

lemma putRoute_notMem_ops {request : IndexTxn} {key : String} (h : key ∉ request.routeKeys)
    (record : TimelineRecord) : .putRoute key record ∉ request.ops := by
  have hputs : ∀ next : TimelineRecord, .putRoute key record ∉ timelineStatusIndexPutOps next := by
    simp [timelineStatusIndexPutOps]
  cases request with
  | create other next lock =>
    simp only [IndexTxn.routeKeys, mem_singleton] at h
    simp [IndexTxn.ops, hputs, h]
  | exchange operations =>
    intro hmem
    obtain ⟨x, hx, hop⟩ := mem_flatMap.mp hmem
    rcases mem_cons.mp hop with heq | hop
    · cases heq
      exact h (mem_map_of_mem hx)
    · simp [timelineStatusIndexReplaceOps, hputs] at hop
  | indexRoute token entry => exact hputs entry.record
  | acquire | cleanup | publish => simp [IndexTxn.ops]

lemma keeps_timelineCas :
    Keeps timelineCasMachine () timelineCasCode Marked.fresh TimelineCasState.undisturbed
      (fun call => timelineCasSetting call.keys) (fun _ => True) (fun _ => True)
      (fun _ => Truthful) where
  machine _ := rfl
  actor _ := rfl
  start call _ hG _ _ := TimelineCas.wp_timelineCasCode call hG
  allowed _ _ _ _ _ _ := trivial
  finish _ _ _ _ _ _ := trivial
  drift call prog request w w' hG henv := by
    obtain ⟨store, hstore, rfl⟩ := Option.map_eq_some_iff.mp henv
    refine ⟨rfl, fun hmark key hkey => ?_⟩
    have hnotMem := putRoute_notMem_ops (hG hmark (call, prog) rfl key hkey)
    simp only [sharedIndexMachine] at hstore
    split_ifs at hstore
    cases hstore
    exact getRoute_foldl hnotMem
  env _ _ _ _ _ _ := trivial
  env_rest _ _ _ _ _ _ _ := trivial
  restart _ _ _ := ⟨trivial, trivial⟩

end Chronos
