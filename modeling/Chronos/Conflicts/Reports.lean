import Chronos.Conflicts.Generators

/-! When a conflict that an exchange on etcd reports can be believed. -/

namespace Chronos

open Interleaving

instance (s : TimelineCasState) (t : Turn TimelineCas IndexChoice IndexTxn) :
    Decidable (s.unmarked t) :=
  match t with
  | .start _ => inferInstanceAs (Decidable (s.world.committed = false))
  | .call _ | .finish | .env _ | .restart => .isTrue trivial

instance (s : TimelineCasState) (t : Turn TimelineCas IndexChoice IndexTxn) :
    Decidable (s.undisturbed t) :=
  match t with
  | .start _ => inferInstanceAs (Decidable (s.world.committed = false))
  | .env request => inferInstanceAs (Decidable (s.world.committed = true →
      ∀ call ∈ s.running, ∀ key ∈ call.1.keys, key ∉ request.routeKeys))
  | .call _ | .finish | .restart => .isTrue trivial

instance (s : GeneratorCasState) (t : GeneratorCasTurn) : Decidable (s.unmarked t) :=
  match t with
  | .start _ => inferInstanceAs (Decidable (s.world.committed = false))
  | .call _ | .finish | .env _ | .restart => .isTrue trivial

instance (s : GeneratorCasState) (t : GeneratorCasTurn) : Decidable (s.answered t) :=
  match t with
  | .start _ => inferInstanceAs (Decidable (s.world.committed = false))
  | .call c => inferInstanceAs (Decidable (s.losesCommit c = false))
  | .finish | .env _ | .restart => .isTrue trivial

/-- A call that reports a conflict has committed nothing: on timelines if nobody else writes its
records between its commit and its end, and on generators if no answer to a committed attempt is
lost. -/
theorem conflict_reports_truthful (timelines : Marked IndexWorld)
    (generators : Marked GeneratorStore) :
    (∀ s call, TimelineCasRun TimelineCasState.undisturbed timelines s →
      s.outcome = some (call, .error .casFailed) → s.world.committed = false) ∧
    (∀ s call, GeneratorCasRun GeneratorCasState.answered generators s →
      s.outcome = some (call, .error .casFailed) → s.world.committed = false) := by
  constructor
  · intro s call hrun hout
    exact (keeps_timelineCas.reach trivial trivial hrun).outcome hout rfl
  · intro s call hrun hout
    exact (keeps_generatorCas.reach trivial trivial hrun).outcome hout rfl

def sampleRoutes : Marked IndexWorld :=
  ⟨⟨5, [⟨"k", sampleTimeline "k" .active, 5⟩], fun _ => none, fun _ => none, [], 1⟩, false⟩

def sampleGenerator (ownerInstanceId : String) : GeneratorRecord :=
  ⟨currentMetadataSchemaVersion, 0, "a:1", ownerInstanceId, 1, none, none, none, 0⟩

def sampleGenerators : Marked GeneratorStore :=
  ⟨⟨5, fun g => if g = 0 then some (sampleGenerator "a", 5) else none⟩, false⟩

/-- Another client gets in between the loading of a timeline and the exchange, and an exchange of a
generator comes too late. -/
theorem conflict_reports_truthful_sample :
    (∃ s, TimelineCasRun TimelineCasState.undisturbed sampleRoutes s ∧
      s.outcome = some (.one "k" 5 (sampleTimeline "k" .draining), .error .casFailed) ∧
      s.world.committed = false) ∧
    ∃ s, GeneratorCasRun GeneratorCasState.answered sampleGenerators s ∧
      s.outcome = some (.one 0 3 (sampleGenerator "b"), .error .casFailed) ∧
      s.world.committed = false := by
  have htimeline : (Transition.run (turn timelineCasMachine () timelineCasCode Marked.fresh)
      TimelineCasState.undisturbed
      [.start (.one "k" 5 (sampleTimeline "k" .draining)), .call .done,
        .env (.exchange [⟨"k", 5, sampleTimeline "k" .active, sampleTimeline "k" .locked⟩]),
        .call .done, .call .done] ⟨sampleRoutes, none⟩).any (fun s =>
      s.outcome = some (.one "k" 5 (sampleTimeline "k" .draining), .error .casFailed)) = true := by
    decide +kernel
  have hgen : (Transition.run (turn generatorCasMachine () generatorCasCode Marked.fresh)
      GeneratorCasState.answered
      [.start (.one 0 3 (sampleGenerator "b")), .call .done] ⟨sampleGenerators, none⟩).any (fun s =>
      s.outcome = some (.one 0 3 (sampleGenerator "b"), .error .casFailed)) = true := by
    decide +kernel
  obtain ⟨s, hs, hout⟩ := Transition.Reach.exists_of_run htimeline
  obtain ⟨s', hs', hout'⟩ := Transition.Reach.exists_of_run hgen
  have hout := of_decide_eq_true hout
  have hout' := of_decide_eq_true hout'
  obtain ⟨htimelines, hgens⟩ := conflict_reports_truthful sampleRoutes sampleGenerators
  exact ⟨⟨s, hs, hout, htimelines s _ hs hout⟩, s', hs', hout', hgens s' _ hs' hout'⟩

/-- Two conflicts that are none: the second attempt to write a generator fails on the first one,
and so does the second attempt to write a timeline, whose record another client has overwritten
before it is read back. -/
theorem conflict_reported_after_commit :
    (∃ s, GeneratorCasRun GeneratorCasState.unmarked sampleGenerators s ∧
      s.outcome = some (.one 0 5 (sampleGenerator "b"), .error .casFailed) ∧
      s.world.committed = true) ∧
    ∃ s, TimelineCasRun TimelineCasState.unmarked sampleRoutes s ∧
      s.outcome = some (.one "k" 5 (sampleTimeline "k" .draining), .error .casFailed) ∧
      s.world.committed = true := by
  have hgen : (Transition.run (turn generatorCasMachine () generatorCasCode Marked.fresh)
      GeneratorCasState.unmarked
      [.start (.one 0 5 (sampleGenerator "b")), .call (.lost "unavailable"), .call (.flag true),
        .call .done] ⟨sampleGenerators, none⟩).any (fun s =>
      s.outcome = some (.one 0 5 (sampleGenerator "b"), .error .casFailed) ∧
        s.world.committed = true) = true := by
    decide +kernel
  have htimeline : (Transition.run (turn timelineCasMachine () timelineCasCode Marked.fresh)
      TimelineCasState.unmarked
      [.start (.one "k" 5 (sampleTimeline "k" .draining)), .call .done,
        .call (.lost "unavailable"), .call (.flag true),
        .env (.exchange [⟨"k", 6, sampleTimeline "k" .draining, sampleTimeline "k" .locked⟩]),
        .call .done, .call .done] ⟨sampleRoutes, none⟩).any (fun s =>
      s.outcome = some (.one "k" 5 (sampleTimeline "k" .draining), .error .casFailed) ∧
        s.world.committed = true) = true := by
    decide +kernel
  obtain ⟨s, hs, hout⟩ := Transition.Reach.exists_of_run hgen
  obtain ⟨s', hs', hout'⟩ := Transition.Reach.exists_of_run htimeline
  exact ⟨⟨s, hs, of_decide_eq_true hout⟩, s', hs', of_decide_eq_true hout'⟩

end Chronos
