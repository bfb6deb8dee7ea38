import Chronos.Arithmetic
import Chronos.Transition.Run

/-! The clock of a layout. Callers read the wall clock and the monotonic clock, and each ends with
one atomic maximum on the last value. -/

namespace Chronos

def relativeMsFromUnixMsForLayout (L : TimestampLayout) (unixMs : Nat) : Nat :=
  match L.checkedPhysicalMsFromUnixMs unixMs with
  | .ok relativeMs => relativeMs
  | .error .beforeCustomEpoch => 0
  | .error .beyondCapacityEnvelope => L.maxPhysicalMs + 1

def clampMonotonicMs (previousMs observedMs : Nat) : Nat := max previousMs observedMs

/-- A clock under its callers: the candidates that are computed but not yet taken into the maximum,
and the values returned, the oldest first. -/
structure LayoutSystemClock where
  layout : TimestampLayout
  baseRelativeMs : Nat
  lastNowMs : Nat
  candidates : List Nat
  returned : List Nat
  deriving DecidableEq

namespace LayoutSystemClock

def new (L : TimestampLayout) (unixMs : Nat) :
    Except TimestampLayoutValidationError LayoutSystemClock :=
  L.validate.map fun _ => ⟨L, relativeMsFromUnixMsForLayout L unixMs, 0, [], []⟩

def candidateMs (c : LayoutSystemClock) (unixMs elapsedMs : Nat) : Nat :=
  let observedMs := relativeMsFromUnixMsForLayout c.layout unixMs
  let monotonicMs := min (U64.saturatingAdd c.baseRelativeMs elapsedMs) (c.layout.maxPhysicalMs + 1)
  max observedMs monotonicMs

inductive Step where
  | read (unixMs elapsedMs : Nat)
  | update (i : Nat)
  deriving DecidableEq

def step (c : LayoutSystemClock) : Step → Option LayoutSystemClock
  | .read unixMs elapsedMs =>
    some { c with candidates := c.candidates ++ [c.candidateMs unixMs elapsedMs] }
  | .update i => c.candidates[i]?.map fun candidate =>
    { c with
      lastNowMs := max c.lastNowMs candidate
      candidates := c.candidates.eraseIdx i
      returned := c.returned ++ [clampMonotonicMs c.lastNowMs candidate] }

lemma relativeMs_le (L : TimestampLayout) (unixMs : Nat) :
    relativeMsFromUnixMsForLayout L unixMs ≤ L.maxPhysicalMs + 1 := by
  unfold relativeMsFromUnixMsForLayout TimestampLayout.checkedPhysicalMsFromUnixMs
    TimestampLayout.maxUnixMs
  split_ifs with hbefore hbeyond
  · exact Nat.zero_le _
  · exact le_rfl
  · dsimp only
    omega

/-- The last value is the greatest returned, and no value is beyond the horizon. -/
structure Ordered (L : TimestampLayout) (c : LayoutSystemClock) : Prop where
  layout : c.layout = L
  candidates : ∀ v ∈ c.candidates, v ≤ L.maxPhysicalMs + 1
  bound : c.lastNowMs ≤ L.maxPhysicalMs + 1
  last : ∀ v ∈ c.returned, v ≤ c.lastNowMs
  sorted : c.returned.Pairwise (· ≤ ·)

variable {L : TimestampLayout} {c c' : LayoutSystemClock} {l : Step}

lemma Ordered.step (h : Ordered L c) (hstep : c.step l = some c') : Ordered L c' := by
  cases l with
  | read unixMs elapsedMs =>
    obtain rfl := Option.some.inj hstep
    refine { h with candidates := fun v hv => ?_ }
    obtain hold | hnew := List.mem_append.mp hv
    · exact h.candidates v hold
    · rw [List.mem_singleton.mp hnew, ← h.layout]
      exact max_le (relativeMs_le ..) (min_le_right ..)
  | update i =>
    obtain ⟨candidate, hi, rfl⟩ := Option.map_eq_some_iff.mp hstep
    have hcandidate := h.candidates candidate (List.mem_of_getElem? hi)
    refine ⟨h.layout, fun v hv => h.candidates v (List.mem_of_mem_eraseIdx hv),
      max_le h.bound hcandidate, fun v hv => ?_, ?_⟩
    · obtain hold | hnew := List.mem_append.mp hv
      · exact (h.last v hold).trans (le_max_left ..)
      · exact (List.mem_singleton.mp hnew).le
    · refine List.pairwise_append.mpr ⟨h.sorted, List.pairwise_singleton .., fun v hv w hw => ?_⟩
      rw [List.mem_singleton.mp hw]
      exact (h.last v hv).trans (le_max_left ..)

/-- The values a clock returns are in order and never beyond the first millisecond after the
horizon. -/
theorem now_ms_monotone_bounded {unixMs : Nat} (hnew : new L unixMs = .ok c)
    (hreach : Transition.Reach step (fun _ _ => True) c c') :
    c'.returned.Pairwise (· ≤ ·) ∧ ∀ v ∈ c'.returned, v ≤ L.maxPhysicalMs + 1 := by
  have hstart : Ordered L c := by
    unfold new at hnew
    rcases hvalidate : L.validate with e | u
    · rw [hvalidate] at hnew
      cases hnew
    rw [hvalidate] at hnew
    obtain rfl := Except.ok.inj hnew
    exact ⟨rfl, nofun, Nat.zero_le _, nofun, .nil⟩
  have h := hreach.invariant hstart fun _ _ _ hc _ hs => hc.step hs
  exact ⟨h.sorted, fun v hv => (h.last v hv).trans h.bound⟩

/-- Two callers whose updates come in the other order, the second after a jump back of the wall
clock. -/
theorem now_ms_sample : ∃ c c' : LayoutSystemClock, new ⟨1, 0, 40, 13, 11⟩ 10 = .ok c ∧
    c'.returned = [100, 100] ∧ c'.returned.Pairwise (· ≤ ·) := by
  have hrun : (Transition.run step (fun _ _ => True)
      [.read 50 3, .read 100 4, .update 1, .update 0] ⟨⟨1, 0, 40, 13, 11⟩, 10, 0, [], []⟩).any
      (fun c => decide (c.returned = [100, 100])) = true := by
    decide +kernel
  obtain ⟨c', hreach, hreturned⟩ := Transition.Reach.exists_of_run hrun
  have hnew : new ⟨1, 0, 40, 13, 11⟩ 10 = .ok _ := rfl
  exact ⟨_, c', hnew, of_decide_eq_true hreturned, (now_ms_monotone_bounded hnew hreach).1⟩

end LayoutSystemClock

end Chronos
