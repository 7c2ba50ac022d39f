import Mathlib.Algebra.Group.Nat.Defs
import Mathlib.Data.List.DropRight
import Periapsis.Node.Probes

/-!
# Thresholds of probes

The state of the probes of a container counts results in a row.
-/

namespace Periapsis.Node

open Corev1 Periapsis.Types List Int32

def evalProbe (probes : ProbeType → Probe) (state : ContainerProbeState) (probeType : ProbeType)
    (result : ProbeResult) : ContainerProbeState × Bool :=
  match probeType with
  | .startup => evalStartup state (probes .startup) result
  | .liveness => evalLiveness state (probes .liveness) result
  | .readiness => (evalReadiness state (probes .readiness) result, false)
  | .other _ => (state, false)

def evalAll (probes : ProbeType → Probe) (state : ContainerProbeState)
    (history : List (ProbeType × ProbeResult)) : ContainerProbeState :=
  history.foldl (fun state entry => (evalProbe probes state entry.1 entry.2).1) state

def resultsOf (probeType : ProbeType) (history : List (ProbeType × ProbeResult)) :
    List ProbeResult :=
  history.filterMap fun entry => if entry.1 = probeType then some entry.2 else none

def LastAll (p : ProbeResult → Bool) (threshold : Int32) (results : List ProbeResult) : Prop :=
  threshold.toInt ≤ results.length ∧ ∀ r ∈ results.rtake threshold.toInt.toNat, p r = true

instance (p : ProbeResult → Bool) (threshold : Int32) (results : List ProbeResult) :
    Decidable (LastAll p threshold results) :=
  inferInstanceAs (Decidable (_ ∧ _))

def successThreshold (probe : Probe) : Int32 :=
  if probe.successThreshold ≤ 0 then 1 else probe.successThreshold

def failureThreshold (probe : Probe) : Int32 :=
  if probe.failureThreshold ≤ 0 then 3 else probe.failureThreshold

def ProbeResult.passes (r : ProbeResult) : Bool := r = .success

def ProbeResult.fails (r : ProbeResult) : Bool := r ≠ .success

theorem resultsOf_concat (hi : List (ProbeType × ProbeResult)) {r : ProbeResult} :
  resultsOf probeType' (hi ++ [(probeType, r)])
    = resultsOf probeType' hi ++ if probeType = probeType' then [r] else []
  := by
  by_cases h : probeType = probeType'
  all_goals simp [resultsOf, h]

/-- How many results at the end satisfy `p`. -/
def streak (p : ProbeResult → Bool) (results : List ProbeResult) : Nat :=
  (results.rtakeWhile p).length

variable {p : ProbeResult → Bool} {results : List ProbeResult}

theorem streak_concat :
  streak p (results ++ [r]) = if p r = true then streak p results + 1 else 0
  := by
  unfold streak
  rw [rtakeWhile_concat]
  split
  · simp
  · rfl

theorem le_streak_iff (p : ProbeResult → Bool) (n : Nat) (results : List ProbeResult) :
  n ≤ streak p results ↔ n ≤ results.length ∧ ∀ r ∈ results.rtake n, p r
  := by
  induction results using reverseRecOn generalizing n with
  | nil => simp [streak]
  | append_singleton results r ih =>
    cases n with
    | zero => simp
    | succ n =>
      rw [streak_concat, rtake_concat_succ]
      by_cases hr : p r
      · simp [hr, ih, or_imp, forall_and]
      · simp [hr]

theorem le_count_iff (hpo : 0 < threshold) (hl : results.length < 2 ^ 31) :
  threshold ≤ ofNat (streak p results) ↔ LastAll p threshold results
  := by
  have hs : streak p results < 2 ^ 31 := by
    apply Nat.lt_of_le_of_lt _ hl
    exact ((le_streak_iff p _ results).1 le_rfl).1
  have hn : ((threshold.toInt.toNat : Nat) : Int) = threshold.toInt :=
    Int.toNat_of_nonneg (Int.le_of_lt (lt_iff_toInt_lt.1 hpo))
  rw [le_iff_toInt_le, toInt_ofNat_of_lt hs, LastAll, ← hn, Int.toNat_natCast,
    Int.ofNat_le, Int.ofNat_le, le_streak_iff]

theorem count_concat :
  ofNat (streak p (results ++ [r]))
    = if p r = true then ofNat (streak p results) + 1 else 0
  := by
  rw [streak_concat]
  split
  · exact ofNat_add _ 1
  · rfl

structure Counted (history : List (ProbeType × ProbeResult)) (state : ContainerProbeState) :
    Prop where
  startup : state.startupFailCount
    = ofNat (streak ProbeResult.fails (resultsOf .startup history))
  live : state.liveFailCount
    = ofNat (streak ProbeResult.fails (resultsOf .liveness history))
  readyFail : state.readyFailCount
    = ofNat (streak ProbeResult.fails (resultsOf .readiness history))
  readySuccess : state.readySuccessCount
    = ofNat (streak ProbeResult.passes (resultsOf .readiness history))
  passed : state.startupPassed = (resultsOf .startup history).any ProbeResult.passes

theorem Counted.step {state : ContainerProbeState} (h : Counted hi state)
    (probes : ProbeType → Probe) (probeType : ProbeType) (r : ProbeResult) :
  Counted (hi ++ [(probeType, r)]) (evalProbe probes state probeType r).1
  := by
  obtain ⟨hst, hli, hrd, hra, hp⟩ := h
  have hf : r.fails = !r.passes := by simp [ProbeResult.fails, ProbeResult.passes]
  have hpa : (r = .success) = (r.passes) := by simp [ProbeResult.passes]
  cases probeType with
  | startup =>
    cases hr : r.passes
    all_goals
      constructor
      all_goals simp [evalProbe, evalStartup, resultsOf_concat, count_concat, *]
  | liveness =>
    cases hr : r.passes
    all_goals
      constructor
      all_goals simp [evalProbe, evalLiveness, resultsOf_concat, count_concat, *]
  | readiness =>
    cases hr : r.passes
    all_goals
      constructor
      all_goals simp [evalProbe, evalReadiness, resultsOf_concat, count_concat, *]
  | other name =>
    constructor
    all_goals simp [evalProbe, resultsOf_concat, *]

theorem counted_evalAll (probes : ProbeType → Probe) (startedAt : Time) (ready : Bool)
    (hi : List (ProbeType × ProbeResult)) :
  Counted hi (evalAll probes { startedAt := startedAt, ready := ready } hi)
  := by
  induction hi using reverseRecOn with
  | nil => exact ⟨rfl, rfl, rfl, rfl, rfl⟩
  | append_singleton hi entry ih =>
    rw [evalAll, foldl_concat]
    exact ih.step probes entry.1 entry.2

theorem count_reached (hpo : 0 < threshold) :
  threshold ≤ ofNat (streak p (results ++ [r]))
    ↔ p r ∧ threshold ≤ ofNat (streak p results) + 1
  := by
  rw [count_concat]
  split
  next hr =>
    exact (and_iff_right hr).symm
  next hr =>
    exact iff_of_false (Int32.not_le.2 hpo) fun h => hr h.1

theorem failureThreshold_pos (probe : Probe) :
  0 < failureThreshold probe
  := by
  unfold failureThreshold
  split
  · decide
  next h =>
    exact Int32.not_le.1 h

theorem successThreshold_pos (probe : Probe) :
  0 < successThreshold probe
  := by
  unfold successThreshold
  split
  · decide
  next h =>
    exact Int32.not_le.1 h

section Decisions

variable (state : ContainerProbeState) (probe : Probe) (r : ProbeResult)

theorem evalReadiness_ready :
  (evalReadiness state probe r).ready
    = if r.passes = true ∧ successThreshold probe ≤ state.readySuccessCount + 1 then true
      else if r.fails = true ∧ failureThreshold probe ≤ state.readyFailCount + 1 then false
      else state.ready
  := by
  by_cases hr : r = .success
  · simp [evalReadiness, hr, ProbeResult.passes, ProbeResult.fails, successThreshold]
  · simp [evalReadiness, hr, ProbeResult.passes, ProbeResult.fails, failureThreshold]

theorem evalLiveness_restart :
  (evalLiveness state probe r).2
    ↔ r.fails ∧ failureThreshold probe ≤ state.liveFailCount + 1
  := by
  by_cases hr : r = .success
  · simp [evalLiveness, hr, ProbeResult.fails]
  · simp [evalLiveness, hr, ProbeResult.fails, failureThreshold]

theorem evalStartup_restart :
  (evalStartup state probe r).2
    ↔ r.fails ∧ failureThreshold probe ≤ state.startupFailCount + 1
  := by
  by_cases hr : r = .success
  · simp [evalStartup, hr, ProbeResult.fails]
  · simp [evalStartup, hr, ProbeResult.fails, failureThreshold]

end Decisions

/-- Readiness follows the last results of its probe, a restart is asked for exactly if the last
results of another probe fail it as often as its threshold, and startup has passed exactly after a
success. -/
theorem evalProbe_thresholds (probes : ProbeType → Probe) (startedAt : Time) (ready : Bool)
    (history : List (ProbeType × ProbeResult)) (probeType : ProbeType) (r : ProbeResult)
    (hlength : (resultsOf probeType (history ++ [(probeType, r)])).length < 2 ^ 31) :
  let state := evalAll probes { startedAt := startedAt, ready := ready } history
  let next := evalProbe probes state probeType r
  let results := resultsOf probeType (history ++ [(probeType, r)])
  (probeType = .readiness → next.1.ready
      = if LastAll ProbeResult.passes (successThreshold (probes probeType)) results then true
        else if LastAll ProbeResult.fails (failureThreshold (probes probeType)) results then false
        else state.ready)
    ∧ (probeType = .liveness →
      (next.2 = true ↔ LastAll ProbeResult.fails (failureThreshold (probes probeType)) results))
    ∧ (probeType = .startup → (next.1.startupPassed = true ↔ .success ∈ results)
      ∧ (next.2 = true ↔ LastAll ProbeResult.fails (failureThreshold (probes probeType)) results))
  := by
  intro state next results
  have h : Counted history state := counted_evalAll probes startedAt ready history
  have hrs : results = resultsOf probeType history ++ [r] := by
    simp [results, resultsOf_concat]
  -- A count and the last results reach a threshold together.
  have hre (p : ProbeResult → Bool) (threshold : Int32) (hpo : 0 < threshold) :
      LastAll p threshold results ↔ p r = true
        ∧ threshold ≤ ofNat (streak p (resultsOf probeType history)) + 1 := by
    rw [← count_reached hpo, ← hrs, le_count_iff hpo hlength]
  simp only [hre _ _ (failureThreshold_pos _), hre _ _ (successThreshold_pos _)]
  refine ⟨?_, ?_, ?_⟩
  · rintro rfl
    rw [← h.readyFail, ← h.readySuccess]
    exact evalReadiness_ready state (probes .readiness) r
  · rintro rfl
    rw [← h.live]
    exact evalLiveness_restart state (probes .liveness) r
  · rintro rfl
    rw [← h.startup]
    refine ⟨?_, evalStartup_restart state (probes .startup) r⟩
    rw [(h.step probes .startup r).passed]
    simp [ProbeResult.passes, results]

def strictProbes (_ : ProbeType) : Probe :=
  { successThreshold := 2, failureThreshold := 1 }

theorem evalProbe_thresholds_ready :
  (evalProbe strictProbes (evalAll strictProbes {} [(.readiness, .success)]) .readiness
    .success).1.ready = true
  := by
  have h := (evalProbe_thresholds strictProbes 0 false [(.readiness, .success)] .readiness .success
    (by decide)).1 rfl
  exact h

end Periapsis.Node
