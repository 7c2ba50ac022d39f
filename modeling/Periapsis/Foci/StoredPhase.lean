import Periapsis.Foci.Step

/-!
# The phase kept in the pod store

The pod store keeps a copy of the phase of a pod, which follows the phases set by effects only.
-/

namespace Periapsis.Foci

open Corev1 Periapsis.Types List

variable {state : PodState} {clock : Clock} {fact : Fact}

def applyPhase (phase : PodPhase) : Effect → PodPhase
  | .setPodPhase e => e.phase
  | _ => phase

def storedPhase (effects : List Effect) : PodPhase :=
  effects.foldl applyPhase .pending

def lastTerminal (phases : List PodPhase) : PodPhase :=
  (phases.filter PodPhase.terminal).getLast?.getD .pending

variable {phase : PodPhase}

theorem foldl_applyPhase_eq_self {effects : List Effect}
    (h : ∀ e ∈ effects, applyPhase phase e = phase) :
  effects.foldl applyPhase phase = phase
  := by
  induction effects with
  | nil => rfl
  | cons e effects ih =>
    rw [foldl_cons, h e mem_cons_self]
    apply ih
    intro e' he'
    apply h e' (mem_cons_of_mem e he')

theorem foldl_applyPhase_resetUnits :
  (resetUnits state).foldl applyPhase phase = phase
  := by
  apply foldl_applyPhase_eq_self
  intro e he
  obtain ⟨cv, -, rfl⟩ := mem_map.1 he
  rfl

theorem foldl_applyPhase_recomputePhase :
  (recomputePhase state clock).2.foldl applyPhase phase
    = if (computedPhase state).terminal ∧ state.phase ≠ computedPhase state then computedPhase state
      else phase
  := by
  rw [recomputePhase_snd, foldl_append, foldl_cons]
  split
  · apply foldl_applyPhase_resetUnits
  · rfl

theorem Touch.Lawful.foldl_applyPhase {touch : Touch} (h : touch.Lawful state cv) :
  touch.effects.foldl applyPhase phase = phase
  := by
  apply foldl_applyPhase_eq_self
  intro e he
  rcases h.effect e he with ⟨r, rfl, -⟩ | rfl
  all_goals rfl

theorem applyPhase_step :
  (reduce state fact clock).2.foldl applyPhase phase
    = if (reduce state fact clock).1.phase.terminal
          ∧ state.phase ≠ (reduce state fact clock).1.phase
      then (reduce state fact clock).1.phase
      else phase
  := by
  have hst := reduce_step state fact clock
  generalize reduce state fact clock = next at hst ⊢
  cases hst with
  | ignored => simp
  | @touched idx touch hto =>
    rw [conclude_snd, conclude_fst, foldl_append, (touched_lawful hto).foldl_applyPhase]
    cases touch.recompute with
    | true => apply foldl_applyPhase_recomputePhase
    | false => simp
  | synced => apply foldl_applyPhase_recomputePhase
  | evicted => apply foldl_applyPhase_resetUnits

/-- A fact that leads to a terminal phase makes it the stored one, and any other fact leaves the
stored phase. -/
theorem applyPhase_step_of_current (h : state.phase.terminal → phase = state.phase)
    (fact : Fact) (clock : Clock) :
  (reduce state fact clock).2.foldl applyPhase phase
    = if (reduce state fact clock).1.phase.terminal then (reduce state fact clock).1.phase
      else phase
  := by
  rw [applyPhase_step]
  by_cases hsa : state.phase = (reduce state fact clock).1.phase
  · simp only [← hsa, ne_eq, not_true, and_false, if_false]
    split
    next ht =>
      apply h ht
    · rfl
  · simp [hsa]

variable {phases : List PodPhase}

theorem lastTerminal_concat :
  lastTerminal (phases ++ [phase]) = if phase.terminal then phase else lastTerminal phases
  := by
  cases ht : phase.terminal with
  | _ => simp [lastTerminal, ht]

theorem terminal_lastTerminal :
  (lastTerminal phases).terminal ↔ ∃ phase ∈ phases, phase.terminal
  := by
  induction phases using reverseRecOn with
  | nil => simp [lastTerminal, PodPhase.terminal]
  | append_singleton phases phase ih =>
    rw [lastTerminal_concat]
    split
    next ht =>
      simp only [ht, true_iff]
      use phase
      simp [ht]
    next ht =>
      rw [ih]
      simp [ht]

theorem storedPhase_run
    (s : PodState) (hs : s.phase.terminal = false) (inputs : List (Fact × Clock)) :
  storedPhase (reducer.outputs s inputs)
      = lastTerminal ((reducer.states s inputs).map PodState.phase)
    ∧ ((reducer.final s inputs).phase.terminal →
        storedPhase (reducer.outputs s inputs) = (reducer.final s inputs).phase)
  := by
  induction inputs using reverseRecOn with
  | nil =>
    constructor
    · simp [storedPhase, lastTerminal, Transition.Mealy.states, hs]
    · intro ht
      simp [hs] at ht
  | append_singleton inputs input ih =>
    obtain ⟨hl, hc⟩ := ih
    have hn : storedPhase (reducer.outputs s (inputs ++ [input]))
        = if (reducer.final s (inputs ++ [input])).phase.terminal
            then (reducer.final s (inputs ++ [input])).phase
            else storedPhase (reducer.outputs s inputs) := by
      rw [storedPhase, reducer.outputs_append, foldl_append, ← storedPhase,
        reducer.final_append, reducer.outputs_cons, reducer.outputs_nil, append_nil]
      apply applyPhase_step_of_current hc
    constructor
    · rw [hn, reducer.states_concat, map_append, map_singleton, lastTerminal_concat,
        hl, reducer.final_append]
      rfl
    · intro ht
      rw [hn, if_pos ht]

/-- The phase kept in the pod store is the last terminal phase the pod has had, and is terminal
exactly when that of the pod has been. -/
theorem storedPhase_eq_lastTerminal
    (uid podNamespace name podIP : String) (pod : Pod) (clock : Clock)
    (inputs : List (Fact × Clock)) :
  let s := newPodState uid podNamespace name podIP pod clock
  let m := storedPhase (reducer.outputs s inputs)
  m = lastTerminal ((reducer.states s inputs).map PodState.phase)
    ∧ ((reducer.final s inputs).phase.terminal = true → m = (reducer.final s inputs).phase)
    ∧ (m.terminal = true ↔ ∃ t ∈ reducer.states s inputs, t.phase.terminal = true)
  := by
  intro s m
  obtain ⟨hl, hc⟩ := storedPhase_run s rfl inputs
  refine ⟨hl, hc, ?_⟩
  change (storedPhase (reducer.outputs s inputs)).terminal = true ↔ _
  rw [hl, terminal_lastTerminal]
  simp

theorem storedPhase_terminal_running :
  let s := newPodState "u" "default" "job" "" ⟨.never, [{ name := "a" }]⟩ {}
  let inputs : List (Fact × Clock) :=
    [(.containerState ⟨"u", "a", .exited, 0⟩, {}), (.containerState ⟨"u", "a", .running, 0⟩, {})]
  ¬ ((storedPhase (reducer.outputs s inputs)).terminal = true
      ↔ (reducer.final s inputs).phase.terminal = true)
  := by
  decide

end Periapsis.Foci
