import Periapsis.Foci.Poll

/-!
# The end of a pod

What the step does in which a pod enters a terminal phase.
-/

namespace Periapsis

open Corev1 Periapsis.Types List Effect

namespace Types

def Effect.reset : Effect → Option ResetUnit
  | .resetUnit e => some e
  | _ => none

theorem mem_filterMap_reset {effects : List Effect} :
  e ∈ effects.filterMap reset ↔ .resetUnit e ∈ effects
  := by
  rw [mem_filterMap]
  constructor
  · rintro ⟨effect, hm, heq⟩
    cases effect with
    | resetUnit r =>
      cases heq
      exact hm
    | _ => cases heq
  · intro hm
    use .resetUnit e, hm
    rfl

end Types

namespace Foci

variable {state : PodState} {clock : Clock} {fact : Fact}

/-- The step ends the pod with the phase set by `e`: all containers have ended as the phase says,
and the unit of every one is then cleaned up once. -/
structure EndsPod (state : PodState) (next : PodState × List Effect) (e : SetPodPhase) :
    Prop where
  enters : e.phase = next.1.phase ∧ state.phase ≠ next.1.phase
  inhabited : next.1.containers ≠ []
  ended :
    (e.phase = .succeeded ∧ ∀ cv ∈ next.1.containers, cv.phase = .terminated ∧ cv.exitCode = 0)
    ∨ (e.phase = .failed ∧ (∀ cv ∈ next.1.containers, cv.phase = .terminated)
      ∧ ∃ cv ∈ next.1.containers, cv.exitCode ≠ 0)
  cleaned : ∃ before after, next.2 = before ++ .setPodPhase e :: after
    ∧ before.filterMap Effect.reset = []
    ∧ after.filterMap Effect.reset
      = next.1.containerNames.map fun name => ⟨state.uid, name⟩
  once : next.1.containerNames.Nodup

theorem resetUnits_reset :
  (resetUnits state).filterMap reset
    = state.containerNames.map fun name => ⟨state.uid, name⟩
  := by
  simp [resetUnits, PodState.containerNames, filterMap_map, Function.comp_def, Effect.reset]

theorem computedPhase_terminal (h : (computedPhase state).terminal) :
  (computedPhase state = .succeeded
      ∧ ∀ cv ∈ state.containers, cv.phase = .terminated ∧ cv.exitCode = 0)
    ∨ (computedPhase state = .failed ∧ (∀ cv ∈ state.containers, cv.phase = .terminated)
      ∧ ∃ cv ∈ state.containers, cv.exitCode ≠ 0)
  := by
  rw [computedPhase_eq_phaseOf] at h ⊢
  cases hp : phaseOf state.containers with
  | succeeded =>
    left
    exact ⟨rfl, phaseOf_eq_succeeded.1 hp⟩
  | failed =>
    right
    obtain ⟨ha, hnt⟩ := phaseOf_eq_failed.1 hp
    refine ⟨rfl, ha, ?_⟩
    by_contra hc
    push Not at hc
    apply hnt
    apply phaseOf_eq_succeeded.2
    intro cv hcv
    exact ⟨ha cv hcv, hc cv hcv⟩
  | _ => simp [hp, PodPhase.terminal] at h

theorem recomputePhase_sets (h : .setPodPhase e ∈ (recomputePhase state clock).2) :
  (computedPhase state).terminal ∧ state.phase ≠ computedPhase state
    ∧ e = ⟨state.uid, computedPhase state⟩
    ∧ ∃ status, (recomputePhase state clock).2
      = .updateStatus status :: .setPodPhase e
        :: (resetUnits state ++ [.persistPodState ⟨state.uid⟩])
  := by
  rcases mem_recomputePhase.1 h with h | ⟨hte, hne, h | h⟩ | h
  · cases h
  · obtain rfl := Effect.setPodPhase.inj h
    have heq := recomputePhase_snd state clock
    rw [if_pos ⟨hte, hne⟩] at heq
    exact ⟨hte, hne, rfl, _, heq⟩
  · obtain ⟨cv, -, heq⟩ := mem_map.1 h
    cases heq
  · cases h

theorem recomputePhase_resets (h : .resetUnit e ∈ (recomputePhase state clock).2) :
  ∃ e', .setPodPhase e' ∈ (recomputePhase state clock).2
  := by
  rcases mem_recomputePhase.1 h with h | ⟨hte, hne, -⟩ | h
  · cases h
  · use ⟨state.uid, computedPhase state⟩
    apply mem_recomputePhase.2
    exact .inr (.inl ⟨hte, hne, .inl rfl⟩)
  · cases h

theorem endsPod_recomputePhase {updated : PodState} (effects : List Effect)
    (hui : updated.uid = state.uid) (hp : updated.phase = state.phase)
    (hne : updated.containers ≠ []) (hn : updated.containerNames.Nodup)
    (hef : effects.filterMap reset = [])
    (h : .setPodPhase e ∈ (recomputePhase updated clock).2) :
  EndsPod state
    ((recomputePhase updated clock).1, effects ++ (recomputePhase updated clock).2) e
  := by
  obtain ⟨hte, hen, rfl, status, heq⟩ := recomputePhase_sets h
  rw [hp] at hen
  refine ⟨⟨rfl, hen⟩, hne, computedPhase_terminal hte, ?_, hn⟩
  refine ⟨effects ++ [.updateStatus status], resetUnits updated ++ [.persistPodState ⟨updated.uid⟩],
    ?_, ?_, ?_⟩
  · rw [heq, append_assoc]
    rfl
  · rw [filterMap_append, hef]
    rfl
  · rw [filterMap_append, resetUnits_reset, hui]
    simp [reset, PodState.containerNames]

theorem Touch.Lawful.reset {cv : ContainerState} {touch : Touch} (h : touch.Lawful state cv) :
  touch.effects.filterMap Effect.reset = [] ∧ ∀ e, .setPodPhase e ∉ touch.effects
  := by
  constructor
  · apply filterMap_eq_nil_iff.2
    intro e he
    rcases h.effect e he with ⟨r, rfl, -⟩ | rfl
    all_goals rfl
  · intro e he
    rcases h.effect _ he with ⟨r, heq, -⟩ | heq
    all_goals cases heq

def Populated (state : PodState) : Prop :=
  state.uid ≠ "" → state.containers ≠ [] ∧ state.containerNames.Nodup

def WellNamed (pod : Pod) : Prop :=
  pod.spec.containers ≠ [] ∧ pod.containerNames.Nodup

theorem populated_syncSpec (state : PodState) (clock : Clock) {pod : Pod} (hpd : WellNamed pod) :
  (syncSpec state pod clock).containers ≠ [] ∧ (syncSpec state pod clock).containerNames.Nodup
  := by
  constructor
  · simpa [syncSpec, newPodSpec] using hpd.1
  · rw [syncSpec_containerNames]
    simpa [syncSpec] using hpd.2

theorem Populated.reduce (h : Populated state) (hpd : ∀ pod, fact.pod = some pod → WellNamed pod)
    (clock : Clock) :
  Populated (reduce state fact clock).1
  := by
  have hs := reduce_step state fact clock
  generalize Foci.reduce state fact clock = next at hs ⊢
  intro hui
  cases hs with
  | ignored => apply h hui
  | @touched idx touch hto =>
    have hu : state.uid ≠ "" := by simpa [conclude_fst, PodState.setContainer] using hui
    obtain ⟨hne, hn⟩ := h hu
    have hna := names_of_touched hto
    constructor
    · simpa using hne
    · rw [conclude_fst]
      change (state.setContainer idx touch.container).containerNames.Nodup
      rwa [hna]
  | synced hb => apply populated_syncSpec _ _ (hpd _ hb)
  | evicted => exact absurd rfl hui

theorem reduce_endsPod (h : Populated state) (hpd : ∀ pod, fact.pod = some pod → WellNamed pod)
    (clock : Clock) :
  (∀ e, .setPodPhase e ∈ (reduce state fact clock).2 → EndsPod state (reduce state fact clock) e)
    ∧ ∀ e, .resetUnit e ∈ (reduce state fact clock).2 →
        fact.isEvict ∨ ∃ e', .setPodPhase e' ∈ (reduce state fact clock).2
  := by
  by_cases hui : state.uid = ""
  · simp [reduce_untracked hui]
  obtain ⟨hne, hn⟩ := h hui
  have hs := reduce_step state fact clock
  generalize reduce state fact clock = next at hs ⊢
  cases hs with
  | ignored => simp
  | @touched idx touch hto =>
    obtain ⟨hre, hse⟩ := (touched_lawful hto).reset
    cases hr : touch.recompute with
    | false =>
      simp only [conclude, hr, Bool.false_eq_true, if_false]
      constructor
      · intro e he
        exact absurd he (hse e)
      · intro e he
        have hm := mem_filterMap_reset.2 he
        simp [hre] at hm
    | true =>
      simp only [conclude, hr, if_true]
      constructor
      · intro e he
        refine endsPod_recomputePhase _ rfl rfl ?_ ?_ hre ?_
        · simpa using hne
        · rwa [names_of_touched hto]
        · apply (mem_append.1 he).resolve_left (hse e)
      · intro e he
        right
        have hm : .resetUnit e ∈ (recomputePhase
            (state.setContainer idx touch.container) clock).2 := by
          apply (mem_append.1 he).resolve_left
          intro hm
          simpa [hre] using mem_filterMap_reset.2 hm
        obtain ⟨e', he'⟩ := recomputePhase_resets hm
        exact ⟨e', mem_append_right _ he'⟩
  | synced hb =>
    obtain ⟨hne', hno⟩ := populated_syncSpec state clock (hpd _ hb)
    constructor
    · intro e he
      exact endsPod_recomputePhase [] rfl rfl hne' hno rfl he
    · intro e he
      right
      apply recomputePhase_resets he
  | evicted hev =>
    constructor
    · intro e he
      obtain ⟨cv, -, heq⟩ := mem_map.1 he
      cases heq
    · intro e _
      left
      exact hev

/-- A phase is set only as the pod enters it, from containers that have ended as it says, and the
units are then cleaned up once; and nowhere else, but on an eviction. -/
theorem pod_ends_once (uid podNamespace name podIP : String) (pod : Pod) (clock : Clock)
    (inputs : List (Fact × Clock)) (hpod : WellNamed pod)
    (hinputs : ∀ input ∈ inputs, ∀ p, input.1.pod = some p → WellNamed p) :
  ∀ pre input post, inputs = pre ++ input :: post →
    let state := reducer.final (newPodState uid podNamespace name podIP pod clock) pre
    let next := reduce state input.1 input.2
    (∀ e, .setPodPhase e ∈ next.2 → EndsPod state next e)
    ∧ ∀ e, .resetUnit e ∈ next.2 →
        input.1.isEvict = true ∨ ∃ e', .setPodPhase e' ∈ next.2
  := by
  rintro pre input post rfl
  have hpo : Populated (reducer.final (newPodState uid podNamespace name podIP pod clock)
      pre) := by
    apply reducer.final_induction _ _ (reducer.meets_of_forall _ (C := fun i : Fact × Clock =>
      ∀ p, i.1.pod = some p → WellNamed p) _)
    · intro _
      constructor
      · simpa [newPodState, newPodSpec] using hpod.1
      · rw [newPodState_containerNames]
        exact hpod.2
    · intro t i ht hi
      apply ht.reduce hi
    · intro i hi
      apply hinputs i
      simp [hi]
  apply reduce_endsPod hpo
  apply hinputs input
  simp

theorem pod_ends_once_failed :
  let s := newPodState "u" "default" "job" "" ⟨.never, [{ name := "a" }, { name := "b" }]⟩ {}
  let first : Fact × Clock := (.containerState ⟨"u", "a", .exited, 0⟩, {})
  let second : Fact × Clock := (.containerState ⟨"u", "b", .failed, 1⟩, {})
  EndsPod (reducer.final s [first]) (reduce (reducer.final s [first]) second.1 second.2)
    ⟨"u", .failed⟩
  := by
  intro s first second
  apply (pod_ends_once "u" "default" "job" "" ⟨.never, [{ name := "a" }, { name := "b" }]⟩ {}
    [first, second] (by simp [WellNamed, Pod.containerNames])
    (by simp [first, second, Fact.pod]) [first] second [] rfl).1
  decide

end Foci

end Periapsis
