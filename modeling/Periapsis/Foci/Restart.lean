import Periapsis.Foci.Step
import Periapsis.Transition.Separation

/-!
# Outstanding restarts

A restart of a container is outstanding from the order to restart it until the container is reported
running.
-/

namespace Periapsis

open Corev1 Periapsis.Types Transition List Effect

namespace Types

def Effect.Restarts (name : String) (e : Effect) : Prop :=
  ∃ r, e.restart = some r ∧ r.containerName = name

end Types

namespace Foci

variable {state : PodState} {clock : Clock} {fact : Fact} {name : String}

def PodState.Outstanding (state : PodState) (name : String) : Prop :=
  ∃ cv, state.lookup name = some cv ∧ cv.restarting = true

def Drops (name : String) (fact : Fact) : Prop :=
  ∃ pod, fact.pod = some pod ∧ name ∉ pod.containerNames

variable {touch : Touch}

/-- A handler that orders a restart that is outstanding does not look; and a restart stays
outstanding until the container is reported running. -/
theorem touched_outstanding (h : touched state clock fact = some (idx, touch))
    (ho : (state.container idx).restarting) :
  (touch.effects.filterMap restart ≠ [] → Unguarded state (state.container idx).name fact)
    ∧ (touch.container.restarting ∨ fact.ReportsRunning (state.container idx).name)
  := by
  cases touched_made h with
  | started hre _ _ hev => exact ⟨absurd hev.restarts, .inr hre⟩
  | restarted _ hod hc _ _ => exact ⟨fun _ => hod ho, .inl (by rw [hc]; rfl)⟩
  | unmoved _ hc hev =>
    exact ⟨absurd hev.restarts, .inl (hc.restarting_eq.trans ho)⟩
  | reset => exact ⟨absurd rfl, .inl ho⟩

theorem reduce_restarts_length (state : PodState) (fact : Fact) (clock : Clock) :
  ((reduce state fact clock).2.filterMap restart).length ≤ 1
  := by
  have hs := reduce_step state fact clock
  generalize reduce state fact clock = next at hs ⊢
  cases hs with
  | touched ht =>
    rcases (touched_lawful ht).restart with ⟨hno, -⟩ | ⟨hon, -⟩
    · simp [hno]
    · simp [hon, restartEffect, restart]
  | evicted => simp [reducePodEvictFact]
  | _ => simp

theorem pairwise_restarts {effects : List Effect}
    (h : (effects.filterMap restart).length ≤ 1) (name : String) :
  effects.Pairwise fun x y => ¬ (x.Restarts name ∧ y.Restarts name)
  := by
  have hno : (effects.filterMap restart).Pairwise fun _ _ => False := by
    match effects.filterMap restart, h with
    | [], _ => exact List.Pairwise.nil
    | [r], _ => exact pairwise_singleton _ r
  apply (pairwise_filterMap.1 hno).imp
  rintro x y hfa ⟨⟨r, hr, -⟩, ⟨r', hr', -⟩⟩
  apply hfa r hr r' hr'

theorem outstanding_of_restart (he : e ∈ (reduce state fact clock).2) (hrs : e.Restarts name) :
  (reduce state fact clock).1.Outstanding name
    ∧ (state.Outstanding name → Unguarded state name fact)
  := by
  obtain ⟨r, hr, rfl⟩ := hrs
  have hm : r ∈ (reduce state fact clock).2.filterMap restart :=
    mem_filterMap.2 ⟨e, he, hr⟩
  have hs := reduce_step state fact clock
  generalize reduce state fact clock = next at hs hm ⊢
  cases hs with
  | ignored => cases hm
  | @touched idx touch ht =>
    rw [conclude_restarts] at hm
    rcases (touched_lawful ht).restart with ⟨hno, -⟩ | ⟨hon, -, -, hrt⟩
    · rw [hno] at hm
      cases hm
    · have hn : r.containerName = (state.container idx).name := by
        rw [hon] at hm
        obtain rfl := mem_singleton.1 hm
        rfl
      rw [hn]
      constructor
      · use touch.container
        rw [lookup_conclude ht, if_pos rfl]
        exact ⟨rfl, hrt⟩
      · rintro ⟨cv, hl, hcv⟩
        rw [lookup_of_touched ht] at hl
        cases hl
        apply (touched_outstanding ht hcv).1
        intro hni
        rw [hni] at hm
        cases hm
  | synced =>
    rw [recomputePhase_restarts] at hm
    cases hm
  | evicted =>
    rw [reducePodEvictFact, resetUnits_restarts] at hm
    cases hm

theorem outstanding_step (h : state.Outstanding name) (hdr : ¬ Drops name fact) :
  (reduce state fact clock).1.uid = "" ∨ (reduce state fact clock).1.Outstanding name
    ∨ fact.ReportsRunning name
  := by
  obtain ⟨cv, hl, hcv⟩ := h
  have hs := reduce_step state fact clock
  generalize reduce state fact clock = next at hs ⊢
  cases hs with
  | ignored => exact .inr (.inl ⟨cv, hl, hcv⟩)
  | @touched idx touch ht =>
    right
    by_cases hn : name = (state.container idx).name
    · subst hn
      rw [lookup_of_touched ht] at hl
      cases hl
      apply (touched_outstanding ht hcv).2.imp_left
      intro hrt
      use touch.container
      rw [lookup_conclude ht, if_pos rfl]
      exact ⟨rfl, hrt⟩
    · left
      use cv
      rw [lookup_conclude ht, if_neg hn]
      exact ⟨hl, hcv⟩
  | @synced pod hpo =>
    right
    left
    have hk : name ∈ pod.containerNames := by
      by_contra hd
      apply hdr ⟨pod, hpo, hd⟩
    obtain ⟨image, him⟩ := lookup_syncSpec hl hk clock
    use { cv with image := image }, him, hcv
  | evicted => exact .inl rfl

theorem touched_origin (h : touched state clock fact = some (idx, touch))
    (ho : touch.container.restarting) :
  touch.effects.filterMap restart ≠ []
    ∨ (state.container idx).restarting
      ∧ ¬ fact.ReportsRunning (state.container idx).name
  := by
  cases touched_made h with
  | started => cases ho
  | restarted => exact .inl (by simp [restartEffect, restart])
  | unmoved hre hc _ => exact .inr ⟨hc.restarting_eq.symm.trans ho, hre⟩
  | reset _ _ hfc =>
    subst hfc
    exact .inr ⟨ho, not_false⟩

theorem touched_of_running (hre : fact.ReportsRunning name) (hl : state.lookup name = some cv) :
  touched state clock fact ≠ none
  := by
  obtain ⟨idx, hf, -⟩ := PodState.find_of_lookup hl
  cases fact with
  | unit f =>
    obtain ⟨-, hne, hn⟩ := hre
    simp [touched, handlerOf, hn, hne, hf]
  | containerState f =>
    obtain ⟨-, hn⟩ := hre
    simp [touched, handlerOf, hn, hf]
  | _ => exact hre.elim

theorem name_of_running (h : touched state clock fact = some (idx, touch))
    (hre : fact.ReportsRunning name) :
  name = (state.container idx).name
  := by
  cases touched_handles h with
  | unit f hn hne => exact hre.2.2.symm.trans hn
  | containerState f hn => exact hre.2.symm.trans hn
  | _ => exact hre.elim

theorem outstanding_of_syncSpec {pod : Pod} (h : (syncSpec state pod clock).Outstanding name) :
  state.Outstanding name
  := by
  obtain ⟨cv, hl, hcv⟩ := h
  have hn : cv.name = name := by
    simpa using find?_some hl
  obtain ⟨i, hi, rfl⟩ := mem_mapIdx.1 (mem_of_find?_eq_some hl)
  rw [syncContainer_name] at hn
  rw [syncContainer_eq, hn] at hcv
  cases hol : state.lookup name with
  | none =>
    rw [hol] at hcv
    cases hcv
  | some old =>
    rw [hol] at hcv
    use old, hol, hcv

theorem restart_of_outstanding
    (hui : state.uid ≠ "") (h : (reduce state fact clock).1.Outstanding name) :
  (∃ e ∈ (reduce state fact clock).2, e.Restarts name)
    ∨ state.Outstanding name ∧ ¬ fact.ReportsRunning name
  := by
  obtain ⟨cv, hl, hcv⟩ := h
  have hs := reduce_step state fact clock
  generalize reduce state fact clock = next at hs hl ⊢
  cases hs with
  | ignored hig =>
    right
    use ⟨cv, hl, hcv⟩
    intro hre
    apply touched_of_running hre hl (hig hui).1
  | @touched idx touch ht =>
    rw [lookup_conclude ht] at hl
    split at hl
    next hn =>
      cases hl
      subst hn
      apply (touched_origin ht hcv).imp
      · intro hne
        obtain ⟨r, hr⟩ := exists_mem_of_ne_nil _ hne
        have hm : r ∈ (conclude state clock idx touch).2.filterMap restart := by
          rw [conclude_restarts]
          apply hr
        obtain ⟨e, he, her⟩ := mem_filterMap.1 hm
        use e, he, r, her
        rcases (touched_lawful ht).restart with ⟨hno, -⟩ | ⟨hon, -⟩
        · contradiction
        · rw [hon] at hr
          obtain rfl := mem_singleton.1 hr
          rfl
      · intro ⟨hrt, hre⟩
        exact ⟨⟨_, lookup_of_touched ht, hrt⟩, hre⟩
    next hn =>
      right
      use ⟨cv, hl, hcv⟩
      intro hre
      apply hn (name_of_running ht hre)
  | @synced pod hpo =>
    right
    constructor
    · apply outstanding_of_syncSpec ⟨cv, hl, hcv⟩
    · intro hre
      cases fact with
      | unit | containerState => cases hpo
      | _ => exact hre
  | evicted => cases hl

/-- The restart of a container is ordered. -/
def RestartEvent (name : String) : (Fact × Clock) ⊕ Effect → Prop
  | .inl _ => False
  | .inr e => e.Restarts name

def RunningEvent (name : String) : (Fact × Clock) ⊕ Effect → Prop
  | .inl input => input.1.ReportsRunning name
  | .inr _ => False

def Orderly (state : PodState) (input : Fact × Clock) : Prop :=
  ∀ name, state.Outstanding name → ¬ Unguarded state name input.1 ∧ ¬ Drops name input.1

def RestartInvariant (name : String) (tr : List ((Fact × Clock) ⊕ Effect)) (state : PodState) :
    Prop :=
  Separated (RestartEvent name) (RunningEvent name) tr
    ∧ (Pending (RestartEvent name) (RunningEvent name) tr →
        state.uid = "" ∨ state.Outstanding name)

theorem RestartInvariant.step (h : RestartInvariant name tr state)
    (hor : Orderly state (fact, clock)) :
  RestartInvariant name (tr ++ .inl (fact, clock) :: (reduce state fact clock).2.map .inr)
    (reduce state fact clock).1
  := by
  obtain ⟨hse, hpe⟩ := h
  have hq : ∀ e ∈ ((reduce state fact clock).2.map .inr : List ((Fact × Clock) ⊕ Effect)),
      ¬ RunningEvent name e := by
    intro e he
    obtain ⟨effect, -, rfl⟩ := mem_map.1 he
    exact not_false
  have hra : Pending (RestartEvent name) (RunningEvent name) (tr ++ [.inl (fact, clock)])
      → (state.uid = "" ∨ state.Outstanding name) ∧ ¬ fact.ReportsRunning name := by
    intro hp
    rcases pending_concat.1 hp with hrs | ⟨hp, hru⟩
    · cases hrs
    · exact ⟨hpe hp, hru⟩
  rw [RestartInvariant, ← singleton_append, ← append_assoc, separated_append hq,
    pending_append hq, separated_concat]
  refine ⟨⟨⟨hse, fun hrs => hrs.elim⟩, ?_, ?_⟩, ?_⟩
  · intro e he hrs hp
    obtain ⟨effect, hef, rfl⟩ := mem_map.1 he
    obtain ⟨hu | ho, -⟩ := hra hp
    · rw [reduce_untracked hu] at hef
      cases hef
    · apply (hor name ho).1
      apply (outstanding_of_restart hef hrs).2 ho
  · apply pairwise_map.2
    apply pairwise_restarts (reduce_restarts_length state fact clock) name
  · rintro (⟨e, he, hrs⟩ | hp)
    · obtain ⟨effect, hef, rfl⟩ := mem_map.1 he
      right
      apply (outstanding_of_restart hef hrs).1
    · obtain ⟨hu | ho, hru⟩ := hra hp
      · left
        rw [reduce_untracked hu]
        apply hu
      · rcases outstanding_step ho (hor name ho).2
          with hui | hsi | hrp
        · exact .inl hui
        · exact .inr hsi
        · contradiction

/-- In an orderly run, between two restarts of a container there is a report that it is
running. -/
theorem restarts_separated (uid podNamespace podName podIP : String) (pod : Pod) (clock : Clock)
    (inputs : List (Fact × Clock))
    (h : reducer.Meets Orderly (newPodState uid podNamespace podName podIP pod clock) inputs)
    (name : String) :
  Separated (RestartEvent name) (RunningEvent name)
    (reducer.trace (newPodState uid podNamespace podName podIP pod clock) inputs)
  := by
  have hst : RestartInvariant name []
      (newPodState uid podNamespace podName podIP pod clock) := by
    use separated_nil
    intro hpe
    exact absurd hpe not_pending_nil
  apply (reducer.trace_induction hst _ h).1
  intro tr t input hin hor
  apply hin.step hor

theorem restarts_separated_crash :
  Separated (RestartEvent "a") (RunningEvent "a")
    (reducer.trace (newPodState "u" "default" "web" "" ⟨.always, [{ name := "a" }]⟩ {})
      [(.containerState ⟨"u", "a", .failed, 1⟩, {}), (.containerState ⟨"u", "a", .running, 0⟩, {}),
        (.containerState ⟨"u", "a", .failed, 1⟩, {})])
  := by
  apply restarts_separated "u" "default" "web" "" _ {}
  refine ⟨?_, ?_, ?_, trivial⟩
  all_goals
    intro name _
    simp [Unguarded, Drops, Fact.pod]

theorem restarts_not_separated :
  ¬ Separated (RestartEvent "a") (RunningEvent "a")
    (reducer.trace (newPodState "u" "default" "web" "" ⟨.always, [{ name := "a" }]⟩ {})
      [(.containerState ⟨"u", "a", .failed, 1⟩, {}),
        (.unit ⟨"u", "perigeos-w-pod-00000000-0000-0000-0000-000000000000-a.service", .failed, 1⟩,
          {})])
  := by
  intro h
  obtain ⟨z, hz, hru⟩ := h [_] _ [_, _, _, _] _ [] rfl ⟨_, rfl, rfl⟩ ⟨_, rfl, rfl⟩
  simp only [mem_cons, not_mem_nil, or_false] at hz
  rcases hz with rfl | rfl | rfl | rfl
  · exact hru
  · exact hru
  · exact hru
  · cases hru.1

end Foci

end Periapsis
