import Periapsis.Foci.Step

/-!
# Reported readiness

The status reports a pod ready when every container is marked ready, and no handler takes the mark
away from a container that crashes or ends.
-/

namespace Periapsis

open Corev1 Periapsis.Types List

namespace Types

/-- The fact reports of the container that it is not running: it starts, failed or has ended. -/
def Fact.reportsDown (name : String) : Fact → Bool
  | .unit f =>
    f.subState ∈ [.failed, .startPre, .start, .startPost]
      ∧ Foci.parseContainerFromUnit f.unitName = name
  | .containerState f => f.state ≠ .running ∧ f.container = name
  | .exit f => f.container = name
  | _ => false

/-- The fact reports that a readiness probe of the container has succeeded. -/
def Fact.reportsReady (name : String) : Fact → Bool
  | .probe f => f.probeType = .readiness ∧ f.ready = true ∧ f.container = name
  | _ => false

end Types

namespace Foci

variable {state : PodState} {clock : Clock} {fact : Fact}

def ReadySound (s : PodState) (inputs : List (Fact × Clock)) : Prop :=
  ∀ pre input post, inputs = pre ++ input :: post →
    ∀ u, .updateStatus u ∈ (reducer.step (reducer.final s pre) input).2 →
      ⟨.podReady, .true⟩ ∈ u.status.conditions →
        ∀ cv ∈ (reducer.step (reducer.final s pre) input).1.containers,
          cv.phase = .running ∧ cv.ready = true

/-- A container is reported not running only while marked not ready, its readiness probe succeeds
only while it runs, and added containers have such a probe. -/
def ReadySafe (state : PodState) (input : Fact × Clock) : Prop :=
  (∀ cv ∈ state.containers, (input.1.reportsDown cv.name → cv.ready = false)
      ∧ (input.1.reportsReady cv.name → cv.phase = .running))
    ∧ ∀ pod ∈ input.1.pod, ∀ c ∈ pod.spec.containers, state.lookup c.name = none →
      c.readinessProbe.isSome = true

/-- The mark of readiness can be relied on. -/
def ReadyRunning (cv : ContainerState) : Prop :=
  cv.ready = true → cv.phase = .running

section Handlers

variable {cv cv' : ContainerState} {touch : Touch}

theorem readyRunning_of_not_ready (hcv : cv.ready = false) (h : cv'.ready = cv.ready) :
  ReadyRunning cv'
  := by
  simp [ReadyRunning, h, hcv]

theorem unitTouch_ready (f : UnitFact) :
  (unitTouch state f name clock cv).container.ready = cv.ready
  := by
  unfold unitTouch
  dsimp only
  split
  case h_2 =>
    split
    all_goals rfl
  all_goals rfl

theorem pollTouch_ready (f : ContainerStateFact) :
  (pollTouch state f clock cv).container.ready = cv.ready
  := by
  unfold pollTouch
  dsimp only
  split
  · split
    all_goals rfl
  · rfl
  case h_3 | h_4 =>
    split
    · apply restartUnlessRestarting_ready
    · rfl
  · split
    · rfl
    · split
      all_goals rfl

theorem exitTouch_ready (f : ExitFact) :
  (exitTouch state f cv).container.ready = cv.ready
  := by
  unfold exitTouch
  split
  · rfl
  · split
    all_goals rfl

theorem readyRunning_unitTouch (f : UnitFact) (h : ReadyRunning cv)
    (hdo : f.subState ∈ [.failed, .startPre, .start, .startPost] → cv.ready = false) :
  ReadyRunning (unitTouch state f name clock cv).container
  := by
  by_cases hs : f.subState ∈ [.failed, .startPre, .start, .startPost]
  · apply readyRunning_of_not_ready (hdo hs) (unitTouch_ready f)
  · unfold unitTouch
    cases hsu : f.subState with
    | running => exact fun _ => rfl
    | failed | startPre | start | startPost => simp [hsu] at hs
    | _ => exact h

theorem readyRunning_pollTouch (f : ContainerStateFact)
    (hdo : f.state ≠ .running → cv.ready = false) :
  ReadyRunning (pollTouch state f clock cv).container
  := by
  by_cases hs : f.state = .running
  · unfold pollTouch
    rw [hs]
    dsimp only
    split
    all_goals exact fun _ => rfl
  · apply readyRunning_of_not_ready (hdo hs) (pollTouch_ready f)

theorem readyRunning_probeTouch (f : ProbeFact) (h : ReadyRunning cv)
    (hup : f.probeType = .readiness → f.ready → cv.phase = .running) :
  ReadyRunning (probeTouch state f cv).container
  := by
  unfold probeTouch
  cases hty : f.probeType with
  | readiness => exact hup hty
  | _ => exact h

theorem Handles.readyRunning (h : Handles state clock cv fact touch) (hcv : ReadyRunning cv)
    (hdo : fact.reportsDown cv.name → cv.ready = false)
    (hup : fact.reportsReady cv.name → cv.phase = .running) :
  ReadyRunning touch.container
  := by
  cases h with
  | unit f hn =>
    apply readyRunning_unitTouch f hcv
    intro hs
    apply hdo
    simpa [Fact.reportsDown, hn] using hs
  | containerState f hn =>
    apply readyRunning_pollTouch f
    intro hs
    apply hdo
    simpa [Fact.reportsDown, hn] using hs
  | exit f hn =>
    apply readyRunning_of_not_ready (hdo _) (exitTouch_ready f)
    simp [Fact.reportsDown, hn]
  | probe f hn =>
    apply readyRunning_probeTouch f hcv
    intro hty hr
    apply hup
    simp [Fact.reportsReady, hty, hr, hn]
  | _ => exact hcv

end Handlers

theorem readyRunning_newContainerState (hpr : cs.hasReadinessProbe) :
  ReadyRunning (newContainerState cs now)
  := by
  simp [ReadyRunning, newContainerState, hpr]

theorem readyRunning_syncSpec {pod : Pod} (h : ∀ cv ∈ state.containers, ReadyRunning cv)
    (hpr : ∀ c ∈ pod.spec.containers, state.lookup c.name = none → c.readinessProbe.isSome) :
  ∀ cv ∈ (syncSpec state pod clock).containers, ReadyRunning cv
  := by
  intro cv hcv
  obtain ⟨i, hi, rfl⟩ := mem_mapIdx.1 hcv
  simp only [newPodSpec, getElem_map, syncContainer_eq]
  split
  next old hl => exact h old (mem_of_find?_eq_some hl)
  next hl =>
    apply readyRunning_newContainerState
    apply hpr _ (getElem_mem _) hl

theorem readyRunning_reduce (h : ∀ cv ∈ state.containers, ReadyRunning cv)
    (hsa : ReadySafe state (fact, clock)) :
  ∀ cv ∈ (reduce state fact clock).1.containers, ReadyRunning cv
  := by
  have hst := reduce_step state fact clock
  generalize reduce state fact clock = next at hst ⊢
  cases hst with
  | ignored => exact h
  | @touched idx touch ht =>
    rw [conclude_fst]
    apply PodState.forall_mem_setContainer h
    obtain ⟨hlt, hco⟩ := container_of_touched ht
    have hm : state.container idx ∈ state.containers := hco ▸ getElem_mem hlt
    obtain ⟨hdo, hup⟩ := hsa.1 _ hm
    apply (touched_handles ht).readyRunning (h _ hm) hdo hup
  | synced hpo => exact readyRunning_syncSpec h (hsa.2 _ hpo)
  | evicted => exact nofun

/-- A status that reports the pod ready is of containers that are running and ready. -/
def ReadyStep (next : PodState × List Effect) : Prop :=
  ∀ u, .updateStatus u ∈ next.2 → ⟨.podReady, .true⟩ ∈ u.status.conditions →
    ∀ cv ∈ next.1.containers, cv.phase = .running ∧ cv.ready = true

theorem readyStep_recomputePhase (h : ∀ cv ∈ state.containers, ReadyRunning cv) :
  ReadyStep (recomputePhase state clock)
  := by
  intro u hu hcn cv hcv
  rcases mem_recomputePhase.1 hu with heq | ⟨-, -, heq | hrs⟩ | heq
  · obtain rfl := Effect.updateStatus.inj heq
    have hr := podReady_mem_buildPodStatusPayload.1 hcn cv hcv
    exact ⟨h cv hcv hr, hr⟩
  · cases heq
  · obtain ⟨c, -, heq⟩ := mem_map.1 hrs
    cases heq
  · cases heq

theorem Touch.Lawful.not_updateStatus {touch : Touch} (h : touch.Lawful state cv)
    (u : UpdateStatus) :
  .updateStatus u ∉ touch.effects
  := by
  intro hu
  rcases h.effect _ hu with ⟨r, heq, -⟩ | heq
  all_goals cases heq

theorem readyStep_reduce (h : ∀ cv ∈ state.containers, ReadyRunning cv)
    (hsa : ReadySafe state (fact, clock)) :
  ReadyStep (reduce state fact clock)
  := by
  have hne := readyRunning_reduce h hsa
  have hst := reduce_step state fact clock
  generalize reduce state fact clock = next at hst hne ⊢
  cases hst with
  | ignored => exact nofun
  | @touched idx touch ht =>
    intro u hu
    have hno := (touched_lawful ht).not_updateStatus u
    rw [conclude_snd, mem_append, or_iff_right hno] at hu
    rw [conclude_containers] at hne ⊢
    split_ifs at hu
    · have hrs : ReadyStep (recomputePhase (state.setContainer idx touch.container) clock) :=
        readyStep_recomputePhase hne
      exact hrs u hu
    · cases hu
  | synced => exact readyStep_recomputePhase hne
  | evicted =>
    intro u hu
    obtain ⟨c, -, heq⟩ := mem_map.1 hu
    cases heq

/-- In a safe run of a pod with readiness probes, every status that reports the pod ready is
computed from containers that are running and ready. -/
theorem readySound_of_readySafe (uid podNamespace name podIP : String) {pod : Pod} (clock : Clock)
    {inputs : List (Fact × Clock)}
    (hprobes : ∀ c ∈ pod.spec.containers, c.readinessProbe.isSome = true)
    (hsafe : reducer.Meets ReadySafe (newPodState uid podNamespace name podIP pod clock) inputs) :
  ReadySound (newPodState uid podNamespace name podIP pod clock) inputs
  := by
  have hnw : ∀ cv ∈ (newPodState uid podNamespace name podIP pod clock).containers,
      ReadyRunning cv := by
    intro cv hcv
    obtain ⟨cs, now, hcs, rfl⟩ := mem_newPodState hcv
    obtain ⟨c, hc, rfl⟩ := mem_map.1 hcs
    exact readyRunning_newContainerState (hprobes c hc)
  rintro pre input post rfl
  have hfi : ∀ cv ∈ (reducer.final (newPodState uid podNamespace name podIP pod clock)
      pre).containers, ReadyRunning cv :=
    reducer.final_induction (P := fun s => ∀ cv ∈ s.containers, ReadyRunning cv) hnw
      (fun _ _ ht hi => readyRunning_reduce ht hi) (hsafe.left _)
  exact readyStep_reduce hfi ((reducer.meets_iff_forall_split _ _).1 hsafe pre input post rfl)

def probedContainer (name : String) : Container where
  name := name
  readinessProbe := some {}

/-- Both containers start and are found ready, and the pod is reported so; then a probe of one fails
before the container does. -/
def readyThenFailed : List (Fact × Clock) :=
  [.containerState ⟨"u", "a", .running, 0⟩, .containerState ⟨"u", "b", .running, 0⟩,
    .probe { uid := "u", container := "a", probeType := .readiness, ready := true },
    .probe { uid := "u", container := "b", probeType := .readiness, ready := true },
    .probe { uid := "u", container := "a", probeType := .readiness },
    .containerState ⟨"u", "a", .failed, 1⟩].map (·, {})

theorem readySound_of_readySafe_failed :
  let s := newPodState "u" "default" "web" ""
    ⟨.always, [probedContainer "a", probedContainer "b"]⟩ {}
  let status := buildPodStatusPayload (reducer.final s (readyThenFailed.take 4)) {}
  (.updateStatus ⟨"u", "default", "web", status⟩ ∈ reducer.outputs s readyThenFailed
      ∧ ⟨.podReady, .true⟩ ∈ status.conditions)
    ∧ ReadySound s readyThenFailed
  := by
  refine ⟨by decide +kernel, readySound_of_readySafe _ _ _ _ _ (by decide) ?_⟩
  unfold readyThenFailed ReadySafe
  simp only [map, Transition.Mealy.Meets]
  decide +kernel

theorem not_readySound_creating :
  ¬ ReadySound
    (newPodState "u" "default" "web" "" ⟨.always, [{ name := "a" }, { name := "b" }]⟩ {})
    [(.containerState ⟨"u", "a", .running, 0⟩, {})]
  := by
  intro h
  have hb := h [] _ [] rfl _ mem_cons_self (by decide)
    { name := "b", phase := .creating, ready := true, backoff := restartBackoffInit } (by decide)
  cases hb.1

end Foci

end Periapsis
