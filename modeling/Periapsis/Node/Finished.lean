import Periapsis.Node.Jobs

/-!
# Finished work is not repeated

In a run that spares finished containers, they are not launched again (`finished_not_run`).
-/

namespace Periapsis.Node

open Corev1 Perigeos Transition Option Function Bool Watched PodMetadata List

/-- What a step does to a container, as far as launches and results go: it begins a restart
attempt only if called for, and ends a run with exit code 0 only as told. -/
structure Watched.Carries (called finishes : Prop) (m m' : Watched) : Prop where
  awaits : m'.Awaits → m.Awaits ∨ called
  lastExit : m'.lastExit = some 0 → m.lastExit = some 0 ∨ finishes

namespace Watched

variable {m m' : Watched} {called finishes : Prop}

theorem Carries.of_eq (hre : m'.restarting = m.restarting) (hex : m'.lastExit = m.lastExit) :
  m.Carries called finishes m'
  := by
  constructor
  · intro hm'
    left
    unfold Awaits at hm' ⊢
    rw [← hre]
    apply hm'
  · intro hm'
    left
    rw [← hex]
    apply hm'

theorem Carries.mono (h : m.Carries called finishes m') (hca : called → called')
    (hf : finishes → finishes') :
  m.Carries called' finishes' m'
  := ⟨fun hm' => (h.awaits hm').imp_right hca, fun hm' => (h.lastExit hm').imp_right hf⟩

variable {ok : Bool}

theorem carries_resetUnit :
  m.Carries called finishes (m.resetUnit ok)
  := .of_eq (resetUnit_frame m ok).1 (resetUnit_frame m ok).2

theorem exit_lastExit {exitCode : Int32} (h : (m.exit exitCode).lastExit = some 0) :
  m.lastExit = some 0 ∨ exitCode = 0 ∧ m.active
  := by
  unfold exit at h
  split at h
  next hui =>
    right
    exact ⟨some.inj h, by simp [active, hui]⟩
  next hui =>
    right
    exact ⟨some.inj h, by simp [active, hui]⟩
  · left
    apply h

variable {outcome : StopOutcome} {step : RestartStep}

theorem stopMachine_lastExit (h : (m.stopMachine outcome).lastExit = some 0) :
  m.lastExit = some 0 ∨ outcome.exitCode = some 0 ∧ m.active
  := by
  cases outcome with
  | error =>
    left
    apply h
  | stopped exitCode reset =>
    rw [stopMachine, (resetUnit_frame _ reset).2] at h
    apply (exit_lastExit h).imp_right
    rintro ⟨rfl, hac⟩
    exact ⟨rfl, hac⟩

theorem carries_stopMachine {m : Watched} {outcome : StopOutcome} :
  m.Carries called (outcome.exitCode = some 0 ∧ m.active) (m.stopMachine outcome)
  := by
  constructor
  · unfold Awaits
    rw [(stopMachine_frame m outcome).2]
    apply Or.inl
  · apply stopMachine_lastExit

theorem runMachine_lastExit {m : Watched} {ok : Bool} {outcome : StopOutcome} :
  (m.runMachine ok outcome).1.lastExit = (m.stopMachine outcome).lastExit
  := by
  unfold runMachine
  dsimp only
  split
  all_goals rfl

variable {polling : Bool}

theorem restartContainer_lastExit (h : m.restartContainer polling ok outcome step = some m')
    (hex : m'.lastExit = some 0) :
  m.lastExit = some 0
    ∨ step.stops ∧ outcome.exitCode = some 0 ∧ m.active
  := by
  cases step with
  | stopMachine | clearStopMachine | failedStopMachine | unsharedStopMachine =>
    cases h
    apply (stopMachine_lastExit hex).imp_right
    apply And.intro rfl
  | runMachine =>
    cases h
    have hs := runMachine_lastExit.symm.trans hex
    apply (stopMachine_lastExit hs).imp_right
    apply And.intro rfl
  | resetUnit | clearResetUnit | failedResetUnit =>
    cases h
    left
    apply (resetUnit_frame m ok).2.symm.trans hex
  | waitForContainer =>
    left
    simp only [restartContainer] at h
    split at h
    · split at h
      · cases h
        apply hex
      · cases h
    · cases h
      apply hex
  | markRunning =>
    left
    simp only [restartContainer] at h
    split at h
    · cases h
    · cases h
      apply hex
  | backoff | checkMachined | prepare | makeSharedMounts | postStart | finish =>
    cases h
    left
    apply hex

theorem carries_restartContainer (hst : m.restarting = some step)
    (h : m.restartContainer polling ok outcome step = some m') :
  m.Carries called (step.stops ∧ outcome.exitCode = some 0 ∧ m.active) m'
  := by
  constructor
  · rintro ⟨next, hne, hl⟩
    left
    use step, hst
    by_contra hno
    rw [not_eq_false] at hno
    rw [restartContainer_launched hno h hne] at hl
    cases hl
  · apply restartContainer_lastExit h

theorem carries_launchContainer {isInit : Bool} {result : LaunchResult}
    (h : m.launchContainer isInit polling ok outcome step = some (m', result)) :
  m.Carries called (step.stops ∧ outcome.exitCode = some 0 ∧ m.active) m'
    ∧ ∀ next, result = .step next → next.launched = false → step.launched = false
  := by
  unfold launchContainer at h
  split at h
  · split at h
    · split at h
      · cases h
      · cases h
      all_goals
        cases h
        exact ⟨.of_eq rfl rfl, nofun⟩
    · cases h
      refine ⟨.of_eq rfl rfl, ?_⟩
      rintro _ ⟨⟩ hl
      cases hl
  · cases h
    refine ⟨.of_eq rfl rfl, ?_⟩
    cases ok with
    | _ => nofun
  · obtain ⟨launched, hl, heq⟩ := map_eq_some_iff.1 h
    cases heq
    refine ⟨⟨?_, ?_⟩, ?_⟩
    · apply Or.inl
    · intro hex
      apply restartContainer_lastExit hl hex
    · intro next hne hbe
      by_contra hno
      rw [not_eq_false] at hno
      cases hg : launched.restarting with
      | none =>
        rw [hg] at hne
        cases hne
      | some going =>
        have hgo := restartContainer_launched hno hl hg
        rw [hg] at hne
        cases going with
        | finish => cases hne
        | _ =>
          cases hne
          rw [hgo] at hbe
          cases hbe

theorem maybeRestart_lastExit :
  (m.maybeRestart deleting).lastExit = m.lastExit
  := by
  unfold maybeRestart bumpBackoff
  grind

theorem carries_maybeRestart (hca : called) (m : Watched) (deleting : Bool) :
  m.Carries called finishes (m.maybeRestart deleting)
  := by
  constructor
  · intro _
    right
    apply hca
  · rw [maybeRestart_lastExit]
    apply Or.inl

end Watched

variable (policy : RestartPolicy)

def restartsListed (unhealthy : Bool) : MachineState → Prop
  | .running => unhealthy = true
  | .failed => policy ≠ .never
  | .exited => policy = .always
  | _ => False

variable {finishes : Prop}

theorem carries_checkState (deleting unhealthy : Bool) (state : MachineState) (m : Watched) :
  m.Carries (restartsListed policy unhealthy state) finishes
    (checkState policy deleting unhealthy state m).1
  := by
  cases state with
  | running =>
    unfold checkState restartsListed
    dsimp only
    split
    next huh =>
      have hse : Watched.Carries _ finishes { m with seenRunning := true } _ :=
        carries_maybeRestart huh { m with seenRunning := true } deleting
      exact ⟨hse.awaits, hse.lastExit⟩
    · exact .of_eq rfl rfl
  | failed =>
    unfold checkState restartsListed
    dsimp only
    split
    next hp =>
      apply carries_maybeRestart
      rintro rfl
      rcases hp with hp | hp
      all_goals cases hp
    · exact .of_eq rfl rfl
  | exited =>
    unfold checkState restartsListed
    dsimp only
    split
    next hp =>
      apply carries_maybeRestart hp
    · exact .of_eq rfl rfl
  | unset | unknown | creating => exact .of_eq rfl rfl

theorem carries_checkContainer (deleting unhealthy : Bool) (entry : Option PodMetadata)
    (m : Watched) :
  m.Carries (restartsListed policy unhealthy ((entry.map state).getD .exited))
    finishes (checkContainer policy deleting unhealthy entry m).1
  := by
  unfold checkContainer
  dsimp only
  split
  · exact .of_eq rfl rfl
  · split
    · split
      · have hch : Watched.Carries _ finishes { m with seenRunning := true } _ :=
          carries_checkState policy deleting unhealthy
            ((entry.map state).getD .exited) { m with seenRunning := true }
        exact ⟨hch.awaits, hch.lastExit⟩
      · exact .of_eq rfl rfl
    · apply carries_checkState

namespace Lifecycle

variable {pod : ApiPod} {sidecar : String → Bool} {s t : Lifecycle} {b : LifecycleStep}
  {name : String} {handle : CreationHandle} {outcome : StopOutcome}

theorem carries_set {called finishes : Prop} {w : Watch}
    (h : name' = name → (w.containers name).Carries called finishes m) :
  (w.containers name').Carries called finishes ((w.set name m).containers name')
  := by
  rw [containers_set]
  split
  next hn =>
    rw [hn]
    apply h hn
  · exact .of_eq rfl rfl

theorem calledFor_check
    (hp : pod.spec.restartPolicy = .never ∨ pod.spec.restartPolicy = .onFailure)
    {todo : List String} (hpo : s.watch.poll = some p) (hto : p.todo = name :: todo)
    (h : restartsListed (effectivePolicy pod.toPod.spec.restartPolicy) unhealthy
      (((p.listManagedMachines name).map state).getD .exited)) :
  s.calledFor pod (.watch (.check unhealthy)) = some name
  := by
  have hef : effectivePolicy pod.toPod.spec.restartPolicy = pod.spec.restartPolicy := by
    rcases hp with hp | hp
    all_goals simp [effectivePolicy, hp]
  rw [hef] at h
  simp only [calledFor, hpo, hto]
  cases hli : (p.listManagedMachines name).map state with
  | none =>
    rw [hli] at h
    rw [show pod.spec.restartPolicy = .always from h] at hp
    simp at hp
  | some state =>
    rw [hli] at h
    cases state with
    | running => exact if_pos h
    | failed => exact if_neg h
    | exited =>
      rw [show pod.spec.restartPolicy = .always from h] at hp
      simp at hp
    | unset | unknown | creating => cases h

theorem carries_watch {watch : Watch}
    (hp : pod.spec.restartPolicy = .never ∨ pod.spec.restartPolicy = .onFailure)
    (h : (batchWatcher pod.toPod).step s.watch a = some watch) (name : String) :
  (s.watch.containers name).Carries (s.calledFor pod (.watch a) = some name)
    (s.Finishes (.watch a) name) (watch.containers name)
  := by
  cases a with
  | pollBegin =>
    obtain ⟨-, checks, -, rfl⟩ := pollBegin_eq_some h
    exact .of_eq rfl rfl
  | probe name' =>
    obtain ⟨p, -, -, -, rfl⟩ := probe_eq_some h
    apply carries_set
    rintro rfl
    apply carries_maybeRestart rfl
  | check unhealthy =>
    obtain ⟨p, name', todo, m, verdict, hpo, hto, hch, rfl⟩ := check_eq_some h
    apply carries_set
    rintro rfl
    have hcr : Watched.Carries _ (s.Finishes (.watch (.check unhealthy)) name)
        (s.watch.containers name) _ :=
      carries_checkContainer (effectivePolicy pod.toPod.spec.restartPolicy) s.watch.deleting
        unhealthy (p.listManagedMachines name) (s.watch.containers name)
    rw [hch] at hcr
    apply hcr.mono _ id
    apply calledFor_check hp hpo hto
  | pollEnd reset =>
    obtain ⟨p, -, -, ⟨-, -, rfl⟩ | rfl⟩ := pollEnd_eq_some h
    · dsimp only
      split
      · apply carries_resetUnit
      · exact .of_eq rfl rfl
    · exact .of_eq rfl rfl
  | handleUnitEvent name' subState =>
    obtain ⟨-, rfl | ⟨state, seen, -, rfl⟩⟩ := handleUnitEvent_eq_some h
    · exact .of_eq rfl rfl
    · apply carries_set
      rintro -
      exact .of_eq rfl rfl
  | restart name' ok outcome =>
    obtain ⟨step, m, hst, hm, rfl⟩ := restart_eq_some h
    apply carries_set
    rintro rfl
    apply (carries_restartContainer hst hm).mono id
    rintro ⟨hso, hex, hac⟩
    exact ⟨by simp [ends, hst, hso, hex], hac⟩
  | start name' =>
    obtain ⟨-, rfl⟩ := start_eq_some h
    apply carries_set
    rintro -
    exact .of_eq rfl rfl
  | exit name' exitCode =>
    obtain ⟨hac, rfl⟩ := exit_eq_some h
    apply carries_set
    rintro rfl
    refine ⟨Or.inl, ?_⟩
    intro hex
    right
    cases hex
    exact ⟨rfl, by simpa [active] using hac⟩
  | collect name' =>
    obtain ⟨-, rfl⟩ := collect_eq_some h
    apply carries_set
    rintro -
    exact .of_eq rfl rfl

structure Proceeds (pod : ApiPod) (s : Lifecycle) (b : LifecycleStep) (t : Lifecycle)
    (name : String) : Prop where
  container : (s.watch.containers name).Carries (s.calledFor pod b = some name)
    (s.Finishes b name) (t.watch.containers name)
  creation : ∀ handle c, t.creations handle = some c → c.step.ahead name = true
    → s.retries pod b = true ∨ ∃ c', s.creations handle = some c' ∧ c'.step.ahead name = true

theorem Proceeds.of_creations (hct : t.creations = s.creations)
    (hco : (s.watch.containers name).Carries (s.calledFor pod b = some name) (s.Finishes b
      name) (t.watch.containers name)) :
  Proceeds pod s b t name
  := by
  use hco
  intro handle c hc hah
  rw [hct] at hc
  right
  use c

variable {c : Creating}

theorem Proceeds.goto {step : CreateStep} (hc : s.creations handle = some c)
    (hu : Proceeds pod s b u name)
    (hst : step.ahead name → s.retries pod b ∨ c.step.ahead name) :
  Proceeds pod s b (u.goto handle c step) name
  := by
  use hu.container
  intro han c' hc' hah
  by_cases hh : han = handle
  · subst hh
    simp only [Lifecycle.goto, update_self] at hc'
    cases hc'
    apply (hst hah).imp_right
    intro hc'
    use c
  · simp only [Lifecycle.goto, update_of_ne hh] at hc'
    apply hu.creation han c' hc' hah

theorem Proceeds.refl :
  Proceeds pod s b s name
  := .of_creations rfl (.of_eq rfl rfl)

theorem proceeds_initRestartState :
  Proceeds pod s b (s.initRestartState pod) name
  := by
  unfold initRestartState
  split
  · exact .of_creations rfl (.of_eq rfl rfl)
  · apply Proceeds.refl

theorem proceeds_markFailed :
  Proceeds pod s b s.markFailed name
  := by
  unfold markFailed
  split
  · exact .of_creations rfl (.of_eq rfl rfl)
  · apply Proceeds.refl

theorem proceeds_promoteRunning :
  Proceeds pod s b s.promoteRunning name
  := by
  unfold promoteRunning
  split
  · exact .of_creations rfl (.of_eq rfl rfl)
  · apply Proceeds.refl

theorem proceeds_createPod :
  Proceeds pod s .createPod (s.createPod pod) name
  := by
  unfold createPod
  split
  · apply Proceeds.refl
  · split
    · apply Proceeds.refl
    · split
      · split
        · have hi : Proceeds pod s .createPod (s.initRestartState pod) name :=
            proceeds_initRestartState
          exact ⟨hi.container, hi.creation⟩
        · apply Proceeds.refl
      next hrg =>
        refine ⟨.of_eq rfl rfl, ?_⟩
        intro handle c _ _
        left
        simp [retries, hrg]

variable {ok skip : Bool}

theorem proceeds_launchContainer {todo : List Launch} {step : RestartStep} {result : LaunchResult}
    {next : CreateStep} (hc : s.creations handle = some c)
    (hst : c.step = .launchContainer l todo step)
    (h : (s.watch.containers l.name).launchContainer l.isInit s.watch.poll.isSome ok outcome step
      = some (m, result))
    (hne : next.ahead name → c.step.ahead name) :
  Proceeds pod s (.create handle ok skip outcome)
    ({ s with watch := s.watch.set l.name m }.goto handle c next) name
  := by
  apply Proceeds.goto hc
  · apply Proceeds.of_creations
    · rfl
    · apply carries_set
      rintro rfl
      apply (carries_launchContainer h).1.mono id
      rintro ⟨hso, hex, hac⟩
      exact ⟨by simp [ends, hc, hst, hso, hex], hac⟩
  · intro hah
    right
    apply hne hah

theorem proceeds_create (h : s.create pod sidecar handle ok skip outcome = some t) :
  Proceeds pod s (.create handle ok skip outcome) t name
  := by
  unfold create at h
  split at h
  · cases h
  rename_i c hc
  have hea {step : CreateStep} (hc' : c.step.ahead name) :
      Proceeds pod s (.create handle ok skip outcome) (s.goto handle c step) name :=
    Proceeds.goto hc .refl fun _ => .inr hc'
  have hlt {step : CreateStep} (hah : step.ahead name = false) :
      Proceeds pod s (.create handle ok skip outcome) (s.goto handle c step) name :=
    Proceeds.goto hc .refl fun h => absurd h (by simp [hah])
  cases hst : c.step with
  | acquire | backoff =>
    rw [hst] at h hea
    dsimp only at h
    split at h
    · cases h
      apply hea rfl
    · split at h
      · cases h
        apply hea rfl
      · cases h
  | network | populateEnvironmentVariables =>
    rw [hst] at h hea
    cases h
    apply hea rfl
  | initRestartState =>
    rw [hst] at h
    cases h
    apply Proceeds.goto hc proceeds_initRestartState
    intro _
    right
    rw [hst]
    rfl
  | next todo =>
    rw [hst] at h
    cases todo with
    | nil =>
      cases h
      apply hlt rfl
    | cons l todo =>
      cases h
      apply Proceeds.goto hc .refl
      intro hah
      right
      rw [hst]
      rw [CreateStep.ahead, any_cons, or_eq_true]
      cases skip with
      | true =>
        right
        apply hah
      | false => simpa [CreateStep.ahead, RestartStep.launched] using hah
  | launchContainer l todo step =>
    rw [hst] at h
    obtain ⟨⟨m, result⟩, hm, rfl⟩ := map_eq_some_iff.1 h
    apply proceeds_launchContainer hc hst hm
    rw [hst, CreateStep.ahead, or_eq_true]
    cases result with
    | step next =>
      rw [CreateStep.ahead, or_eq_true]
      apply Or.imp_left
      simp only [and_eq_true, not_eq_true']
      apply And.imp_right
      obtain ⟨-, hl⟩ : Watched.Carries False _ _ m ∧ _ := carries_launchContainer hm
      apply hl next rfl
    | done => apply Or.inr
    | error => nofun
  | failed =>
    rw [hst] at h
    dsimp only at h
    split at h
    · cases h
      apply Proceeds.goto hc proceeds_markFailed (fun hah => by cases hah)
    next hp =>
      cases h
      apply Proceeds.goto hc .refl
      intro _
      left
      simp [retries, hc, hst, hp]
  | promoteRunning =>
    rw [hst] at h
    cases h
    apply Proceeds.goto hc proceeds_promoteRunning (fun hah => by cases hah)
  | finish =>
    rw [hst] at h
    cases h
    use .of_eq rfl rfl
    intro han c' hc' hah
    dsimp only at hc'
    rw [update_apply] at hc'
    split at hc'
    · cases hc'
    · right
      use c'

theorem cancel_ahead (han : CreationHandle) (hc : (s.cancel handle).creations han = some c)
    (hah : c.step.ahead name) :
  ∃ c', s.creations han = some c' ∧ c'.step.ahead name
  := by
  simp only [cancel, update_apply] at hc
  split at hc
  next hh =>
    obtain ⟨c', hc', rfl⟩ := map_eq_some_iff.1 hc
    rw [hh]
    use c'
  · use c

theorem proceeds_delete {deletion : Nat} (h : s.delete pod deletion ok outcome = some t) :
  Proceeds pod s (.delete deletion ok outcome) t name
  := by
  unfold delete at h
  split at h
  · cases h
  · cases h
    unfold markDeleting
    split
    all_goals exact .of_creations rfl (.of_eq rfl rfl)
  · split at h
    · cases h
      use .of_eq rfl rfl
      intro han c hc hah
      right
      apply cancel_ahead han hc hah
    · cases h
      exact .of_creations rfl (.of_eq rfl rfl)
  · split at h
    · cases h
    · cases h
      exact .of_creations rfl (.of_eq rfl rfl)
  · cases h
    exact .of_creations rfl (.of_eq rfl rfl)
  next name' todo hd =>
    cases h
    apply Proceeds.of_creations
    · rfl
    · apply carries_set
      rintro rfl
      apply carries_stopMachine.mono id
      rintro ⟨hex, hac⟩
      exact ⟨by simp [ends, hd, hex], hac⟩
  · cases h
    apply Proceeds.of_creations
    · rfl
    · apply carries_set
      intro _
      apply carries_resetUnit
  · cases h
    exact .of_creations rfl (.of_eq rfl rfl)

theorem proceeds_step (hp : pod.spec.restartPolicy = .never ∨ pod.spec.restartPolicy = .onFailure)
    (h : (lifecycle pod sidecar).step s b = some t) (name : String) :
  Proceeds pod s b t name
  := by
  cases b with
  | createPod =>
    cases h
    apply proceeds_createPod
  | create handle ok skip outcome => apply proceeds_create h
  | deletePod id =>
    simp only [lifecycle] at h
    split at h
    · cases h
    · cases h
      exact .of_creations rfl (.of_eq rfl rfl)
  | delete id ok outcome => apply proceeds_delete h
  | watch a =>
    obtain ⟨watch, hw, rfl⟩ := map_eq_some_iff.1 h
    have hcr := carries_watch hp hw name
    split
    all_goals exact .of_creations rfl hcr

theorem Proceeds.ahead (h : Proceeds pod s b t name) (hah : t.Ahead name) :
  s.Ahead name ∨ s.retries pod b ∨ s.calledFor pod b = some name
  := by
  rcases hah with ⟨handle, c, hc, hst⟩ | haw
  · rcases h.creation handle c hc hst with hr | ⟨c', hc', hs⟩
    · exact .inr (.inl hr)
    · exact .inl (.inl ⟨handle, c', hc', hs⟩)
  · rcases h.container.awaits haw with haw | hca
    · exact .inl (.inr haw)
    · exact .inr (.inr hca)

theorem Finishes.calm (h : s.Finishes b name) :
  s.retries pod b = false ∧ s.calledFor pod b = none
  := by
  obtain ⟨hen, -⟩ := h
  cases b with
  | create handle ok skip outcome =>
    refine ⟨?_, rfl⟩
    simp only [ends] at hen
    split at hen
    next hst =>
      simp [retries, hst]
    · cases hen
  | delete id ok outcome => exact ⟨rfl, rfl⟩
  | watch a =>
    cases a with
    | restart | exit => exact ⟨rfl, rfl⟩
    | _ => cases hen
  | _ => cases hen

theorem ahead_of_runs (h : s.runs b = some name) :
  s.Ahead name
  := by
  cases b with
  | create handle ok skip outcome =>
    simp only [runs] at h
    split at h
    next l todo hst =>
      obtain ⟨c, hc, hst⟩ := map_eq_some_iff.1 hst
      cases h
      left
      use handle, c, hc
      simp [hst, CreateStep.ahead, RestartStep.launched]
    · cases h
  | watch a =>
    cases a with
    | restart name' ok outcome =>
      simp only [runs] at h
      split at h
      next hst =>
        cases h
        right
        use .runMachine, hst
        rfl
      · cases h
    | _ => cases h
  | _ => cases h

end Lifecycle

namespace Job

structure Sound (pod : ApiPod) (s : Job) : Prop where
  recorded : ∀ name, (s.life.watch.containers name).lastExit = some 0 → s.finished name = true
  ahead : ∀ name ∈ pod.containerNames, s.life.Ahead name → s.finished name = false

structure Fresh (s : Job) : Prop where
  unfinished : ∀ name, s.finished name = false
  lastExit : ∀ name, (s.life.watch.containers name).lastExit = none

variable {pod : ApiPod} {sidecar : String → Bool} {s t : Job}

theorem Fresh.sound (h : s.Fresh) :
  s.Sound pod
  := by
  constructor
  · intro name hex
    rw [h.lastExit] at hex
    cases hex
  · intro name _ _
    apply h.unfinished

theorem Sound.step (hp : pod.spec.restartPolicy = .never ∨ pod.spec.restartPolicy = .onFailure)
    (hs : s.Sound pod) (hsp : SparesFinished pod s a) (h : (jobs pod sidecar).step s a = some t) :
  t.Sound pod
  := by
  obtain ⟨decided, hde, h⟩ := bind_eq_some_iff.1 h
  cases decided with
  | none =>
    cases h
    exact ⟨hs.recorded, hs.ahead⟩
  | some b =>
    obtain ⟨life, hlf, rfl⟩ := map_eq_some_iff.1 h
    have hb := hsp b hde
    constructor
    · intro name hex
      dsimp only at hex ⊢
      simp only [hex, decide_true, Bool.or_true]
    · intro name hn hah
      dsimp only
      have hpr := Lifecycle.proceeds_step hp hlf name
      have hcs := hpr.ahead hah
      have hun : s.finished name = false := by
        rcases hcs with hah | hr | hca
        · apply hs.ahead name hn hah
        · apply hb.retries hr name hn
        · apply hb.calledFor name hn hca
      rw [hun, Bool.false_or, decide_eq_false_iff_not]
      intro hex
      rcases hpr.container.lastExit hex with hex | hf
      · rw [hs.recorded name hex] at hun
        cases hun
      · -- The run that ends had no launch ahead, and the step that ends it calls for none.
        rcases hcs with hah | hr | hca
        · apply hb.finishes name hn hf hah
        · rw [hf.calm.1] at hr
          cases hr
        · rw [hf.calm.2] at hca
          cases hca

end Job

/-- A container of a pod that is not always restarted is never launched after a run of it has
ended with exit code 0, in a run that spares finished containers. -/
theorem finished_not_run {pod : ApiPod} {sidecar : String → Bool} {s t : Job}
    {actions : List JobAction}
    (hpolicy : pod.spec.restartPolicy = .never ∨ pod.spec.restartPolicy = .onFailure)
    (hfresh : s.Fresh) (hspares : (jobs pod sidecar).Meets (SparesFinished pod) s actions)
    (hrun : (jobs pod sidecar).run s actions = some t) {name : String}
    (hname : name ∈ pod.containerNames) {b : LifecycleStep} (hruns : t.life.runs b = some name) :
  t.finished name = false
  := by
  have hsu : t.Sound pod := by
    apply (jobs pod sidecar).run_induction hfresh.sound _ hspares hrun
    intro u a v hu ha hv
    apply hu.step hpolicy ha hv
  apply hsu.ahead name hname
  apply Lifecycle.ahead_of_runs hruns

/-- A pod that was not created yet. -/
def newJob : Job where
  life := newLifecycle
  seenActive := fun _ => false
  finished := fun _ => false

theorem fresh_newJob :
  newJob.Fresh
  := ⟨fun _ => rfl, fun _ => rfl⟩

def Job.calm (pod : ApiPod) (s : Job) (a : JobAction) : Bool :=
  (s.decides pod a).all fun decided =>
    decided.all fun b =>
      (!s.life.retries pod b || pod.containerNames.all fun name => !s.finished name)
        && (s.life.calledFor pod b).isNone && (s.life.ends b).isNone

variable {pod : ApiPod} {s : Job}

theorem sparesFinished_of_calm (h : s.calm pod a) :
  SparesFinished pod s a
  := by
  intro b hb
  simp only [Job.calm, hb, all_some, and_eq_true, isNone_iff_eq_none] at h
  obtain ⟨⟨hr, hca⟩, hen⟩ := h
  constructor
  · intro hrt
    simpa [hrt] using hr
  · intro name _ hn
    rw [hca] at hn
    cases hn
  · intro name _ hf
    rw [Lifecycle.Finishes, hen] at hf
    cases hf.1

theorem meets_of_calm {sidecar : String → Bool}
    (h : (jobs pod sidecar).Meets (fun s a => s.calm pod a) s actions) :
  (jobs pod sidecar).Meets (SparesFinished pod) s actions
  := (jobs pod sidecar).meets_of_invariant trivial (fun _ _ _ _ _ _ => trivial)
    (fun _ _ _ => sparesFinished_of_calm) h

def creates (n : Nat) : List JobAction :=
  replicate n (.step (.create 0 true false .error))

def twoJobsPod : ApiPod :=
  { spec := { restartPolicy := .onFailure
              containers := [{ name := "first" }, { name := "second" }] } }

def firstJob : List JobAction :=
  flatten
    [[.step .createPod], creates 4, [.look 0 .unknown], creates 4,
      [.step (.watch (.start "first")), .poll (.creation 0) .exact], creates 3]

def secondJob : List JobAction :=
  .look 0 .unknown :: creates 3

theorem spares_firstJob (hu : (jobs twoJobsPod fun _ => false).run newJob firstJob = some u) :
  SparesFinished twoJobsPod u (.step (.watch (.exit "first" 0)))
  := by
  have hce : ((jobs twoJobsPod fun _ => false).run newJob firstJob).map
      (fun u => (u.life.creations 0, (u.life.watch.containers "first").restarting))
      = some (some ⟨.next [⟨"second", false⟩], false⟩, none) := rfl
  have ho (n : Nat) : ((jobs twoJobsPod fun _ => false).run newJob firstJob).map
      (fun u => u.life.creations (n + 1)) = some none := rfl
  rw [hu] at hce
  simp only [hu, map_some, Option.some.injEq] at ho
  obtain ⟨hfi, hre⟩ := Prod.mk.inj (some.inj hce)
  rintro b ⟨⟩
  refine ⟨fun hr => absurd hr false_ne_true,
    fun name _ hca => absurd hca (some_ne_none name).symm, ?_⟩
  rintro name - ⟨hn, -⟩
  cases hn
  rintro (⟨handle, c, hc, hah⟩ | ⟨step, hst, -⟩)
  · cases handle with
    | zero =>
      rw [hfi] at hc
      cases hc
      revert hah
      decide
    | succ n =>
      rw [ho] at hc
      cases hc
  · rw [hre] at hst
    cases hst

theorem finished_not_run_second :
  ∃ t, (jobs twoJobsPod fun _ => false).run newJob
      (firstJob ++ .step (.watch (.exit "first" 0)) :: secondJob) = some t
    ∧ t.finished "first" = true
    ∧ t.life.runs (.create 0 true false .error) = some "second"
    ∧ t.finished "second" = false
  := by
  have hed : ((jobs twoJobsPod fun _ => false).run newJob
      (firstJob ++ .step (.watch (.exit "first" 0)) :: secondJob)).map
        (fun t => (t.finished "first", t.life.runs (.create 0 true false .error)))
      = some (true, some "second") := rfl
  obtain ⟨t, hrn, ht⟩ := map_eq_some_iff.mp hed
  obtain ⟨hfi, hru⟩ := Prod.mk.inj ht
  refine ⟨t, hrn, hfi, hru, ?_⟩
  apply finished_not_run (.inr rfl) fresh_newJob _ hrn (by decide) hru
  obtain ⟨u, hu, -⟩ := System.run_append _ |>.mp hrn
  apply System.meets_append_of_run _ (meets_of_calm (by decide)) hu
  use spares_firstJob hu
  intro v hv
  apply meets_of_calm
  have hla : ((jobs twoJobsPod fun _ => false).run newJob
      (firstJob ++ [.step (.watch (.exit "first" 0))])).all
        (fun v => decide ((jobs twoJobsPod fun _ => false).Meets
          (fun s a => s.calm twoJobsPod a = true) v secondJob)) = true := by decide
  rw [System.run_concat _ hu, hv] at hla
  exact of_decide_eq_true hla

def oneJobPod : ApiPod :=
  { spec := { restartPolicy := .onFailure, containers := [{ name := "app" }] } }

/-- The container is seen being started, and has finished at the next look at it; the creation
of the pod fails and is tried again, up to the next call of `RunMachine`. -/
def shortJob : List JobAction :=
  flatten
    [[.step .createPod], creates 4, [.look 0 .unknown], creates 4,
      [.poll (.creation 0) .exact, .step (.watch (.exit "app" 0)), .poll (.creation 0) .exact],
      creates 7, [.look 0 .unknown], creates 3]

theorem finished_run_again :
  oneJobPod.spec.restartPolicy = .onFailure ∧ newJob.Fresh ∧ "app" ∈ oneJobPod.containerNames
    ∧ ((jobs oneJobPod fun _ => false).run newJob shortJob).map
        (fun t => (t.finished "app", t.life.runs (.create 0 true false .error)))
      = some (true, some "app")
  := by
  refine ⟨rfl, fresh_newJob, ?_, ?_⟩
  · decide
  · rfl

end Periapsis.Node
