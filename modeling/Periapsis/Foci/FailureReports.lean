import Periapsis.Foci.Step

/-!
# Two reports of one failure

A failure is reported twice: by D-Bus, as a unit fact with the substate `failed`, and by a poll, as
a container fact.
-/

namespace Periapsis.Foci

open Corev1 Periapsis.Types PodState Effect

structure ContainerOutcome where
  phase : ContainerPhase
  exitCode : Int32
  restarting : Bool
  restartCount : Int32
  backoff : Duration
  deriving DecidableEq

structure Outcome where
  container : Option ContainerOutcome
  phase : PodPhase
  restarts : List RestartContainer
  deriving DecidableEq

def ContainerState.outcome (cv : ContainerState) : ContainerOutcome where
  phase := cv.phase
  exitCode := cv.exitCode
  restarting := cv.restarting
  restartCount := cv.restartCount
  backoff := cv.backoff

def outcome (name : String) (result : PodState × List Effect) : Outcome where
  container := (result.1.lookup name).map ContainerState.outcome
  phase := result.1.phase
  restarts := result.2.filterMap Effect.restart

def IsUnitOf (unitName containerName : String) : Prop :=
  containerName ≠ "" ∧ parseContainerFromUnit unitName = containerName

def unitFailed (uid unitName : String) (exitCode : Int32) : Fact :=
  .unit ⟨uid, unitName, .failed, exitCode⟩

def pollFailed (uid containerName : String) (exitCode : Int32) : Fact :=
  .containerState ⟨uid, containerName, .failed, exitCode⟩

variable {state : PodState} {name unitName : String} {idx : Nat} {clock : Clock}

theorem outcome_conclude {touch : Touch} (hf : state.findContainer name = some idx)
    (hn : touch.container.name = name) :
  outcome name (conclude state clock idx touch)
    = { container := some touch.container.outcome
        phase :=
          if touch.recompute then computedPhase (state.setContainer idx touch.container)
          else state.phase
        restarts := touch.effects.filterMap restart }
  := by
  have hl : (conclude state clock idx touch).1.lookup name = some touch.container := by
    have h := lookup_setContainer hf hn name
    rw [if_pos rfl] at h
    rw [conclude_fst, ← h]
    rfl
  rw [outcome, hl, conclude_restarts, conclude_fst]
  rfl

theorem unitFailed_touched (hu : IsUnitOf unitName name) (hf : state.findContainer name = some idx)
    (uid : String) (exitCode : Int32) :
  touched state clock (unitFailed uid unitName exitCode)
    = some (idx, unitTouch state ⟨uid, unitName, .failed, exitCode⟩ name clock
        (state.container idx))
  := by
  obtain ⟨hne, rfl⟩ := hu
  simp [touched, unitFailed, handlerOf, hne, hf]

theorem pollFailed_touched
    (hf : state.findContainer name = some idx) (uid : String) (exitCode : Int32) :
  touched state clock (pollFailed uid name exitCode)
    = some (idx, pollTouch state ⟨uid, name, .failed, exitCode⟩ clock (state.container idx))
  := by
  simp [touched, pollFailed, handlerOf, hf]

section Touches

variable {cv : ContainerState} {uid : String} {exitCode : Int32}

theorem unitTouch_failed_phase :
  (unitTouch state ⟨uid, unitName, .failed, exitCode⟩ name clock cv).container.phase
    = .crashLoopBackOff
  := by
  unfold unitTouch
  dsimp only
  split
  all_goals rfl

theorem pollTouch_failed_phase (hp : shouldRestart state.spec.restartPolicy exitCode = false) :
  (pollTouch state ⟨uid, name, .failed, exitCode⟩ clock cv).container.phase = .terminated
  := by
  simp [pollTouch, hp, Touch.settle]

section

variable (hp : shouldRestart state.spec.restartPolicy exitCode)
include hp

theorem unitTouch_failed_restartCount :
  (unitTouch state ⟨uid, unitName, .failed, exitCode⟩ name clock cv).container.restartCount
    = cv.restartCount + 1
  := by
  simp [unitTouch, hp, Touch.settleUnit, ContainerState.bumpRestart]

theorem pollTouch_failed_restartCount (hr : cv.restarting) :
  (pollTouch state ⟨uid, name, .failed, exitCode⟩ clock cv).container.restartCount
    = cv.restartCount
  := by
  simp [pollTouch, hp, hr, restartUnlessRestarting, Touch.settle]

theorem failed_touches_agree (hr : cv.restarting = false) (uid uid' unitName name : String)
    (clock clock' : Clock) :
  let unit := unitTouch state ⟨uid, unitName, .failed, exitCode⟩ name clock cv
  let poll := pollTouch state ⟨uid', name, .failed, exitCode⟩ clock' cv
  unit.container = poll.container ∧ unit.recompute = poll.recompute
    ∧ unit.effects.filterMap restart = poll.effects.filterMap restart
  := by
  by_cases hph : cv.phase = .crashLoopBackOff
  · simp [unitTouch, pollTouch, hp, hr, restartUnlessRestarting,
      Touch.settleUnit, Touch.settle, ContainerState.bumpRestart, hph]
  · simp [unitTouch, pollTouch, hp, hr, restartUnlessRestarting,
      Touch.settleUnit, Touch.settle, ContainerState.bumpRestart, hph, failedEvent,
      eventEffect, restartEffect, restart, List.filterMap_cons]

end

end Touches

/-- The two reports of a failure lead to the same outcome exactly when the pod is not tracked, or
the container is to be restarted and no restart is under way. -/
theorem outcome_unit_eq_poll_iff (state : PodState) {name unitName : String} {cv : ContainerState}
    (hcv : state.lookup name = some cv) (hunit : IsUnitOf unitName name)
    (exitCode : Int32) (uid uid' : String) (clock clock' : Clock) :
  outcome name (reduce state (unitFailed uid unitName exitCode) clock)
      = outcome name (reduce state (pollFailed uid' name exitCode) clock')
    ↔ state.uid = ""
      ∨ shouldRestart state.spec.restartPolicy exitCode = true ∧ cv.restarting = false
  := by
  by_cases hui : state.uid = ""
  · simp [reduce_untracked hui, hui, outcome]
  obtain ⟨idx, hf, rfl⟩ := find_of_lookup hcv
  have hn := (container_of_find hf).2
  have hto : touched state clock _ = _ := unitFailed_touched hunit hf uid exitCode
  have ht : touched state clock' _ = _ := pollFailed_touched hf uid' exitCode
  rw [reduce_touched hui hto, reduce_touched hui ht,
    outcome_conclude hf ((touched_lawful hto).name_eq.trans hn),
    outcome_conclude hf ((touched_lawful ht).name_eq.trans hn)]
  simp only [Outcome.mk.injEq, Option.some.injEq, hui, false_or]
  constructor
  · rintro ⟨hc, -, -⟩
    cases hp : shouldRestart state.spec.restartPolicy exitCode with
    | false =>
      have hph := congrArg ContainerOutcome.phase hc
      simp [ContainerState.outcome, unitTouch_failed_phase, pollTouch_failed_phase hp]
        at hph
    | true =>
      use rfl
      rw [← Bool.not_eq_true]
      intro hr
      have hco := congrArg ContainerOutcome.restartCount hc
      simp [ContainerState.outcome, unitTouch_failed_restartCount hp,
        pollTouch_failed_restartCount hp hr]
        at hco
  · rintro ⟨hp, hr⟩
    obtain ⟨hc, hre, hrs⟩ := failed_touches_agree hp hr uid uid' unitName name clock clock'
    rw [hc, hre, hrs]
    exact ⟨rfl, rfl, rfl⟩

def unitOfA : String :=
  "perigeos-w-pod-00000000-0000-0000-0000-000000000000-a.service"

theorem outcome_unit_eq_poll_running :
  let state := reducer.final (newPodState "u" "default" "web" "" ⟨.always, [{ name := "a" }]⟩ {})
    [(.containerState ⟨"u", "a", .running, 0⟩, {})]
  outcome "a" (reduce state (unitFailed "u" unitOfA 1) {})
    = outcome "a" (reduce state (pollFailed "u" "a" 1) {})
  := by
  apply (outcome_unit_eq_poll_iff _ rfl ⟨by decide, by decide⟩ _ _ _ _ _).mpr
  right
  decide

theorem outcome_unit_ne_poll :
  let state := reducer.final (newPodState "u" "default" "job" "" ⟨.never, [{ name := "a" }]⟩ {})
    [(.containerState ⟨"u", "a", .running, 0⟩, {})]
  outcome "a" (reduce state (unitFailed "u" unitOfA 1) {})
    ≠ outcome "a" (reduce state (pollFailed "u" "a" 1) {})
  := by
  decide

end Periapsis.Foci
