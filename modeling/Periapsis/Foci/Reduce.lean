import Periapsis.Foci.State
import Periapsis.Transition.Mealy

/-!
# The reducer

`reduce state fact clock` is the state of a pod after a fact, and the effects the fact causes;
`clock` holds the clock readings made on the way.
-/

namespace Periapsis.Foci

open Corev1 Periapsis.Types

def shouldRestart (policy : RestartPolicy) (exitCode : Int32) : Bool :=
  match policy with
  | .always => true
  | .onFailure => exitCode ≠ 0
  | _ => false

def min (a b : Duration) : Duration :=
  if a < b then a else b

def index (sub : List Char) : List Char → Option Nat
  | [] => if sub.isEmpty then some 0 else none
  | c :: s => if sub.isPrefixOf (c :: s) then some 0 else (index sub s).map (· + 1)

def parseContainerFromUnit (unitName : String) : String :=
  let unit := unitName.toList
  let suffix := ".service".toList
  if !suffix.isSuffixOf unit then ""
  else
    match index "perigeos-".toList unit with
    | none => ""
    | some idx =>
      let rest := unit.drop (idx + "perigeos-".length)
      match index "-pod-".toList rest with
      | none => ""
      | some podIdx =>
        let afterPod := rest.drop (podIdx + 5)
        let afterPod := afterPod.take (afterPod.length - suffix.length)
        if afterPod.length < 38 then "" else String.ofList (afterPod.drop 37)

structure PhaseFlags where
  anyRunning : Bool := false
  anyCreating : Bool := false
  anyRestarting : Bool := false
  allTerminated : Bool := true
  allSucceeded : Bool := true

def PhaseFlags.observe (flags : PhaseFlags) (cv : ContainerState) : PhaseFlags :=
  match cv.phase with
  | .running => { flags with anyRunning := true, allTerminated := false }
  | .creating => { flags with anyCreating := true, allTerminated := false }
  | .crashLoopBackOff =>
    { flags with anyRestarting := true, allTerminated := false, allSucceeded := false }
  | .terminated => if cv.exitCode ≠ 0 then { flags with allSucceeded := false } else flags

def PhaseFlags.podPhase (flags : PhaseFlags) (prev : PodPhase) : PodPhase :=
  if flags.anyRunning then .running
  else if flags.anyCreating then .pending
  else if flags.anyRestarting then .running
  else if flags.allTerminated then
    if flags.allSucceeded then .succeeded else .failed
  else prev

variable (state : PodState)

def resetUnits : List Effect :=
  state.containers.map fun cv => .resetUnit ⟨state.uid, cv.name⟩

def recomputePhase (clock : Clock) : PodState × List Effect :=
  let prevPhase := state.phase
  let flags := state.containers.foldl PhaseFlags.observe {}
  let state := { state with phase := flags.podPhase prevPhase }
  let status := buildPodStatusPayload state clock
  let terminal :=
    if state.phase.terminal ∧ prevPhase ≠ state.phase then
      .setPodPhase ⟨state.uid, state.phase⟩ :: resetUnits state
    else []
  (state,
    .updateStatus ⟨state.uid, state.podNamespace, state.name, status⟩ :: terminal
      ++ [.persistPodState ⟨state.uid⟩])

/-- What a handler makes of its container: the new state, the effects so far, and whether it goes on
to recompute the phase of the pod. -/
structure Touch where
  container : ContainerState
  effects : List Effect
  recompute : Bool

def conclude (clock : Clock) (idx : Nat) (touch : Touch) :
    PodState × List Effect :=
  let state := state.setContainer idx touch.container
  if touch.recompute then
    let (newState, statusEff) := recomputePhase state clock
    (newState, touch.effects ++ statusEff)
  else (state, touch.effects)

def onContainer (name : String) (clock : Clock)
    (handler : ContainerState → Touch) : PodState × List Effect :=
  match state.findContainer name with
  | none => (state, [])
  | some idx => conclude state clock idx (handler (state.container idx))

variable {state}

def Touch.leave (cv : ContainerState) (effects : List Effect) : Touch :=
  ⟨cv, effects, false⟩

def Touch.settle (prevPhase : ContainerPhase) (cv : ContainerState) (effects : List Effect) :
    Touch :=
  ⟨cv, effects, prevPhase ≠ cv.phase⟩

def Touch.settleUnit (prevPhase : ContainerPhase) (cv : ContainerState)
    (effects : List Effect) : Touch :=
  ⟨cv, effects, prevPhase ≠ cv.phase ∨ cv.phase = .running⟩

def ContainerState.bumpRestart (cv : ContainerState) : ContainerState :=
  { cv with
    restarting := true
    restartCount := cv.restartCount + 1
    backoff := min (cv.backoff * 2) maxBackoff }

variable (state)

def restartEffect (containerName : String) (cv : ContainerState) : Effect :=
  .restartContainer
    { uid := state.uid
      podNamespace := state.podNamespace
      podName := state.name
      containerName := containerName
      restartCount := cv.restartCount
      backoff := cv.backoff }

def eventEffect (eventType : EventType) (reason message : String) : Effect :=
  .recordEvent ⟨state.uid, eventType, reason, message⟩

def failedEvent (containerName : String) (exitCode : Int32) : Effect :=
  eventEffect state .warning "Failed"
    ("Container " ++ containerName ++ " exited with error (code " ++ toString exitCode ++ ")")

def unitTouch (fact : UnitFact) (containerName : String) (clock : Clock)
    (cv : ContainerState) : Touch :=
  let prevPhase := cv.phase
  match fact.subState with
  | .running =>
    let cv :=
      { cv with
        phase := .running
        seenRunning := true
        restarting := false
        lastStarted := clock.started }
    let started :=
      if prevPhase ≠ .running then
        [eventEffect state .normal "Started" ("Container " ++ containerName ++ " started")]
      else []
    .settleUnit prevPhase cv started
  | .failed =>
    let cv := { cv with phase := .crashLoopBackOff, exitCode := fact.exitCode }
    let failed :=
      if prevPhase ≠ .crashLoopBackOff then [failedEvent state containerName fact.exitCode]
      else []
    if shouldRestart state.spec.restartPolicy cv.exitCode then
      let cv := cv.bumpRestart
      .settleUnit prevPhase cv (failed ++ [restartEffect state containerName cv])
    else .settleUnit prevPhase cv failed
  | .startPre | .start | .startPost => .settleUnit prevPhase { cv with phase := .creating } []
  | .stopSigterm | .stopWatchdog =>
    .leave cv
      [eventEffect state .normal "Killing"
        ("Container " ++ containerName ++ " received SIGTERM, waiting for graceful exit")]
  | .stopSigkill | .stopKill =>
    .leave cv
      [eventEffect state .warning "Killing"
        ("Container " ++ containerName ++ " grace period expired, sending SIGKILL")]
  | _ => .leave cv []

def reduceUnitFact (fact : UnitFact) (clock : Clock) :
    PodState × List Effect :=
  let containerName := parseContainerFromUnit fact.unitName
  if containerName = "" then (state, [])
  else onContainer state containerName clock (unitTouch state fact containerName clock)

def restartUnlessRestarting (containerName : String) (cv : ContainerState) :
    ContainerState × List Effect :=
  if cv.restarting then (cv, [])
  else (cv.bumpRestart, [restartEffect state containerName cv.bumpRestart])

def exitReason (exitCode : Int32) : String :=
  if exitCode = 0 then "Completed" else "Error"

def pollTouch (fact : ContainerStateFact) (clock : Clock) (cv : ContainerState) : Touch :=
  let prevPhase := cv.phase
  match fact.state with
  | .running =>
    let cv :=
      { cv with
        phase := .running
        seenRunning := true
        restarting := false
        lastStarted := clock.started }
    let cv :=
      if cv.lastStarted ≠ 0 ∧ restartBackoffReset.toInt < clock.since - cv.lastStarted then
        { cv with backoff := restartBackoffInit }
      else cv
    .settle prevPhase cv []
  | .creating => .settle prevPhase { cv with phase := .creating } []
  | .failed =>
    let cv := { cv with exitCode := fact.exitCode }
    let r :=
      if shouldRestart state.spec.restartPolicy fact.exitCode then
        restartUnlessRestarting state fact.container { cv with phase := .crashLoopBackOff }
      else ({ cv with phase := .terminated, exitReason := "Error" }, [])
    let failed :=
      if prevPhase ≠ .crashLoopBackOff then [failedEvent state fact.container fact.exitCode]
      else []
    .settle prevPhase r.1 (r.2 ++ failed)
  | .exited =>
    let cv := { cv with exitCode := fact.exitCode }
    let r :=
      if state.spec.restartPolicy = .always then
        restartUnlessRestarting state fact.container { cv with phase := .crashLoopBackOff }
      else ({ cv with phase := .terminated, exitReason := exitReason fact.exitCode }, [])
    let ended :=
      if prevPhase ≠ .terminated ∧ prevPhase ≠ .crashLoopBackOff then
        if fact.exitCode = 0 then
          [eventEffect state .normal "Completed"
            ("Container " ++ fact.container ++ " exited with code " ++ toString fact.exitCode)]
        else [failedEvent state fact.container fact.exitCode]
      else []
    .settle prevPhase r.1 (r.2 ++ ended)
  | _ =>
    if cv.restarting then .leave cv []
    else if cv.seenRunning then
      .settle prevPhase
        { cv with phase := .terminated, exitCode := 0, exitReason := "Completed" } []
    else .leave cv []

def reduceContainerStateFact (fact : ContainerStateFact) (clock : Clock) :
    PodState × List Effect :=
  onContainer state fact.container clock (pollTouch state fact clock)

def exitTouch (fact : ExitFact) (cv : ContainerState) : Touch :=
  if !cv.seenRunning then .leave { cv with phase := .creating } []
  else
    let prevPhase := cv.phase
    if fact.willRestart then
      let cv := { cv with phase := .crashLoopBackOff }.bumpRestart
      .settle prevPhase cv [restartEffect state fact.container cv]
    else
      let reason := if fact.reason = "" then exitReason fact.exitCode else fact.reason
      .settle prevPhase
        { cv with phase := .terminated, exitCode := fact.exitCode, exitReason := reason } []

def reduceExitFact (fact : ExitFact) (clock : Clock) :
    PodState × List Effect :=
  onContainer state fact.container clock (exitTouch state fact)

def probeTouch (fact : ProbeFact) (cv : ContainerState) : Touch :=
  let wasReady := cv.ready
  let cv :=
    match fact.probeType with
    | .readiness => { cv with ready := fact.ready }
    | .startup => { cv with startupPassed := fact.startupPassed }
    | _ => cv
  let passed :=
    if wasReady ≠ cv.ready ∧ cv.ready then
      [eventEffect state .normal "ProbeReady"
        ("Container " ++ fact.container ++ " passed readiness probe")]
    else []
  ⟨cv, passed, wasReady ≠ cv.ready⟩

def reduceProbeFact (fact : ProbeFact) (clock : Clock) :
    PodState × List Effect :=
  onContainer state fact.container clock (probeTouch state fact)

def reduceMarkRunningFact (fact : MarkRunningFact) (clock : Clock) :
    PodState × List Effect :=
  onContainer state fact.containerName clock fun cv => .leave { cv with seenRunning := true } []

def reduceBackoffResetFact (fact : BackoffResetFact) (clock : Clock) :
    PodState × List Effect :=
  onContainer state fact.containerName clock fun cv =>
    .leave { cv with backoff := restartBackoffInit } []

/-- The container of a new specification, taken over if there is one of its name. -/
def syncContainer (cs : ContainerSpec) (now : Time) : ContainerState :=
  match state.findContainer cs.name with
  | some idx => { state.container idx with image := cs.image }
  | none => newContainerState cs now

def syncSpec (pod : Pod) (clock : Clock) : PodState :=
  let newSpec := newPodSpec pod
  { state with
    spec := newSpec
    containers := newSpec.containers.mapIdx fun i cs => syncContainer state cs (clock.added i) }

def reduceSpecFact (pod : Option Pod) (clock : Clock) :
    PodState × List Effect :=
  match pod with
  | none => (state, [])
  | some pod => recomputePhase (syncSpec state pod clock) clock

def reducePodAdmitFact (fact : PodAdmitFact) (clock : Clock) :
    Option (PodState × List Effect) :=
  if state.uid ≠ "" then some (reduceSpecFact state fact.pod clock)
  else
    fact.pod.map fun pod =>
      let newState := newPodState fact.uid fact.podNamespace fact.name fact.podIP pod clock
      (newState,
        [.initRestartState
          { uid := fact.uid
            podNamespace := fact.podNamespace
            name := fact.name
            containers := newState.spec.containers.map fun cs => ⟨cs.name, cs.hasReadinessProbe⟩ },
        .persistPodState ⟨fact.uid⟩])

def reducePodEvictFact : PodState × List Effect :=
  ({}, resetUnits state)

def reduce (fact : Fact) (clock : Clock) : PodState × List Effect :=
  if state.uid = "" then (state, [])
  else
    match fact with
    | .unit f => reduceUnitFact state f clock
    | .containerState f => reduceContainerStateFact state f clock
    | .exit f => reduceExitFact state f clock
    | .probe f => reduceProbeFact state f clock
    | .spec f => reduceSpecFact state f.pod clock
    | .podAdmit f => (reducePodAdmitFact state f clock).getD (state, [])
    | .podEvict _ => reducePodEvictFact state
    | .markRunning f => reduceMarkRunningFact state f clock
    | .backoffReset f => reduceBackoffResetFact state f clock

variable {state}

def reducer : Transition.Mealy PodState (Fact × Clock) Effect where
  step state input := reduce state input.1 input.2

end Periapsis.Foci
