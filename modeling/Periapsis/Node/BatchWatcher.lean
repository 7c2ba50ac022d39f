import Periapsis.Types.Messages
import Periapsis.Transition.System

/-!
# The batch watcher

The watcher polls the units of a pod and decides whether to restart a container and whether the pod
has ended.
-/

namespace Periapsis.Node

open Corev1 Periapsis.Types Perigeos Transition Function Option

/-- The states of a unit that a listing can show. -/
inductive UnitState where
  | creating
  | running
  | exited
  | failed (exitCode : Int32)
  deriving DecidableEq

structure PodMetadata where
  state : MachineState
  exitCode : Int32
  deriving DecidableEq

def UnitState.listed : UnitState → PodMetadata
  | .creating => ⟨.creating, 0⟩
  | .running => ⟨.running, 0⟩
  | .exited => ⟨.exited, 0⟩
  | .failed exitCode => ⟨.failed, exitCode⟩

def UnitState.ended (exitCode : Int32) : UnitState :=
  if exitCode = 0 then .exited else .failed exitCode

inductive RestartStep where
  | backoff
  | stopMachine
  | resetUnit
  | checkMachined
  | prepare
  | clearStopMachine
  | clearResetUnit
  | runMachine
  | waitForContainer
  | markRunning
  | makeSharedMounts
  | postStart
  | failedStopMachine
  | failedResetUnit
  | unsharedStopMachine
  | finish
  deriving DecidableEq

inductive StopOutcome where
  | error
  | stopped (exitCode : Int32) (reset : Bool)
  deriving DecidableEq

structure Watched where
  unit : Option UnitState
  lastExit : Option Int32
  seenRunning : Bool
  restarting : Option RestartStep
  restartCount : Option Int32
  deriving DecidableEq

namespace Watched

variable (m : Watched)

def exit (exitCode : Int32) : Watched :=
  match m.unit with
  | some .creating => { m with unit := some (.ended exitCode), lastExit := some exitCode }
  | some .running => { m with unit := some (.ended exitCode), lastExit := some exitCode }
  | _ => m

def resetUnit (ok : Bool) : Watched :=
  match ok, m.unit with
  | true, some .exited => { m with unit := none }
  | true, some (.failed _) => { m with unit := none }
  | _, _ => m

def stopMachine : StopOutcome → Watched
  | .error => m
  | .stopped exitCode reset => (m.exit exitCode).resetUnit reset

def runMachine (ok : Bool) (outcome : StopOutcome) : Watched × Bool :=
  let m := m.stopMachine outcome
  if ok = true ∧ m.unit = none then ({ m with unit := some .creating }, true)
  else (m, false)

def bumpBackoff : Watched × Int32 :=
  match m.restartCount with
  | some count => ({ m with restartCount := some (count + 1) }, count + 1)
  | none => (m, 0)

variable {m}

def maybeRestart (deleting : Bool) (m : Watched) : Watched :=
  if deleting then m
  else if m.restarting.isSome then m
  else
    let (m, count) := m.bumpBackoff
    if count = 0 then m
    else { m with restarting := some .backoff }

/-- The next step of a restart attempt. A step that can fail does so unless `ok`; one that stops a
machine ends with `outcome`. -/
def restartContainer (m : Watched) (polling ok : Bool) (outcome : StopOutcome) :
    RestartStep → Option Watched
  | .backoff => some { m with restarting := some (if ok then .stopMachine else .finish) }
  | .stopMachine => some { m.stopMachine outcome with restarting := some .resetUnit }
  | .resetUnit => some { m.resetUnit ok with restarting := some .checkMachined }
  | .checkMachined => some { m with restarting := some (if ok then .prepare else .finish) }
  | .prepare => some { m with restarting := some (if ok then .clearStopMachine else .finish) }
  | .clearStopMachine => some { m.stopMachine outcome with restarting := some .clearResetUnit }
  | .clearResetUnit => some { m.resetUnit ok with restarting := some .runMachine }
  | .runMachine =>
    let (m, started) := m.runMachine ok outcome
    some { m with restarting := some (if started then .waitForContainer else .failedStopMachine) }
  | .waitForContainer =>
    if ok then
      if m.unit = some .running then some { m with restarting := some .markRunning } else none
    else some { m with restarting := some .failedStopMachine }
  | .markRunning =>
    if polling then none
    else some { m with seenRunning := true, restarting := some .makeSharedMounts }
  | .makeSharedMounts =>
    some { m with restarting := some (if ok then .postStart else .unsharedStopMachine) }
  | .postStart => some { m with restarting := some .finish }
  | .failedStopMachine => some { m.stopMachine outcome with restarting := some .failedResetUnit }
  | .failedResetUnit => some { m.resetUnit ok with restarting := some .finish }
  | .unsharedStopMachine => some { m.stopMachine outcome with restarting := some .finish }
  | .finish => some { m with restarting := none }

end Watched

structure Verdict where
  exited : Bool
  succeeded : Bool
  deriving DecidableEq

variable (policy : RestartPolicy)

def effectivePolicy : RestartPolicy :=
  if policy = .unset then .always else policy

def checkState (deleting unhealthy : Bool) (state : MachineState)
    (m : Watched) : Watched × Verdict :=
  match state with
  | .running =>
    let m := { m with seenRunning := true }
    (if unhealthy then m.maybeRestart deleting else m, ⟨false, false⟩)
  | .creating => (m, ⟨false, false⟩)
  | .failed =>
    if policy = .always ∨ policy = .onFailure then (m.maybeRestart deleting, ⟨false, false⟩)
    else (m, ⟨true, false⟩)
  | .exited =>
    if policy = .always then (m.maybeRestart deleting, ⟨false, true⟩)
    else (m, ⟨true, true⟩)
  | _ => (m, ⟨true, true⟩)

/-- What `checkPod` does for one listed container; one never seen running is taken to have exited
only if it is listed so with exit code 0. -/
def checkContainer (deleting unhealthy : Bool) (entry : Option PodMetadata)
    (m : Watched) : Watched × Verdict :=
  let state := (entry.map PodMetadata.state).getD .exited
  let exitCode := (entry.map PodMetadata.exitCode).getD 0
  if m.restarting.isSome then (m, ⟨false, false⟩)
  else if m.seenRunning = false ∧ (state = .exited ∨ state = .unknown) then
    if entry.isSome = true ∧ state = .exited ∧ exitCode = 0 then
      checkState policy deleting unhealthy state { m with seenRunning := true }
    else (m, ⟨false, false⟩)
  else checkState policy deleting unhealthy state m

/-- A poll under way: its listing, the containers still to be checked, and the verdict so far. -/
structure Poll where
  units : String → Option UnitState
  checks : Bool
  todo : List String
  allExited : Bool
  allSucceeded : Bool

def Poll.listManagedMachines (p : Poll) (name : String) : Option PodMetadata :=
  (p.units name).map UnitState.listed

def eventState : SubState → Option MachineState
  | .running => some .running
  | .failed => some .failed
  | .startPre | .start | .startPost => some .creating
  | _ => none

structure Watch where
  phase : PodPhase
  deleting : Bool
  containers : String → Watched
  prevStateMap : String → Option MachineState
  /-- The cache that unit events write to is `prevStateMap`: a poll makes both the map of its
  listing, and they are two maps only until a poll has ended. -/
  shared : Bool
  poll : Option Poll

namespace Watch

def set (s : Watch) (name : String) (m : Watched) : Watch :=
  { s with containers := update s.containers name m }

variable (pod : Pod)

def needsReeval (s : Watch) : Bool :=
  pod.containerNames.any fun name =>
    match s.prevStateMap name, (s.containers name).unit with
    | some prev, some unit => prev ≠ unit.listed.state
    | _, _ => false

/-- A poll lists the machines.  The pod is skipped while it is pending or being deleted, and
once it has ended, unless a container is listed in another state than before. -/
def pollBegin (s : Watch) : Option Watch :=
  match s.poll with
  | some _ => none
  | none =>
    let checks :=
      s.phase ≠ .pending && !s.deleting && (!s.phase.terminal || s.needsReeval pod)
    some
      { s with
        poll := some
          { units := fun name => (s.containers name).unit
            checks := checks
            todo := if checks then pod.containerNames else []
            allExited := true
            allSucceeded := true } }

def probe (s : Watch) (name : String) : Option Watch :=
  match s.poll with
  | none => none
  | some p =>
    if p.todo = pod.containerNames ∧ s.phase ≠ .pending ∧ s.phase.terminal = false
        ∧ (p.listManagedMachines name).map PodMetadata.state = some .running then
      some (s.set name ((s.containers name).maybeRestart s.deleting))
    else none

def check (s : Watch) (unhealthy : Bool) : Option Watch :=
  match s.poll with
  | none => none
  | some p =>
    match p.todo with
    | [] => none
    | name :: todo =>
      let (m, verdict) :=
        checkContainer (effectivePolicy pod.spec.restartPolicy) s.deleting unhealthy
          (p.listManagedMachines name) (s.containers name)
      some
        { s.set name m with
          poll := some
            { p with
              todo := todo
              allExited := p.allExited && verdict.exited
              allSucceeded := p.allSucceeded && verdict.succeeded } }

def pollEnd (s : Watch) (reset : String → Bool) : Option Watch :=
  match s.poll with
  | none => none
  | some p =>
    match p.todo with
    | _ :: _ => none
    | [] =>
      let s :=
        { s with
          poll := none
          prevStateMap := fun name => (p.listManagedMachines name).map PodMetadata.state
          shared := true }
      if p.checks && !pod.containerNames.isEmpty && p.allExited then
        some
          { s with
            phase := if p.allSucceeded then .succeeded else .failed
            containers := fun name =>
              if name ∈ pod.containerNames then (s.containers name).resetUnit (reset name)
              else s.containers name }
      else some s

variable (s : Watch)

def handleUnitEvent (name : String) (subState : SubState) : Option Watch :=
  match s.poll with
  | some _ => none
  | none =>
    match eventState subState with
    | none => some s
    | some state =>
      let m := s.containers name
      let s :=
        s.set name { m with seenRunning := if state = .running then true else m.seenRunning }
      some
        { s with
          prevStateMap :=
            if s.shared then update s.prevStateMap name (some state)
            else s.prevStateMap }

def restart (name : String) (ok : Bool) (outcome : StopOutcome) : Option Watch :=
  match (s.containers name).restarting with
  | none => none
  | some step =>
    ((s.containers name).restartContainer s.poll.isSome ok outcome step).map (s.set name)

def start (name : String) : Option Watch :=
  if (s.containers name).unit = some .creating then
    some (s.set name { s.containers name with unit := some .running })
  else none

def exit (name : String) (exitCode : Int32) : Option Watch :=
  if (s.containers name).unit = some .creating ∨ (s.containers name).unit = some .running then
    some (s.set name ((s.containers name).exit exitCode))
  else none

def collect (name : String) : Option Watch :=
  if (s.containers name).unit = some .exited then
    some (s.set name { s.containers name with unit := none })
  else none

end Watch

inductive WatchAction where
  | pollBegin
  | probe (name : String)
  | check (unhealthy : Bool)
  | pollEnd (reset : String → Bool)
  | handleUnitEvent (name : String) (subState : SubState)
  | restart (name : String) (ok : Bool) (outcome : StopOutcome)
  | start (name : String)
  | exit (name : String) (exitCode : Int32)
  | collect (name : String)

def batchWatcher (pod : Pod) : System Watch WatchAction where
  step s a :=
    match a with
    | .pollBegin => s.pollBegin pod
    | .probe name => s.probe pod name
    | .check unhealthy => s.check pod unhealthy
    | .pollEnd reset => s.pollEnd pod reset
    | .handleUnitEvent name subState => s.handleUnitEvent name subState
    | .restart name ok outcome => s.restart name ok outcome
    | .start name => s.start name
    | .exit name exitCode => s.exit name exitCode
    | .collect name => s.collect name

variable {pod : Pod} {s t : Watch} {name : String}

theorem pollBegin_eq_some (h : s.pollBegin pod = some t) :
  s.poll = none
    ∧ ∃ checks : Bool,
        checks
          = (s.phase ≠ .pending && !s.deleting && (!s.phase.terminal || s.needsReeval pod))
        ∧ t =
          { s with
            poll := some
              { units := fun name => (s.containers name).unit
                checks := checks
                todo := if checks then pod.containerNames else []
                allExited := true
                allSucceeded := true } }
  := by
  unfold Watch.pollBegin at h
  split at h
  · cases h
  next hp =>
    exact ⟨hp, _, rfl, (some.inj h).symm⟩

theorem probe_eq_some (h : s.probe pod name = some t) :
  ∃ p, s.poll = some p ∧ p.todo = pod.containerNames ∧ s.phase.terminal = false
    ∧ t = s.set name ((s.containers name).maybeRestart s.deleting)
  := by
  unfold Watch.probe at h
  split at h
  · cases h
  next p hp =>
    split_ifs at h with hpr
    use p, hp, hpr.1, hpr.2.2.1
    exact (some.inj h).symm

theorem check_eq_some (h : s.check pod unhealthy = some t) :
  ∃ p name todo m verdict, s.poll = some p ∧ p.todo = name :: todo
    ∧ checkContainer (effectivePolicy pod.spec.restartPolicy) s.deleting unhealthy
        (p.listManagedMachines name) (s.containers name) = (m, verdict)
    ∧ t = { s.set name m with
        poll := some
          { p with
            todo := todo
            allExited := p.allExited && verdict.exited
            allSucceeded := p.allSucceeded && verdict.succeeded } }
  := by
  unfold Watch.check at h
  split at h
  · cases h
  next p hp =>
    split at h
    · cases h
    next name todo ht =>
      generalize hc : checkContainer (effectivePolicy pod.spec.restartPolicy) s.deleting
        unhealthy (p.listManagedMachines name) (s.containers name) = result at h
      use p, name, todo, result.1, result.2, hp, ht, hc
      exact (some.inj h).symm

theorem pollEnd_eq_some {reset : String → Bool} (h : s.pollEnd pod reset = some t) :
  ∃ p, s.poll = some p ∧ p.todo = []
    ∧ (p.checks ∧ p.allExited
        ∧ t =
          { s with
            poll := none
            prevStateMap := fun name => (p.listManagedMachines name).map PodMetadata.state
            shared := true
            phase := if p.allSucceeded then .succeeded else .failed
            containers := fun name =>
              if name ∈ pod.containerNames then (s.containers name).resetUnit (reset name)
              else s.containers name }
      ∨ t =
          { s with
            poll := none
            prevStateMap := fun name => (p.listManagedMachines name).map PodMetadata.state
            shared := true })
  := by
  unfold Watch.pollEnd at h
  split at h
  · cases h
  next p hp =>
    use p, hp
    split at h
    · cases h
    next ht =>
      use ht
      split at h
      next hen =>
        simp only [Bool.and_eq_true] at hen
        left
        use hen.1.1, hen.2
        exact (some.inj h).symm
      · right
        exact (some.inj h).symm

theorem handleUnitEvent_eq_some {subState : SubState}
    (h : s.handleUnitEvent name subState = some t) :
  s.poll = none
    ∧ (t = s
      ∨ ∃ state seen, eventState subState = some state
        ∧ t = { s.set name { s.containers name with seenRunning := seen } with
            prevStateMap :=
              if s.shared then update s.prevStateMap name (some state)
              else s.prevStateMap })
  := by
  unfold Watch.handleUnitEvent at h
  split at h
  · cases h
  next hp =>
    use hp
    split at h
    · left
      exact (some.inj h).symm
    next state hs =>
      right
      exact ⟨state, _, hs, (some.inj h).symm⟩

theorem restart_eq_some {ok : Bool} {outcome : StopOutcome}
    (h : s.restart name ok outcome = some t) :
  ∃ step m, (s.containers name).restarting = some step
    ∧ (s.containers name).restartContainer s.poll.isSome ok outcome step = some m
    ∧ t = s.set name m
  := by
  unfold Watch.restart at h
  split at h
  · cases h
  next step hr =>
    obtain ⟨m, hm, rfl⟩ := map_eq_some_iff.1 h
    use step, m

theorem start_eq_some (h : s.start name = some t) :
  (s.containers name).unit = some .creating
    ∧ t = s.set name { s.containers name with unit := some .running }
  := by
  unfold Watch.start at h
  split_ifs at h with hu
  use hu
  exact (some.inj h).symm

theorem exit_eq_some {exitCode : Int32} (h : s.exit name exitCode = some t) :
  ((s.containers name).unit = some .creating ∨ (s.containers name).unit = some .running)
    ∧ t = s.set name
        { s.containers name with
          unit := some (.ended exitCode)
          lastExit := some exitCode }
  := by
  unfold Watch.exit at h
  split_ifs at h with ha
  use ha
  cases h
  unfold Watched.exit
  rcases ha with hu | hu
  all_goals rw [hu]

theorem collect_eq_some (h : s.collect name = some t) :
  (s.containers name).unit = some .exited
    ∧ t = s.set name { s.containers name with unit := none }
  := by
  unfold Watch.collect at h
  split_ifs at h with hu
  use hu
  exact (some.inj h).symm

theorem resetUnit_frame (m : Watched) (ok : Bool) :
  (m.resetUnit ok).restarting = m.restarting ∧ (m.resetUnit ok).lastExit = m.lastExit
  := by
  unfold Watched.resetUnit
  split
  all_goals exact ⟨rfl, rfl⟩

theorem containers_set :
  (s.set name m).containers name' = if name' = name then m else s.containers name'
  := update_apply ..

theorem forall_set (P : String → Watched → Prop) (hm : P name m)
    (h : ∀ name', P name' (s.containers name')) (name' : String) :
  P name' ((s.set name m).containers name')
  := by
  rw [containers_set]
  split
  next heq =>
    rwa [heq]
  · apply h

end Periapsis.Node
