import Periapsis.Node.Teardown

/-!
# Work that was finished

A container of a pod that is not always restarted has done its work when a run of it has ended with
exit code 0.
-/

namespace Periapsis.Node

open Corev1 Perigeos Transition

/-- How a read of the status of a unit goes. -/
inductive StatusRead where
  | exact
  | error
  | queued
  | unread
  deriving DecidableEq

def machineStatus : StatusRead → Option UnitState → MachineState
  | .error, _ => .unknown
  | .queued, some .creating => .exited
  | .unread, some (.failed _) => .exited
  | _, some unit => unit.listed.state
  | _, none => .exited

def waitForContainer (isInit seenActive : Bool) (state : MachineState) : Bool × Option Bool :=
  let seenActive := seenActive || state = .creating || state = .running
  (seenActive,
    match state with
    | .running => some true
    | .exited => if isInit then some true else if seenActive then some false else none
    | .failed => some false
    | _ => none)

/-- What is decided while waiting for a container is what a restart attempt goes on with. -/
theorem restartContainer_of_waitForContainer {m : Watched} {read : StatusRead}
    (h : (waitForContainer false seenActive (machineStatus read m.unit)).2 = some ok) :
  m.restartContainer polling ok outcome .waitForContainer
    = some { m with restarting := some (if ok then .markRunning else .failedStopMachine) }
  := by
  cases ok with
  | false => rfl
  | true =>
    have hun : m.unit = some .running := by
      revert h
      rcases m.unit with _ | _ | _ | _ | _
      all_goals
        cases read with
        | _ => simp [waitForContainer, machineStatus, UnitState.listed]
    simp [Watched.restartContainer, hun]

inductive Waiter where
  | creation (handle : CreationHandle)
  | restart (name : String)
  deriving DecidableEq

def Waiter.next (ok : Bool) : Waiter → LifecycleStep
  | .creation handle => .create handle ok false .error
  | .restart name => .watch (.restart name ok .error)

def LifecycleStep.waiter : LifecycleStep → Option Waiter
  | .create handle _ _ _ => some (.creation handle)
  | .watch (.restart name _ _) => some (.restart name)
  | _ => none

namespace Lifecycle

def awaited (s : Lifecycle) : Waiter → Option String
  | .creation handle =>
    match (s.creations handle).map Creating.step with
    | some (.launchContainer l _ .waitForContainer) => if l.isInit then none else some l.name
    | _ => none
  | .restart name =>
    if (s.watch.containers name).restarting = some .waitForContainer then some name else none

def looked (s : Lifecycle) : Waiter → Option Launch
  | .creation handle =>
    match (s.creations handle).map Creating.step with
    | some (.next (l :: _)) => some l
    | _ => none
  | .restart _ => none

def skips (pod : ApiPod) (s : Lifecycle) (l : Launch) (cached : MachineState) : Bool :=
  if l.name ∈ pod.initContainers.map Container.name then
    if l.isInit then cached = .exited else cached = .running
  else
    s.watch.phase = .running && (cached = .running || cached = .exited || cached = .failed)

end Lifecycle

structure Job where
  life : Lifecycle
  seenActive : Waiter → Bool
  finished : String → Bool

inductive JobAction where
  | step (b : LifecycleStep)
  | look (handle : CreationHandle) (cached : MachineState)
  | poll (waiter : Waiter) (read : StatusRead)
  | giveUp (waiter : Waiter)

namespace Job

def decides (pod : ApiPod) (s : Job) : JobAction → Option (Option LifecycleStep)
  | .step b =>
    if b.waiter.any fun w => (s.life.awaited w).isSome || (s.life.looked w).isSome then none
    else some (some b)
  | .look handle cached =>
    (s.life.looked (.creation handle)).map fun l =>
      some (.create handle true (s.life.skips pod l cached) .error)
  | .poll w read =>
    (s.life.awaited w).map fun name =>
      let state := machineStatus read (s.life.watch.containers name).unit
      (waitForContainer false (s.seenActive w) state).2.map w.next
  | .giveUp w => (s.life.awaited w).map fun _ => some (w.next false)

def sees (s : Job) : JobAction → Waiter → Bool
  | .step b => fun w => if b.waiter = some w then false else s.seenActive w
  | .poll w read =>
    match s.life.awaited w with
    | none => s.seenActive
    | some name =>
      let state := machineStatus read (s.life.watch.containers name).unit
      Function.update s.seenActive w (waitForContainer false (s.seenActive w) state).1
  | _ => s.seenActive

end Job

def jobs (pod : ApiPod) (sidecar : String → Bool) : System Job JobAction where
  step s a :=
    (s.decides pod a).bind fun
      | none => some { s with seenActive := s.sees a }
      | some b =>
        ((lifecycle pod sidecar).step s.life b).map fun life =>
          { life := life
            seenActive := s.sees a
            finished := fun name =>
              s.finished name || (life.watch.containers name).lastExit = some 0 }

/-- The step of a restart stops or launches the unit. -/
def RestartStep.stops : RestartStep → Bool
  | .stopMachine | .clearStopMachine | .runMachine | .failedStopMachine
  | .unsharedStopMachine => true
  | _ => false

def StopOutcome.exitCode : StopOutcome → Option Int32
  | .error => none
  | .stopped exitCode _ => some exitCode

def Watched.active (m : Watched) : Bool :=
  m.unit = some .creating || m.unit = some .running

def CreateStep.ahead (name : String) : CreateStep → Bool
  | .acquire | .network | .initRestartState | .populateEnvironmentVariables | .backoff => true
  | .next todo => todo.any fun l => l.name = name
  | .launchContainer l todo step =>
    (l.name = name && !step.launched) || todo.any fun l => l.name = name
  | .failed | .promoteRunning | .finish => false

def Watched.Awaits (m : Watched) : Prop :=
  ∃ step, m.restarting = some step ∧ step.launched = false

namespace Lifecycle

def Ahead (s : Lifecycle) (name : String) : Prop :=
  (∃ handle c, s.creations handle = some c ∧ c.step.ahead name = true)
    ∨ (s.watch.containers name).Awaits

def runs (s : Lifecycle) : LifecycleStep → Option String
  | .create handle _ _ _ =>
    match (s.creations handle).map Creating.step with
    | some (.launchContainer l _ .runMachine) => some l.name
    | _ => none
  | .watch (.restart name _ _) =>
    if (s.watch.containers name).restarting = some .runMachine then some name else none
  | _ => none

def retries (pod : ApiPod) (s : Lifecycle) : LifecycleStep → Bool
  | .createPod => !s.registered
  | .create handle _ _ _ =>
    (s.creations handle).map Creating.step = some .failed && pod.spec.restartPolicy ≠ .never
  | _ => false

/-- The container that the watcher restarts with the step: a probe of it fails while it is listed as
running, or it is listed as failed and restarted on failure. -/
def calledFor (pod : ApiPod) (s : Lifecycle) : LifecycleStep → Option String
  | .watch (.probe name) => some name
  | .watch (.check unhealthy) =>
    match s.watch.poll with
    | none => none
    | some p =>
      match p.todo with
      | [] => none
      | name :: _ =>
        match (p.listManagedMachines name).map PodMetadata.state with
        | some .running => if unhealthy then some name else none
        | some .failed => if pod.spec.restartPolicy = .never then none else some name
        | _ => none
  | _ => none

def ends (s : Lifecycle) : LifecycleStep → Option (String × Int32)
  | .create handle _ _ outcome =>
    match (s.creations handle).map Creating.step with
    | some (.launchContainer l _ step) =>
      if step.stops then outcome.exitCode.map fun exitCode => (l.name, exitCode) else none
    | _ => none
  | .delete id _ outcome =>
    match s.deletions id with
    | some (.stopMachine (name :: _)) =>
      outcome.exitCode.map fun exitCode => (name, exitCode)
    | _ => none
  | .watch (.restart name _ outcome) =>
    if (s.watch.containers name).restarting.any RestartStep.stops then
      outcome.exitCode.map fun exitCode => (name, exitCode)
    else none
  | .watch (.exit name exitCode) => some (name, exitCode)
  | _ => none

def Finishes (s : Lifecycle) (b : LifecycleStep) (name : String) : Prop :=
  s.ends b = some (name, 0) ∧ (s.watch.containers name).active = true

end Lifecycle

/-- The step does none of the three things: create a pod again after a container has finished,
restart one that has finished, or let one finish while a launch is ahead. -/
structure Job.Spares (pod : ApiPod) (s : Job) (b : LifecycleStep) : Prop where
  retries : s.life.retries pod b = true → ∀ name ∈ pod.containerNames, s.finished name = false
  calledFor : ∀ name ∈ pod.containerNames,
    s.life.calledFor pod b = some name → s.finished name = false
  finishes : ∀ name ∈ pod.containerNames, s.life.Finishes b name → ¬ s.life.Ahead name

def SparesFinished (pod : ApiPod) (s : Job) (a : JobAction) : Prop :=
  ∀ b, s.decides pod a = some (some b) → s.Spares pod b

end Periapsis.Node
