import Periapsis.Node.PodStore
import Periapsis.Node.BatchWatcher

/-!
# The lifecycle of a pod

What is done for one pod, from its creation to its deletion.
-/

namespace Periapsis.Node

open Corev1 Transition Function

/-- The launch of an init container or a container. -/
structure Launch where
  name : String
  isInit : Bool
  deriving DecidableEq

def launches (pod : ApiPod) (sidecar : String → Bool) : List Launch :=
  pod.initContainers.map (fun c => ⟨c.name, !sidecar c.name⟩)
    ++ pod.spec.containers.map fun c => ⟨c.name, false⟩

inductive LaunchResult where
  | step (next : RestartStep)
  | done
  | error
  deriving DecidableEq

/-- The next step of a launch, which is a restart attempt without its first steps. -/
def Watched.launchContainer (m : Watched) (isInit polling ok : Bool) (outcome : StopOutcome)
    (step : RestartStep) : Option (Watched × LaunchResult) :=
  match isInit, step with
  | true, .waitForContainer =>
    if ok then
      match m.unit with
      | some .creating => none
      | some .running => none
      | some (.failed _) => some (m, .error)
      | _ => some (m, .done)
    else some (m, .step .failedStopMachine)
  | _, .postStart => some (m, if ok then .done else .error)
  | _, step =>
    (m.restartContainer polling ok outcome step).map fun launched =>
      ({ launched with restarting := m.restarting },
        match launched.restarting with
        | some .finish => .error
        | some next => .step next
        | none => .error)

inductive CreateStep where
  | acquire
  | network
  | initRestartState
  | populateEnvironmentVariables
  | next (todo : List Launch)
  | launchContainer (container : Launch) (todo : List Launch) (step : RestartStep)
  | failed
  | backoff
  | promoteRunning
  | finish
  deriving DecidableEq

structure Creating where
  step : CreateStep
  cancelled : Bool
  deriving DecidableEq

inductive DeleteStep where
  | markDeleting
  | cancelInFlight
  | wait (handle : CreationHandle)
  | stopMachine (todo : List String)
  | resetUnit (name : String) (todo : List String)
  | unregister
  deriving DecidableEq

def allContainers (pod : ApiPod) : List String :=
  pod.spec.containers.map Container.name ++ pod.initContainers.map Container.name

structure Lifecycle where
  watch : Watch
  registered : Bool
  stub : Bool
  inFlight : Option CreationHandle
  creations : CreationHandle → Option Creating
  deletions : Nat → Option DeleteStep
  handles : Nat
  returned : Bool

namespace Lifecycle

def setRestarts (s : Lifecycle) (restarts : String → Option Int32) : Lifecycle :=
  { s with
    watch :=
      { s.watch with
        containers := fun name =>
          { s.watch.containers name with restartCount := restarts name } } }

def initRestartState (pod : ApiPod) (s : Lifecycle) : Lifecycle :=
  if s.registered then
    s.setRestarts fun name => if name ∈ pod.containerNames then some 0 else none
  else s

variable (s : Lifecycle)

def registerPending (handle : CreationHandle) : Lifecycle :=
  let s := s.setRestarts fun _ => none
  { s with
    watch := { s.watch with phase := .pending, deleting := false }
    registered := true
    stub := false
    inFlight := some handle }

def promoteRunning : Lifecycle :=
  if s.registered then { s with watch := { s.watch with phase := .running }, inFlight := none }
  else s

def markFailed : Lifecycle :=
  if s.registered then { s with watch := { s.watch with phase := .failed } } else s

def markDeleting : Lifecycle :=
  if s.registered then { s with watch := { s.watch with deleting := true } } else s

def unregister : Lifecycle :=
  let s := s.setRestarts fun _ => none
  { s with
    watch := { s.watch with phase := .unset, deleting := false }
    registered := false
    stub := false
    inFlight := none }

def goto (handle : CreationHandle) (c : Creating) (step : CreateStep) :
    Lifecycle :=
  { s with creations := update s.creations handle (some { c with step := step }) }

variable {s}

def createPod (pod : ApiPod) (s : Lifecycle) : Lifecycle :=
  if pod.spec.containers = [] then s
  else if s.registered = true ∧ s.inFlight.isSome = true then s
  else if s.registered then
    if s.stub then { s.initRestartState pod with stub := false } else s
  else
    let registered := s.registerPending s.handles
    { registered with
      creations := update s.creations s.handles (some ⟨.acquire, false⟩)
      handles := s.handles + 1
      returned := false }

/-- The goroutine that creates the pod goes on. A step that can fail does so unless `ok`; `skip`
tells whether the container looked at needs no launch. -/
def create (pod : ApiPod) (sidecar : String → Bool) (s : Lifecycle) (handle : CreationHandle)
    (ok skip : Bool) (outcome : StopOutcome) : Option Lifecycle :=
  match s.creations handle with
  | none => none
  | some c =>
    match c.step with
    | .acquire =>
      if ok then some (s.goto handle c .network)
      else if c.cancelled then some (s.goto handle c .finish)
      else none
    | .network => some (s.goto handle c (if ok then .initRestartState else .failed))
    | .initRestartState =>
      some ((s.initRestartState pod).goto handle c .populateEnvironmentVariables)
    | .populateEnvironmentVariables =>
      some (s.goto handle c (if ok then .next (launches pod sidecar) else .failed))
    | .next [] => some (s.goto handle c .promoteRunning)
    | .next (l :: todo) =>
      some (s.goto handle c (if skip then .next todo else .launchContainer l todo .prepare))
    | .launchContainer l todo step =>
      ((s.watch.containers l.name).launchContainer l.isInit s.watch.poll.isSome ok outcome
          step).map fun (m, result) =>
        { s with watch := s.watch.set l.name m }.goto handle c
          (match result with
          | .step next => .launchContainer l todo next
          | .done => .next todo
          | .error => .failed)
    | .failed =>
      if pod.spec.restartPolicy = .never then some (s.markFailed.goto handle c .finish)
      else some (s.goto handle c .backoff)
    | .backoff =>
      if ok then some (s.goto handle c .network)
      else if c.cancelled then some (s.goto handle c .finish)
      else none
    | .promoteRunning => some (s.promoteRunning.goto handle c .finish)
    | .finish => some { s with creations := update s.creations handle none }

def proceed (s : Lifecycle) (id : Nat) (step : Option DeleteStep) : Lifecycle :=
  { s with deletions := update s.deletions id step }

def cancel (s : Lifecycle) (handle : CreationHandle) : Lifecycle :=
  { s with
    creations := update s.creations handle
      ((s.creations handle).map fun c => { c with cancelled := true }) }

def delete (pod : ApiPod) (s : Lifecycle) (id : Nat) (ok : Bool) (outcome : StopOutcome) :
    Option Lifecycle :=
  match s.deletions id with
  | none => none
  | some .markDeleting => some (s.markDeleting.proceed id (some .cancelInFlight))
  | some .cancelInFlight =>
    match s.inFlight with
    | some handle => some ((s.cancel handle).proceed id (some (.wait handle)))
    | none => some (s.proceed id (some (.stopMachine (allContainers pod))))
  | some (.wait handle) =>
    if (s.creations handle).isSome then none
    else some (s.proceed id (some (.stopMachine (allContainers pod))))
  | some (.stopMachine []) => some (s.proceed id (some .unregister))
  | some (.stopMachine (name :: todo)) =>
    some ({ s with
      watch := s.watch.set name ((s.watch.containers name).stopMachine outcome) }.proceed id
        (some (.resetUnit name todo)))
  | some (.resetUnit name todo) =>
    some ({ s with
      watch := s.watch.set name ((s.watch.containers name).resetUnit ok) }.proceed id
        (some (.stopMachine todo)))
  | some .unregister => some { s.unregister.proceed id none with returned := true }

/-- The watcher, a restart attempt or a unit takes a step; a poll sees and ends the pod only while
it is registered. -/
def watchStep (pod : ApiPod) (s : Lifecycle) (a : WatchAction) : Option Lifecycle :=
  ((batchWatcher pod.toPod).step s.watch a).map fun watch =>
    if s.registered then { s with watch := watch }
    else
      { s with
        watch :=
          { watch with
            phase := s.watch.phase
            poll :=
              if s.watch.poll.isSome then watch.poll
              else watch.poll.map fun p => { p with checks := false, todo := [] } } }

end Lifecycle

inductive LifecycleStep where
  | createPod
  | create (handle : CreationHandle) (ok skip : Bool) (outcome : StopOutcome)
  | deletePod (id : Nat)
  | delete (id : Nat) (ok : Bool) (outcome : StopOutcome)
  | watch (a : WatchAction)

def lifecycle (pod : ApiPod) (sidecar : String → Bool) : System Lifecycle LifecycleStep where
  step s a :=
    match a with
    | .createPod => some (s.createPod pod)
    | .create handle ok skip outcome => s.create pod sidecar handle ok skip outcome
    | .deletePod id =>
      if (s.deletions id).isSome then none else some (s.proceed id (some .markDeleting))
    | .delete id ok outcome => s.delete pod id ok outcome
    | .watch a => s.watchStep pod a

def Lifecycle.runsMachine (s : Lifecycle) : LifecycleStep → Bool
  | .create handle _ _ _ =>
    match (s.creations handle).map Creating.step with
    | some (.launchContainer _ _ .runMachine) => true
    | _ => false
  | .watch (.restart name _ _) => (s.watch.containers name).restarting = some .runMachine
  | _ => false

end Periapsis.Node
