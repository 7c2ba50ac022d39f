import Periapsis.Foci.State
import Periapsis.Node.BatchWatcher
import Periapsis.Node.PodStore
import Periapsis.Transition.Threads

/-!
# The watcher with its probes

A poll lists the machines and takes a snapshot of the pods.
-/

namespace Periapsis.Node

open Corev1 Periapsis.Types Perigeos Transition Function

def probeOf (c : Container) : ProbeType → Option Probe
  | .startup => c.startupProbe
  | .liveness => c.livenessProbe
  | .readiness => c.readinessProbe
  | .other _ => none

namespace PodStore

def isContainerReady (s : PodStore) (uid containerName : String) : Bool :=
  ((s.probeState uid containerName).map ContainerProbeState.ready).getD true

def due (s : PodStore) (uid : String) (c : Container) (probeType : ProbeType)
    (r : DueReadings) : PodStore × Option Probe :=
  match probeOf c probeType, s.probeState uid c.name with
  | some probe, some state =>
    let (state, due) := isDue state probeType probe.periodSeconds probe.initialDelaySeconds r
    (s.updateProbeState uid c.name fun _ => state, if due then some probe else none)
  | _, _ => (s, none)

def evalProbe (s : PodStore) (uid containerName : String)
    (f : ContainerProbeState → ContainerProbeState × Bool) : PodStore × Bool :=
  (s.updateProbeState uid containerName fun state => (f state).1,
    ((s.probeState uid containerName).map fun state => (f state).2).getD false)

end PodStore

/-- The key under which a container is marked as restarting. -/
def containerKey (uid containerName : String) : String :=
  uid ++ "/" ++ containerName

/-- A container of a pod that is looked at. -/
structure Target where
  uid : String
  pod : ApiPod
  container : Container
  deriving DecidableEq

def Target.key (t : Target) : String :=
  containerKey t.uid t.container.name

def PodStore.anyDue (s : PodStore) (t : Target)
    (due : ProbeType → DueReadings) : PodStore × Bool :=
  match s.due t.uid t.container .startup (due .startup) with
  | (s, some _) => (s, true)
  | (s, none) =>
    match s.due t.uid t.container .liveness (due .liveness) with
    | (s, some _) => (s, true)
    | (s, none) =>
      let (s, readiness) := s.due t.uid t.container .readiness (due .readiness)
      (s, readiness.isSome)

/-- What a goroutine of a poll does next. -/
inductive CallPoint where
  | runProbes
  | startup (probe : Probe)
  | liveness (probe : Probe)
  | readiness (probe : Probe)
  | resetProbeState
  | maybeRestart
  | acquire
  | bumpBackoff
  | release
  | launch (count : Int32) (backoff : Duration)
  deriving DecidableEq

structure WatcherCall extends Target where
  point : CallPoint
  deriving DecidableEq

def WatcherCall.next (c : WatcherCall) (point : CallPoint) : WatcherCall :=
  { c with point := point }

/-- A goroutine that restarts a container. -/
structure RestartRun where
  uid : String
  pod : ApiPod
  containerName : String
  count : Int32
  backoff : Duration
  ended : Bool := false
  deriving DecidableEq

def RestartRun.key (r : RestartRun) : String :=
  containerKey r.uid r.containerName

inductive Thread where
  | call (c : WatcherCall)
  | restart (r : RestartRun)
  deriving DecidableEq

def Thread.isCall : Thread → Bool
  | .call _ => true
  | .restart _ => false

/-- The mark that the thread has to give back. -/
def Thread.holds : Thread → Option String
  | .call c =>
    match c.point with
    | .bumpBackoff | .release | .launch _ _ => some c.key
    | _ => none
  | .restart r => some r.key

/-- A pod of the snapshot that a poll works on. -/
structure PodEntry where
  uid : String
  pod : ApiPod
  phase : PodPhase
  deriving DecidableEq

def PodEntry.targets (e : PodEntry) : List Target :=
  e.pod.spec.containers.map fun c => ⟨e.uid, e.pod, c⟩

structure BatchPoll where
  listing : String → Option PodMetadata
  entries : List PodEntry
  fanOut : List Target
  todo : List PodEntry
  checking : List Target

inductive RestartEvent where
  | launched (r : RestartRun)
  | backoffReset (uid containerName : String)
  deriving DecidableEq

/-- The watcher, with the restarted containers that were not probed since. -/
structure Watcher where
  store : PodStore
  restarting : String → Bool
  seenRunning : String → Bool
  poll : Option BatchPoll
  threads : List Thread
  unprobed : List RestartRun
  events : List RestartEvent

def newWatcher (store : PodStore) : Watcher where
  store := store
  restarting _ := false
  seenRunning _ := false
  poll := none
  threads := []
  unprobed := []
  events := []

structure CallReadings where
  due : ProbeType → DueReadings := fun _ => {}
  result : ProbeResult := .success
  now : Time := 0

namespace Watcher

variable (w : Watcher)

def probed (t : Target) : Watcher :=
  { w with
    unprobed := w.unprobed.filter fun r =>
      ¬ (r.uid = t.uid ∧ r.containerName = t.container.name) }

def readinessDue (c : WatcherCall) (r : CallReadings) : Watcher × List Thread :=
  let (store, due) := w.store.due c.uid c.container .readiness (r.due .readiness)
  ({ w with store := store }, (due.map fun probe => .call (c.next (.readiness probe))).toList)

def runProbes (c : WatcherCall) (r : CallReadings) : Watcher × List Thread :=
  match w.store.probeState c.uid c.container.name with
  | none => (w, [])
  | some ps =>
    if c.container.startupProbe.isSome = true ∧ ps.startupPassed = false then
      let (store, due) := w.store.due c.uid c.container .startup (r.due .startup)
      ({ w with store := store }, (due.map fun probe => .call (c.next (.startup probe))).toList)
    else
      match w.store.due c.uid c.container .liveness (r.due .liveness) with
      | (store, some probe) => ({ w with store := store }, [.call (c.next (.liveness probe))])
      | (store, none) => { w with store := store }.readinessDue c r

def evalProbe (c : WatcherCall)
    (f : ContainerProbeState → ContainerProbeState × Bool) : Watcher × Bool :=
  let (store, restart) := w.store.evalProbe c.uid c.container.name f
  ({ w.probed c.toTarget with store := store }, restart)

def startupResult (probe : Probe) (r : CallReadings) (state : ContainerProbeState) :
    ContainerProbeState × Bool :=
  evalStartup (markProbed state .startup r.now) probe r.result

def livenessResult (probe : Probe) (r : CallReadings) (state : ContainerProbeState) :
    ContainerProbeState × Bool :=
  evalLiveness (markProbed state .liveness r.now) probe r.result

def readinessResult (probe : Probe) (r : CallReadings) (state : ContainerProbeState) :
    ContainerProbeState × Bool :=
  (evalReadiness (markProbed state .readiness r.now) probe r.result, false)

def startupFails (c : WatcherCall) (r : CallReadings) : Bool :=
  match c.point with
  | .startup probe => (w.store.evalProbe c.uid c.container.name (startupResult probe r)).2
  | _ => false

def livenessFails (c : WatcherCall) (r : CallReadings) : Bool :=
  match c.point with
  | .liveness probe => (w.store.evalProbe c.uid c.container.name (livenessResult probe r)).2
  | _ => false

/-- The next step of a goroutine of a poll. -/
def callStep (c : WatcherCall) (r : CallReadings) : Watcher × List Thread :=
  match c.point with
  | .runProbes => w.runProbes c r
  | .startup probe =>
    let (w, restart) := w.evalProbe c (startupResult probe r)
    -- Unlike the liveness probe, the startup probe does not have its record begun anew.
    (w, if restart then [.call (c.next .maybeRestart)] else [])
  | .liveness probe =>
    let (w, restart) := w.evalProbe c (livenessResult probe r)
    if restart then (w, [.call (c.next .resetProbeState)]) else w.readinessDue c r
  | .readiness probe => ((w.evalProbe c (readinessResult probe r)).1, [])
  | .resetProbeState =>
    ({ w with store := w.store.resetProbeState c.uid c.container.name r.now },
      [.call (c.next .maybeRestart)])
  | .maybeRestart => (w, if w.store.isDeleting c.uid then [] else [.call (c.next .acquire)])
  | .acquire =>
    if w.restarting c.key then (w, [])
    else
      ({ w with restarting := update w.restarting c.key true },
        [.call (c.next .bumpBackoff)])
  | .bumpBackoff =>
    let (store, count, backoff) := w.store.bumpBackoff c.uid c.container.name
    ({ w with store := store },
      [.call (c.next (if count = 0 then .release else .launch count backoff))])
  | .release => ({ w with restarting := update w.restarting c.key false }, [])
  | .launch count backoff =>
    let run : RestartRun :=
      { uid := c.uid
        pod := c.pod
        containerName := c.container.name
        count := count
        backoff := backoff }
    ({ w with events := w.events ++ [.launched run] }, [.restart run])

def restartStep (r : RestartRun) (ok : Bool) (now : Time) :
    Watcher × List Thread :=
  if r.ended then ({ w with restarting := update w.restarting r.key false }, [])
  else if ok then
    ({ w with
        store := w.store.markRestarted r.uid r.containerName now
        unprobed := w.unprobed ++ [r] },
      [.restart { r with ended := true }])
  else (w, [.restart { r with ended := true }])

/-- No goroutine of a poll is under way. -/
def idle : Bool :=
  w.threads.all fun t => !t.isCall

def spawn (t : Target) (point : CallPoint) : Watcher :=
  { w with threads := w.threads ++ [.call { t with point := point }] }

/-- List the machines and take a snapshot. -/
def pollBegin (listing : String → Option PodMetadata) (entries : List PodEntry) :
    Option Watcher :=
  match w.poll with
  | some _ => none
  | none =>
    let running (t : Target) : Bool :=
      (listing t.key).map PodMetadata.state = some .running
    some
      { w with
        poll := some
          { listing := listing
            entries := entries
            fanOut := entries.flatMap fun e =>
              if e.phase = .pending ∨ e.phase.terminal = true then []
              else e.targets.filter running
            todo := entries
            checking := [] } }

variable {w}

/-- Ask whether a probe of the next container is due. -/
def fanOut (w : Watcher) (due : ProbeType → DueReadings) : Option Watcher :=
  match w.poll with
  | none => none
  | some p =>
    match p.fanOut with
    | [] => none
    | t :: fanOut =>
      -- Whether the container is being restarted is not asked here.
      let (store, anyDue) := w.store.anyDue t due
      let w := { w with store := store, poll := some { p with fanOut := fanOut } }
      some (if anyDue then w.spawn t .runProbes else w)

variable (w)

/-- Go on to the next pod. -/
def nextPod (needsReeval : Bool) : Option Watcher :=
  match w.poll with
  | none => none
  | some p =>
    match p.fanOut, p.checking, p.todo with
    | [], [], e :: todo =>
      if w.idle then
        let skipped :=
          e.phase = .pending ∨ w.store.isDeleting e.uid = true
            ∨ e.phase.terminal = true ∧ needsReeval = false
        some
          { w with
            poll := some
              { p with todo := todo, checking := if skipped then [] else e.targets } }
      else none
    | _, _, _ => none

def waiting : ContainerState :=
  { waiting := some { reason := "" } }

def checkState (t : Target) (state : MachineState) (now : Time) : Watcher :=
  let policy := effectivePolicy t.pod.spec.restartPolicy
  match state with
  | .running =>
    let w := { w with seenRunning := update w.seenRunning t.key true }
    let stable :=
      match w.store.restartState t.uid t.container.name with
      | none => false
      | some rs => decide (Foci.restartBackoffReset < timeSub now rs.lastStarted)
    let w :=
      if stable then
        { w with
          store := w.store.resetBackoff t.uid t.container.name
          events := w.events ++ [.backoffReset t.uid t.container.name] }
      else w
    w.spawn t .runProbes
  | .failed =>
    let w :=
      { w with store := w.store.setContainerState t.uid t.container.name waiting false now }
    if policy = .always ∨ policy = .onFailure then w.spawn t .maybeRestart else w
  | .exited =>
    let w :=
      { w with store := w.store.setContainerState t.uid t.container.name waiting false now }
    if policy = .always then w.spawn t .maybeRestart else w
  | _ => w

/-- What `checkPod` does for a container, given how it is listed. -/
def checkContainer (t : Target) (entry : Option PodMetadata) (now : Time) :
    Watcher :=
  let state := (entry.map PodMetadata.state).getD .exited
  let exitCode := (entry.map PodMetadata.exitCode).getD 0
  if w.restarting t.key then w
  else if w.seenRunning t.key = false ∧ (state = .exited ∨ state = .unknown) then
    if entry.isSome = true ∧ state = .exited ∧ exitCode = 0 then
      { w with seenRunning := update w.seenRunning t.key true }.checkState t state now
    else w
  else w.checkState t state now

def check (now : Time) : Option Watcher :=
  match w.poll with
  | none => none
  | some p =>
    match p.fanOut, p.checking with
    | [], t :: checking =>
      if w.idle then
        some
          ({ w with poll := some { p with checking := checking } }.checkContainer t
            (p.listing t.key) now)
      else none
    | _, _ => none

def pollEnd : Option Watcher :=
  match w.poll with
  | none => none
  | some p =>
    match p.fanOut, p.checking, p.todo with
    | [], [], [] =>
      if w.idle then
        let activeKeys := (p.entries.flatMap PodEntry.targets).map Target.key
        some
          { w with
            poll := none
            seenRunning := fun key => w.seenRunning key && decide (key ∈ activeKeys) }
      else none
    | _, _, _ => none

def markRunning (uid containerName : String) : Option Watcher :=
  match w.poll with
  | some _ => none
  | none =>
    some
      { w with
        seenRunning := update w.seenRunning (containerKey uid containerName) true }

/-- The watcher has started calls where the watcher of one pod restarts the container at once. -/
def Restarts (w w' : Watcher) (t : Target) (deleting : Bool) (m : Watched) : Prop :=
  ∃ m' calls, m'.seenRunning = w'.seenRunning t.key ∧ w'.threads = w.threads ++ calls
    ∧ m = if .call { t with point := .maybeRestart } ∈ calls then m'.maybeRestart deleting else m'

variable {w} {t : Target} {m : Watched} {now : Time}

theorem restarts_checkState (hs : m.seenRunning = w.seenRunning t.key) (deleting : Bool)
    (state : MachineState) :
  w.Restarts (w.checkState t state now) t deleting
    (Node.checkState (effectivePolicy t.pod.spec.restartPolicy) deleting false state m).1
  := by
  unfold checkState Node.checkState
  cases state with
  | running =>
    refine ⟨{ m with seenRunning := true }, [.call { t with point := .runProbes }], ?_⟩
    dsimp only
    split_ifs
    all_goals simp_all [spawn]
  | failed | exited =>
    dsimp only
    split_ifs
    · exact ⟨m, [.call { t with point := .maybeRestart }], hs, rfl, by simp⟩
    · exact ⟨m, [], hs, by simp⟩
  | _ => exact ⟨m, [], hs, by simp⟩

/-- A check of a container is that of the watcher of one pod, with calls in place of restarts. -/
theorem restarts_checkContainer (hs : m.seenRunning = w.seenRunning t.key)
    (hr : m.restarting.isSome = w.restarting t.key) (deleting : Bool)
    (entry : Option PodMetadata) :
  w.Restarts (w.checkContainer t entry now) t deleting
    (Node.checkContainer (effectivePolicy t.pod.spec.restartPolicy) deleting false entry m).1
  := by
  unfold checkContainer Node.checkContainer
  dsimp only
  rw [hr, hs]
  split_ifs
  · exact ⟨m, [], hs, by simp⟩
  · exact restarts_checkState (by simp) ..
  · exact ⟨m, [], hs, by simp⟩
  · exact restarts_checkState hs ..

end Watcher

/-- The operation is one that others than the watcher call. -/
def StoreOp.byOthers : StoreOp → Bool
  | .bumpBackoff .. => false
  | .resetBackoff .. => false
  | .updateProbeState .. => false
  | .resetProbeState .. => false
  | .incrementRestart .. => false
  | _ => true

inductive WatcherAction where
  | pollBegin (listing : String → Option PodMetadata) (entries : List PodEntry)
  | fanOut (due : ProbeType → DueReadings)
  | nextPod (needsReeval : Bool)
  | check (now : Time)
  | pollEnd
  | call (i : Nat) (r : CallReadings)
  | restart (i : Nat) (ok : Bool) (now : Time)
  | markRunning (uid containerName : String)
  | store (op : StoreOp)

namespace Watcher

def replace (i : Nat) (r : Watcher × List Thread) : Watcher :=
  { r.1 with threads := splice r.1.threads i r.2 }

/-- A step of the poll, of a goroutine, or of others. -/
def step (w : Watcher) : WatcherAction → Option Watcher
  | .pollBegin listing entries => w.pollBegin listing entries
  | .fanOut due => w.fanOut due
  | .nextPod needsReeval => w.nextPod needsReeval
  | .check now => w.check now
  | .pollEnd => w.pollEnd
  | .call i r =>
    match w.threads[i]? with
    | some (.call c) => some (replace i (w.callStep c r))
    | _ => none
  | .restart i ok now =>
    match w.threads[i]? with
    | some (.restart run) => some (replace i (w.restartStep run ok now))
    | _ => none
  | .markRunning uid containerName => w.markRunning uid containerName
  | .store op => if op.byOthers then some { w with store := w.store.apply op } else none

end Watcher

def watcher : System Watcher WatcherAction where
  step := Watcher.step

def livenessPod (policy : RestartPolicy) : ApiPod where
  spec :=
    { restartPolicy := policy
      containers := [{ name := "c", livenessProbe := some { failureThreshold := 1 } }] }
  uid := "u"
  podNamespace := "default"
  name := "web"

def runningStore (pod : ApiPod) : PodStore :=
  (newPodStore.registerHydrated pod.uid pod "10.0.0.2").initRestartState pod (fun _ => 1)
    (fun _ => 1)

def pollOf (pod : ApiPod) (state : MachineState) (exitCode : Int32) : WatcherAction :=
  .pollBegin (fun _ => some ⟨state, exitCode⟩) [⟨pod.uid, pod, .running⟩]

def failingCall (n : Nat) : List WatcherAction :=
  List.replicate n (.call 0 { due := fun _ => { sinceLast := 10 }, result := .failure })

def crashRun (pod : ApiPod) : List WatcherAction :=
  [pollOf pod .failed 1, .nextPod false, .check 0] ++ failingCall 4

end Periapsis.Node
