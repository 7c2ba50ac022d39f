import Periapsis.Types.Corev1

/-!
# Facts and effects

A fact is something that has happened to one pod, and an effect is an instruction the reducer leaves
to its caller.
-/

namespace Periapsis

open Corev1

namespace Perigeos

inductive MachineState where
  | unset
  | unknown
  | running
  | exited
  | failed
  | creating
  deriving DecidableEq

end Perigeos

open Perigeos

namespace Types

inductive SubState where
  | running
  | failed
  | startPre
  | start
  | startPost
  | stopSigterm
  | stopWatchdog
  | stopSigkill
  | stopKill
  | dead
  | other (name : String)
  deriving DecidableEq

inductive ProbeType where
  | readiness
  | liveness
  | startup
  | other (name : String)
  deriving DecidableEq

structure UnitFact where
  uid : String
  unitName : String
  subState : SubState
  exitCode : Int32 := 0
  deriving DecidableEq

structure ContainerStateFact where
  uid : String
  container : String
  state : MachineState
  exitCode : Int32 := 0
  deriving DecidableEq

structure ExitFact where
  uid : String
  container : String
  exitCode : Int32
  reason : String := ""
  willRestart : Bool
  deriving DecidableEq

structure ProbeFact where
  uid : String
  container : String
  probeType : ProbeType
  ready : Bool := false
  startupPassed : Bool := false
  success : Bool := false
  successThreshold : Int32 := 0
  failureThreshold : Int32 := 0
  deriving DecidableEq

structure SpecFact where
  uid : String
  podNamespace : String
  podName : String
  pod : Option Pod
  deriving DecidableEq

structure PodAdmitFact where
  uid : String
  podNamespace : String
  name : String
  podIP : String
  pod : Option Pod
  deriving DecidableEq

structure PodEvictFact where
  uid : String
  deriving DecidableEq

structure MarkRunningFact where
  uid : String
  containerName : String
  deriving DecidableEq

structure BackoffResetFact where
  uid : String
  containerName : String
  deriving DecidableEq

inductive Fact where
  | unit (f : UnitFact)
  | containerState (f : ContainerStateFact)
  | exit (f : ExitFact)
  | probe (f : ProbeFact)
  | spec (f : SpecFact)
  | podAdmit (f : PodAdmitFact)
  | podEvict (f : PodEvictFact)
  | markRunning (f : MarkRunningFact)
  | backoffReset (f : BackoffResetFact)
  deriving DecidableEq

def Fact.uid : Fact → String
  | .unit f => f.uid
  | .containerState f => f.uid
  | .exit f => f.uid
  | .probe f => f.uid
  | .spec f => f.uid
  | .podAdmit f => f.uid
  | .podEvict f => f.uid
  | .markRunning f => f.uid
  | .backoffReset f => f.uid

/-! ### Effects -/

structure WaitingPayload where
  reason : String
  deriving DecidableEq

structure RunningPayload where
  startedAt : Time
  deriving DecidableEq

structure TerminatedPayload where
  exitCode : Int32
  reason : String
  startedAt : Time
  finishedAt : Time
  deriving DecidableEq

structure ContainerStatePayload where
  waiting : Option WaitingPayload := none
  running : Option RunningPayload := none
  terminated : Option TerminatedPayload := none
  deriving DecidableEq

structure ContainerStatusPayload where
  name : String
  image : String
  ready : Bool
  restartCount : Int32
  state : ContainerStatePayload
  deriving DecidableEq

structure PodStatusPayload where
  phase : PodPhase
  conditions : List PodCondition
  containerStatuses : List ContainerStatusPayload
  hostIP : String
  podIP : String
  deriving DecidableEq

structure UpdateStatus where
  uid : String
  podNamespace : String
  name : String
  status : PodStatusPayload
  deriving DecidableEq

structure RestartContainer where
  uid : String
  podNamespace : String
  podName : String
  containerName : String
  restartCount : Int32
  backoff : Duration
  deriving DecidableEq

structure SetPodPhase where
  uid : String
  phase : PodPhase
  deriving DecidableEq

structure ResetUnit where
  uid : String
  containerName : String
  deriving DecidableEq

structure RecordEvent where
  uid : String
  eventType : EventType
  reason : String
  message : String
  deriving DecidableEq

structure PersistPodState where
  uid : String
  deriving DecidableEq

structure ContainerInitPayload where
  name : String
  hasReadinessProbe : Bool
  deriving DecidableEq

structure InitRestartState where
  uid : String
  podNamespace : String
  name : String
  containers : List ContainerInitPayload
  deriving DecidableEq

inductive Effect where
  | updateStatus (e : UpdateStatus)
  | restartContainer (e : RestartContainer)
  | setPodPhase (e : SetPodPhase)
  | resetUnit (e : ResetUnit)
  | recordEvent (e : RecordEvent)
  | persistPodState (e : PersistPodState)
  | initRestartState (e : InitRestartState)
  deriving DecidableEq

def Effect.uid : Effect → String
  | .updateStatus e => e.uid
  | .restartContainer e => e.uid
  | .setPodPhase e => e.uid
  | .resetUnit e => e.uid
  | .recordEvent e => e.uid
  | .persistPodState e => e.uid
  | .initRestartState e => e.uid

end Types

end Periapsis
