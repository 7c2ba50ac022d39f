import Mathlib.Data.Int.Basic

/-!
# Kubernetes objects

The parts of the `corev1` types that the node agent reads and writes.
-/

namespace Periapsis

open Int64

abbrev Time := Int

abbrev Duration := Int64

def second : Duration := 1000000000

def minute : Duration := 60 * second

def hour : Duration := 60 * minute

def timeSub (t u : Time) : Duration :=
  ofInt (max minValue.toInt (min maxValue.toInt (t - u)))

theorem toInt_timeSub (t : Int) :
  (timeSub t u).toInt = max (-9223372036854775808) (min 9223372036854775807 (t - u))
  := by
  apply toInt_ofInt_of_le
  · exact Int.le_max_left _ _
  · change max (-9223372036854775808) (min 9223372036854775807 (t - u)) < 9223372036854775808
    omega

namespace Corev1

inductive PodPhase where
  | unset
  | pending
  | running
  | succeeded
  | failed
  | unknown
  deriving DecidableEq

def PodPhase.terminal : PodPhase → Bool
  | .succeeded => true
  | .failed => true
  | _ => false

inductive RestartPolicy where
  | unset
  | always
  | onFailure
  | never
  deriving DecidableEq

inductive EventType where
  | normal
  | warning
  deriving DecidableEq

inductive ConditionStatus where
  | true
  | false
  | unknown
  deriving DecidableEq

inductive PodConditionType where
  | podReady
  | containersReady
  | initialized
  | podScheduled
  deriving DecidableEq

structure PodCondition where
  type : PodConditionType
  status : ConditionStatus
  deriving DecidableEq

structure Probe where
  initialDelaySeconds : Int32 := 0
  periodSeconds : Int32 := 0
  timeoutSeconds : Int32 := 0
  successThreshold : Int32 := 0
  failureThreshold : Int32 := 0
  deriving DecidableEq

structure ResourceRequests where
  cpu : Option Int64 := none
  memory : Option Int64 := none
  deriving DecidableEq

structure Container where
  name : String
  image : String := ""
  readinessProbe : Option Probe := none
  livenessProbe : Option Probe := none
  startupProbe : Option Probe := none
  requests : ResourceRequests := {}
  deriving DecidableEq

structure PodSpec where
  restartPolicy : RestartPolicy := .unset
  containers : List Container := []
  deriving DecidableEq

structure Pod where
  spec : PodSpec
  deriving DecidableEq

def Pod.containerNames (pod : Pod) : List String :=
  pod.spec.containers.map Container.name

structure ContainerStateWaiting where
  reason : String
  deriving DecidableEq

structure ContainerStateRunning where
  startedAt : Time
  deriving DecidableEq

structure ContainerStateTerminated where
  exitCode : Int32
  reason : String
  message : String := ""
  startedAt : Time
  finishedAt : Time
  deriving DecidableEq

structure ContainerState where
  waiting : Option ContainerStateWaiting := none
  running : Option ContainerStateRunning := none
  terminated : Option ContainerStateTerminated := none
  deriving DecidableEq

structure ContainerStatus where
  name : String
  image : String := ""
  ready : Bool := false
  restartCount : Int32 := 0
  state : ContainerState := {}
  deriving DecidableEq

structure PodStatus where
  phase : PodPhase := .unset
  conditions : List PodCondition := []
  containerStatuses : List ContainerStatus := []
  hostIP : String := ""
  podIP : String := ""
  initContainerStatuses : List ContainerStatus := []
  reason : String := ""
  message : String := ""
  deriving DecidableEq

structure Toleration where
  key : String := ""
  operator : String := ""
  value : String := ""
  effect : String := ""
  tolerationSeconds : Option Int64 := none
  deriving DecidableEq

structure EphemeralContainer extends Container where
  targetContainerName : String := ""
  deriving DecidableEq

structure Volume where
  name : String
  configMap : Option String := none
  secret : Option String := none
  deriving DecidableEq

structure ApiPod extends Pod where
  uid : String := ""
  podNamespace : String := ""
  name : String := ""
  labels : List (String × String) := []
  annotations : List (String × String) := []
  finalizers : List String := []
  deletionTimestamp : Option Time := none
  deletionGracePeriodSeconds : Option Int64 := none
  initContainers : List Container := []
  ephemeralContainers : List EphemeralContainer := []
  activeDeadlineSeconds : Option Int64 := none
  tolerations : List Toleration := []
  volumes : List Volume := []
  status : PodStatus := {}
  deriving DecidableEq

end Corev1

end Periapsis
