import Mathlib.Data.List.Basic
import Periapsis.Types.Messages

/-!
# The state of a pod

The flat specification of a pod, and for each container its phase, readiness, restart bookkeeping
and exit details.
-/

namespace Periapsis.Foci

open Corev1 List

inductive ContainerPhase where
  | creating
  | running
  | terminated
  | crashLoopBackOff
  deriving DecidableEq

structure ProbeSpec where
  initialDelaySeconds : Int32 := 0
  periodSeconds : Int32 := 0
  timeoutSeconds : Int32 := 0
  successThreshold : Int32 := 0
  failureThreshold : Int32 := 0
  deriving DecidableEq

structure ContainerSpec where
  name : String
  image : String
  hasReadinessProbe : Bool := false
  hasLivenessProbe : Bool := false
  hasStartupProbe : Bool := false
  readinessProbe : ProbeSpec := {}
  livenessProbe : ProbeSpec := {}
  startupProbe : ProbeSpec := {}
  deriving DecidableEq

structure PodSpec where
  restartPolicy : RestartPolicy := .unset
  containers : List ContainerSpec := []
  deriving DecidableEq

structure ContainerState where
  name : String := ""
  image : String := ""
  phase : ContainerPhase := .creating
  ready : Bool := false
  restartCount : Int32 := 0
  seenRunning : Bool := false
  restarting : Bool := false
  backoff : Duration := 0
  lastStarted : Time := 0
  exitCode : Int32 := 0
  exitReason : String := ""
  startupPassed : Bool := false
  deriving DecidableEq

structure PodState where
  uid : String := ""
  podNamespace : String := ""
  name : String := ""
  podIP : String := ""
  spec : PodSpec := {}
  phase : PodPhase := .unset
  containers : List ContainerState := []
  deriving DecidableEq

def PodState.containerNames (state : PodState) : List String :=
  state.containers.map ContainerState.name

def PodState.findContainer (state : PodState) (name : String) : Option Nat :=
  state.containers.findIdx? (·.name = name)

def restartBackoffInit : Duration := 10 * second

def maxBackoff : Duration := 5 * minute

def restartBackoffReset : Duration := 10 * minute

structure Clock where
  started : Time := 0
  since : Time := 0
  added : Nat → Time := fun _ => 0
  finished : Nat → Time := fun _ => 0

def newProbeSpec : Option Probe → ProbeSpec
  | none => {}
  | some p =>
    { initialDelaySeconds := p.initialDelaySeconds
      periodSeconds := p.periodSeconds
      timeoutSeconds := p.timeoutSeconds
      successThreshold := p.successThreshold
      failureThreshold := p.failureThreshold }

def newContainerSpec (c : Container) : ContainerSpec where
  name := c.name
  image := c.image
  hasReadinessProbe := c.readinessProbe.isSome
  hasLivenessProbe := c.livenessProbe.isSome
  hasStartupProbe := c.startupProbe.isSome
  readinessProbe := newProbeSpec c.readinessProbe
  livenessProbe := newProbeSpec c.livenessProbe
  startupProbe := newProbeSpec c.startupProbe

def newPodSpec (pod : Pod) : PodSpec where
  restartPolicy := pod.spec.restartPolicy
  containers := pod.spec.containers.map newContainerSpec

def newContainerState (cs : ContainerSpec) (now : Time) : ContainerState where
  name := cs.name
  image := cs.image
  phase := .creating
  ready := !cs.hasReadinessProbe
  backoff := restartBackoffInit
  lastStarted := now

def newPodState (uid podNamespace name podIP : String) (pod : Pod) (clock : Clock) : PodState where
  uid := uid
  podNamespace := podNamespace
  name := name
  podIP := podIP
  spec := newPodSpec pod
  phase := .pending
  containers := (newPodSpec pod).containers.mapIdx fun i cs => newContainerState cs (clock.added i)

@[simp]
theorem newContainerSpec_name :
  (newContainerSpec c).name = c.name
  := rfl

variable {pod : Pod}

@[simp]
theorem newPodSpec_names :
  (newPodSpec pod).containers.map ContainerSpec.name = pod.containerNames
  := by
  simp [newPodSpec, Pod.containerNames, Function.comp_def]

variable {uid podNamespace name podIP : String}

@[simp]
theorem newPodState_containerNames :
  (newPodState uid podNamespace name podIP pod clock).containerNames = pod.containerNames
  := by
  apply ext_getElem
  · simp [newPodState, PodState.containerNames, newPodSpec, Pod.containerNames]
  · intro i _ _
    simp [newPodState, PodState.containerNames, newContainerState, newPodSpec, Pod.containerNames]

theorem mem_newPodState (h : cv ∈ (newPodState uid podNamespace name podIP pod clock).containers) :
  ∃ cs now, cs ∈ (newPodSpec pod).containers ∧ cv = newContainerState cs now
  := by
  obtain ⟨i, hi, rfl⟩ := mem_mapIdx.1 h
  use (newPodSpec pod).containers[i], clock.added i, getElem_mem _

namespace PodState

variable {state : PodState} {idx : Nat}

theorem findContainer_eq_some :
  state.findContainer name = some idx
    ↔ ∃ h : idx < state.containers.length, state.containers[idx].name = name
      ∧ ∀ j (hj : j < idx), state.containers[j].name ≠ name
  := by
  simp [findContainer, findIdx?_eq_some_iff_getElem]

theorem findContainer_eq_none :
  state.findContainer name = none ↔ name ∉ state.containerNames
  := by
  simp [findContainer, containerNames, findIdx?_eq_none_iff]

def container (state : PodState) (idx : Nat) : ContainerState :=
  state.containers.getD idx {}

def setContainer (state : PodState) (idx : Nat) (cv : ContainerState) : PodState :=
  { state with containers := state.containers.set idx cv }

@[simp]
theorem setContainer_containers :
  (state.setContainer idx cv).containers = state.containers.set idx cv
  := rfl

theorem container_of_find (h : state.findContainer name = some idx) :
  state.containers[idx]? = some (state.container idx) ∧ (state.container idx).name = name
  := by
  obtain ⟨hlt, hn, -⟩ := findContainer_eq_some.1 h
  simp [container, hlt, hn]

theorem container_mem_of_find (h : state.findContainer name = some idx) :
  state.container idx ∈ state.containers
  := mem_of_getElem? (container_of_find h).1

variable {cv : ContainerState}

theorem setContainer_containerNames (h : state.findContainer name = some idx)
    (hn : cv.name = name) :
  (state.setContainer idx cv).containerNames = state.containerNames
  := by
  obtain ⟨hlt, hid, -⟩ := findContainer_eq_some.1 h
  have hl : idx < (state.containers.map ContainerState.name).length := by simpa using hlt
  have hg : (state.containers.map ContainerState.name)[idx] = name := by simpa using hid
  rw [containerNames, containerNames, setContainer_containers, map_set, hn, ← hg,
    set_getElem_self]

theorem forall_mem_setContainer {P : ContainerState → Prop} (ha : ∀ c ∈ state.containers, P c)
    (hcv : P cv) :
  ∀ c ∈ (state.setContainer idx cv).containers, P c
  := by
  intro c hc
  rcases mem_or_eq_of_mem_set hc with hc | rfl
  · apply ha c hc
  · apply hcv

def lookup (state : PodState) (name : String) : Option ContainerState :=
  state.containers.find? (·.name = name)

theorem lookup_of_find (h : state.findContainer name = some idx) :
  state.lookup name = some (state.container idx)
  := by
  obtain ⟨hlt, hn, hfi⟩ := findContainer_eq_some.1 h
  apply find?_eq_some_iff_getElem.2
  constructor
  · simpa using (container_of_find h).2
  · use idx, hlt
    constructor
    · simp [container, hlt]
    · simpa using hfi

theorem find_of_lookup (h : state.lookup name = some cv) :
  ∃ idx, state.findContainer name = some idx ∧ state.container idx = cv
  := by
  cases hf : state.findContainer name with
  | none =>
    have hm := mem_of_find?_eq_some h
    have hn := find?_some h
    exfalso
    apply findContainer_eq_none.1 hf
    apply mem_map.2 ⟨cv, hm, by simpa using hn⟩
  | some idx =>
    use idx, rfl
    rw [lookup_of_find hf] at h
    apply Option.some.inj h

theorem exists_lookup (h : name ∈ state.containerNames) :
  ∃ cv ∈ state.containers, cv.name = name ∧ state.lookup name = some cv
  := by
  cases hf : state.findContainer name with
  | none =>
    exfalso
    apply findContainer_eq_none.1 hf h
  | some idx =>
    use state.container idx, container_mem_of_find hf, (container_of_find hf).2
    apply lookup_of_find hf

theorem lookup_setContainer (h : state.findContainer name = some idx) (hn : cv.name = name)
    (other : String) :
  (state.setContainer idx cv).lookup other = if other = name then some cv else state.lookup other
  := by
  unfold findContainer at h
  rw [lookup, lookup, setContainer_containers]
  generalize state.containers = containers at h ⊢
  induction containers generalizing idx with
  | nil => simp at h
  | cons c cs ih =>
    rw [findIdx?_cons] at h
    split at h
    next hc =>
      cases h
      have hc' : c.name = name := by simpa using hc
      rw [set_cons_zero, find?_cons, find?_cons, hn, hc']
      by_cases ho : name = other
      · simp [ho]
      · simp [ho, Ne.symm ho]
    next hc =>
      obtain ⟨j, hj, rfl⟩ := Option.map_eq_some_iff.1 h
      have hc' : c.name ≠ name := by simpa using hc
      rw [set_cons_succ, find?_cons, find?_cons, ih hj]
      by_cases ho : c.name = other
      · subst ho
        simp [hc']
      · simp [ho]

end PodState

/-! ### The status of a pod -/

open Periapsis.Types

def containerStateToPayload (cv : ContainerState) (now : Time) : ContainerStatePayload :=
  match cv.phase with
  | .creating => { waiting := some ⟨"ContainerCreating"⟩ }
  | .running => { running := some ⟨cv.lastStarted⟩ }
  | .terminated =>
    { terminated := some
        { exitCode := cv.exitCode
          reason := cv.exitReason
          startedAt := cv.lastStarted
          finishedAt := now } }
  | .crashLoopBackOff => { waiting := some ⟨"CrashLoopBackOff"⟩ }

def containerStatusPayload (cv : ContainerState) (now : Time) : ContainerStatusPayload where
  name := cv.name
  image := cv.image
  ready := cv.ready
  restartCount := cv.restartCount
  state := containerStateToPayload cv now

def buildPodStatusPayload (state : PodState) (clock : Clock) : PodStatusPayload :=
  let containerStatuses :=
    state.containers.mapIdx fun i cv => containerStatusPayload cv (clock.finished i)
  let allReady := containerStatuses.all (·.ready)
  { phase := state.phase
    conditions := [⟨.podReady, if allReady then .true else .false⟩]
    containerStatuses := containerStatuses
    hostIP := state.podIP
    podIP := state.podIP }

def payloadToContainerState (p : ContainerStatePayload) : Corev1.ContainerState :=
  match p.waiting, p.running, p.terminated with
  | some w, _, _ => { waiting := some ⟨w.reason⟩ }
  | none, some r, _ => { running := some ⟨r.startedAt⟩ }
  | none, none, some t =>
    { terminated := some
        { exitCode := t.exitCode
          reason := t.reason
          startedAt := t.startedAt
          finishedAt := t.finishedAt } }
  | none, none, none => { waiting := some ⟨"ContainerCreating"⟩ }

def payloadToContainerStatus (cs : ContainerStatusPayload) : ContainerStatus where
  name := cs.name
  image := cs.image
  ready := cs.ready
  restartCount := cs.restartCount
  state := payloadToContainerState cs.state

def podStatusPayloadToCorev1 (payload : PodStatusPayload) : PodStatus where
  phase := payload.phase
  conditions := payload.conditions
  containerStatuses := payload.containerStatuses.map payloadToContainerStatus
  hostIP := payload.hostIP
  podIP := payload.podIP

theorem podReady_mem_buildPodStatusPayload :
  ⟨.podReady, .true⟩ ∈ (buildPodStatusPayload state clock).conditions
    ↔ ∀ cv ∈ state.containers, cv.ready
  := by
  have ha : (∀ cs ∈ state.containers.mapIdx
      fun i cv => containerStatusPayload cv (clock.finished i), cs.ready)
      ↔ ∀ cv ∈ state.containers, cv.ready := by
    constructor
    · intro h cv hcv
      obtain ⟨i, hi, rfl⟩ := getElem_of_mem hcv
      apply h _ (mem_mapIdx.2 ⟨i, hi, rfl⟩)
    · intro h cs hcs
      obtain ⟨i, hi, rfl⟩ := mem_mapIdx.1 hcs
      apply h _ (getElem_mem hi)
  rw [← ha, ← all_eq_true]
  simp only [buildPodStatusPayload, mem_singleton, PodCondition.mk.injEq, true_and]
  split
  next h =>
    simp [h]
  next h =>
    simp [h]

end Periapsis.Foci
