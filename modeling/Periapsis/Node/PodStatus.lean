import Mathlib.Data.List.Nodup
import Periapsis.Node.BatchWatcher

/-!
# The status that is reported of a pod

`buildPodStatus` makes a status of each container of a pod from the state of its machine.
-/

namespace Periapsis.Node

open Corev1 Perigeos List

/-- What a report reads of the store and the node. -/
structure PodView where
  restartCounts : String → Int32
  isContainerReady : String → Bool
  containerStartedAt : String → Time
  podIP : String
  nodeIP : String
  now : Time

def previousStatus (pod : ApiPod) (name : String) : Option ContainerStatus :=
  pod.status.containerStatuses.reverse.find? fun status => status.name = name

def reportContainer (view : PodView) (policy : RestartPolicy) (previous : Option ContainerStatus)
    (state : MachineState) (podPhase : PodPhase) (c : Container) : PodPhase × ContainerStatus :=
  let cs : ContainerStatus :=
    { name := c.name, image := c.image, restartCount := view.restartCounts c.name }
  let ended (exitCode : Int32) (reason : String) : ContainerState :=
    { terminated := some
        { exitCode := exitCode
          reason := reason
          startedAt := view.containerStartedAt c.name
          finishedAt := view.now } }
  match state with
  | .running =>
    (podPhase,
      { cs with
        ready := view.isContainerReady c.name
        state := { running := some ⟨view.containerStartedAt c.name⟩ } })
  | .creating => (.pending, { cs with state := { waiting := some ⟨"ContainerCreating"⟩ } })
  | .unknown =>
    -- The last status is kept only while the pod is being created.
    match previous with
    | some last =>
      if podPhase = .pending ∧ last.state.running ≠ none then
        (podPhase, { cs with ready := last.ready, state := last.state })
      else (podPhase, { cs with state := { waiting := some ⟨"ContainerCreating"⟩ } })
    | none => (podPhase, { cs with state := { waiting := some ⟨"ContainerCreating"⟩ } })
  | .failed =>
    if policy = .always ∨ policy = .onFailure then
      (.running, { cs with state := { waiting := some ⟨"CrashLoopBackOff"⟩ } })
    else (podPhase, { cs with state := ended 1 "Error" })
  | .exited =>
    if policy = .always then
      (.running, { cs with state := { waiting := some ⟨"CrashLoopBackOff"⟩ } })
    else (podPhase, { cs with state := ended 0 "Completed" })
  | .unset => (podPhase, cs)

structure StatusBuild where
  podPhase : PodPhase := .running
  allReady : Bool := true
  containerStatuses : List ContainerStatus := []

def StatusBuild.observe (report : PodPhase → Container → PodPhase × ContainerStatus)
    (b : StatusBuild) (c : Container) : StatusBuild :=
  let (podPhase, cs) := report b.podPhase c
  { podPhase := podPhase
    allReady := b.allReady && cs.ready
    containerStatuses := b.containerStatuses ++ [cs] }

def containerReport (view : PodView) (pod : ApiPod) (stateLookup : String → MachineState)
    (podPhase : PodPhase) (c : Container) : PodPhase × ContainerStatus :=
  reportContainer view (effectivePolicy pod.spec.restartPolicy) (previousStatus pod c.name)
    (stateLookup c.name) podPhase c

def buildPodStatus (view : PodView) (pod : ApiPod) (stateLookup : String → MachineState) :
    PodStatus :=
  let b := pod.spec.containers.foldl (StatusBuild.observe (containerReport view pod stateLookup)) {}
  { phase := b.podPhase
    conditions := [⟨.podReady, if b.allReady then .true else .false⟩]
    containerStatuses := b.containerStatuses
    hostIP := view.nodeIP
    podIP := view.podIP }

section Loop

variable (report : PodPhase → Container → PodPhase × ContainerStatus)

def phaseAfter (podPhase : PodPhase) (containers : List Container) : PodPhase :=
  containers.foldl (fun podPhase c => (report podPhase c).1) podPhase

def statusesFrom (podPhase : PodPhase) : List Container → List ContainerStatus
  | [] => []
  | c :: containers =>
    (report podPhase c).2 :: statusesFrom (report podPhase c).1 containers

theorem foldl_statusBuild (containers : List Container) :
  containers.foldl (StatusBuild.observe report) b
    = { podPhase := phaseAfter report b.podPhase containers
        allReady := b.allReady && (statusesFrom report b.podPhase containers).all (·.ready)
        containerStatuses := b.containerStatuses ++ statusesFrom report b.podPhase containers }
  := by
  induction containers generalizing b with
  | nil => simp [phaseAfter, statusesFrom]
  | cons c containers ih =>
    rw [foldl_cons, ih]
    simp [StatusBuild.observe, phaseAfter, statusesFrom, Bool.and_assoc]

end Loop

section Report

variable {view : PodView} {pod : ApiPod} {stateLookup : String → MachineState}

theorem buildPodStatus_eq :
  buildPodStatus view pod stateLookup
    = let report := containerReport view pod stateLookup
      let statuses := statusesFrom report .running pod.spec.containers
      { phase := phaseAfter report .running pod.spec.containers
        conditions := [⟨.podReady, if statuses.all (·.ready) then .true else .false⟩]
        containerStatuses := statuses
        hostIP := view.nodeIP
        podIP := view.podIP }
  := by
  rw [buildPodStatus, foldl_statusBuild]
  simp

variable {c : Container}

theorem containerReport_name :
  (containerReport view pod stateLookup podPhase c).2.name = c.name
  := by
  unfold containerReport reportContainer
  split
  · rfl
  · rfl
  · split
    · split
      all_goals rfl
    · rfl
  · split
    all_goals rfl
  · split
    all_goals rfl
  · rfl

theorem map_name_statusesFrom (podPhase : PodPhase) :
  (statusesFrom (containerReport view pod stateLookup) podPhase containers).map (·.name)
    = containers.map Container.name
  := by
  induction containers generalizing podPhase with
  | nil => rfl
  | cons c containers ih =>
    rw [statusesFrom, map_cons, containerReport_name, ih, map_cons]

/-- The container is reported to wait for a restart. -/
def CrashLoops (policy : RestartPolicy) (state : MachineState) : Prop :=
  state = .failed ∧ (policy = .always ∨ policy = .onFailure) ∨ state = .exited ∧ policy = .always

instance (policy : RestartPolicy) (state : MachineState) : Decidable (CrashLoops policy state) :=
  inferInstanceAs (Decidable (_ ∨ _))

def LastSeenRunning (previous : Option ContainerStatus) (state : MachineState) : Prop :=
  state = .unknown ∧ ∃ last ∈ previous, last.state.running ≠ none

variable {podPhase : PodPhase}

theorem containerReport_creating (h : stateLookup c.name = .creating) :
  (containerReport view pod stateLookup podPhase c).1 = .pending
  := by
  simp [containerReport, reportContainer, h]

theorem containerReport_crashLoops
    (h : CrashLoops (effectivePolicy pod.spec.restartPolicy) (stateLookup c.name)) :
  (containerReport view pod stateLookup podPhase c).1 = .running
  := by
  rcases h with ⟨hs, hp⟩ | ⟨hs, hp⟩
  all_goals simp [containerReport, reportContainer, hs, hp]

theorem containerReport_phase (hcr : stateLookup c.name ≠ .creating)
    (hca : ¬ CrashLoops (effectivePolicy pod.spec.restartPolicy) (stateLookup c.name)) :
  (containerReport view pod stateLookup podPhase c).1 = podPhase
  := by
  unfold containerReport reportContainer
  split
  · rfl
  next hs =>
    exact absurd hs hcr
  · split
    · split
      all_goals rfl
    · rfl
  next hs =>
    rw [if_neg]
    exact fun hp => hca (.inl ⟨hs, hp⟩)
  next hs =>
    rw [if_neg]
    exact fun hp => hca (.inr ⟨hs, hp⟩)
  · rfl

theorem containerReport_status
    (hl : ¬ LastSeenRunning (previousStatus pod c.name) (stateLookup c.name)) :
  (containerReport view pod stateLookup podPhase c).2
    = (containerReport view pod stateLookup .running c).2
  := by
  unfold containerReport reportContainer
  split
  · rfl
  · rfl
  next hs =>
    split
    next last hpr =>
      rw [if_neg, if_neg]
      · exact fun h => absurd h.1 (by decide)
      · exact fun h => hl ⟨hs, last, hpr, h.2⟩
    · rfl
  · split
    all_goals rfl
  · split
    all_goals rfl
  · rfl

theorem containerReport_lastSeenRunning
    (hl : LastSeenRunning (previousStatus pod c.name) (stateLookup c.name)) :
  (containerReport view pod stateLookup .pending c).2.state.running ≠ none
    ∧ (containerReport view pod stateLookup .running c).2.state.running = none
  := by
  obtain ⟨hs, last, hpr, hr⟩ := hl
  simp [containerReport, reportContainer, hs, Option.mem_def.1 hpr, hr]

def PhaseSettled (pod : ApiPod) (stateLookup : String → MachineState)
    (containers : List Container) : Prop :=
  (∃ c ∈ containers, stateLookup c.name = .creating) → ∀ c ∈ containers,
    ¬ CrashLoops (effectivePolicy pod.spec.restartPolicy) (stateLookup c.name)
      ∧ ¬ LastSeenRunning (previousStatus pod c.name) (stateLookup c.name)

variable {containers : List Container}

theorem statuses_of_no_creating (h : ∀ c ∈ containers, stateLookup c.name ≠ .creating) :
  phaseAfter (containerReport view pod stateLookup) .running containers = .running
    ∧ statusesFrom (containerReport view pod stateLookup) .running containers
      = containers.map fun c => (containerReport view pod stateLookup .running c).2
  := by
  induction containers with
  | nil => exact ⟨rfl, rfl⟩
  | cons c containers ih =>
    obtain ⟨hc, hco⟩ := forall_mem_cons.1 h
    have hph : (containerReport view pod stateLookup .running c).1 = .running := by
      by_cases hca : CrashLoops (effectivePolicy pod.spec.restartPolicy) (stateLookup c.name)
      · exact containerReport_crashLoops hca
      · exact containerReport_phase hc hca
    obtain ⟨ihphase, ihstatuses⟩ := ih hco
    rw [phaseAfter, foldl_cons, statusesFrom, hph, ihstatuses]
    exact ⟨ihphase, rfl⟩

theorem statuses_of_none_matters
    (h : ∀ c ∈ containers, ¬ CrashLoops (effectivePolicy pod.spec.restartPolicy) (stateLookup
      c.name) ∧ ¬ LastSeenRunning (previousStatus pod c.name) (stateLookup c.name))
    (podPhase : PodPhase) :
  phaseAfter (containerReport view pod stateLookup) podPhase containers
      = (if ∃ c ∈ containers, stateLookup c.name = .creating then .pending else podPhase)
    ∧ statusesFrom (containerReport view pod stateLookup) podPhase containers
      = containers.map fun c => (containerReport view pod stateLookup .running c).2
  := by
  induction containers generalizing podPhase with
  | nil => simp [phaseAfter, statusesFrom]
  | cons c containers ih =>
    obtain ⟨⟨hca, hl⟩, hco⟩ := forall_mem_cons.1 h
    obtain ⟨ihphase, ihstatuses⟩ := ih hco (containerReport view pod stateLookup podPhase c).1
    rw [phaseAfter, foldl_cons, statusesFrom, ihstatuses, containerReport_status hl]
    refine ⟨?_, rfl⟩
    rw [← phaseAfter, ihphase]
    by_cases hcr : stateLookup c.name = .creating
    · simp [hcr, containerReport_creating hcr]
    · simp [hcr, containerReport_phase hcr hca]

theorem PhaseSettled.statuses (h : PhaseSettled pod stateLookup containers) (view : PodView) :
  phaseAfter (containerReport view pod stateLookup) .running containers
      = (if ∃ c ∈ containers, stateLookup c.name = .creating then .pending else .running)
    ∧ statusesFrom (containerReport view pod stateLookup) .running containers
      = containers.map fun c => (containerReport view pod stateLookup .running c).2
  := by
  by_cases hcr : ∃ c ∈ containers, stateLookup c.name = .creating
  · exact statuses_of_none_matters (h hcr) .running
  · have hno : ∀ c ∈ containers, stateLookup c.name ≠ .creating :=
      fun c hc hs => hcr ⟨c, hc, hs⟩
    rw [if_neg hcr]
    exact statuses_of_no_creating hno

variable {containers' : List Container}

theorem PhaseSettled.perm (h : PhaseSettled pod stateLookup containers)
    (hpm : containers'.Perm containers) :
  PhaseSettled pod stateLookup containers'
  := by
  rintro ⟨c, hc, hcr⟩ d hd
  exact h ⟨c, hpm.mem_iff.1 hc, hcr⟩ d (hpm.mem_iff.1 hd)

def withContainers (pod : ApiPod) (containers : List Container) : ApiPod :=
  { pod with spec := { pod.spec with containers := containers } }

def SameReport (status status' : PodStatus) : Prop :=
  status.phase = status'.phase ∧ status.conditions = status'.conditions
    ∧ ∀ cs, cs ∈ status.containerStatuses ↔ cs ∈ status'.containerStatuses

variable {status status' : PodStatus}

theorem SameReport.symm (h : SameReport status status') :
  SameReport status' status
  := ⟨h.1.symm, h.2.1.symm, fun cs => (h.2.2 cs).symm⟩

theorem SameReport.trans (h : SameReport status status') (h' : SameReport status' status'') :
  SameReport status status''
  := ⟨h.1.trans h'.1, h.2.1.trans h'.2.1, fun cs => (h.2.2 cs).trans (h'.2.2 cs)⟩

theorem buildPodStatus_withContainers :
  buildPodStatus view (withContainers pod containers) stateLookup
    = let report := containerReport view pod stateLookup
      let statuses := statusesFrom report .running containers
      { phase := phaseAfter report .running containers
        conditions := [⟨.podReady, if statuses.all (·.ready) then .true else .false⟩]
        containerStatuses := statuses
        hostIP := view.nodeIP
        podIP := view.podIP }
  := buildPodStatus_eq

theorem PhaseSettled.sameReport (h : PhaseSettled pod stateLookup containers)
    (hpm : containers'.Perm containers) (view : PodView) :
  SameReport (buildPodStatus view (withContainers pod containers') stateLookup)
    (buildPodStatus view (withContainers pod containers) stateLookup)
  := by
  obtain ⟨hph, hst⟩ := h.statuses view
  obtain ⟨hpa, hsa⟩ := (h.perm hpm).statuses view
  have hm := hpm.map fun c => (containerReport view pod stateLookup .running c).2
  rw [buildPodStatus_withContainers, buildPodStatus_withContainers]
  simp only [hph, hpa, hst, hsa]
  refine ⟨?_, ?_, fun cs => hm.mem_iff⟩
  · simp only [hpm.mem_iff]
  · rw [hm.all_eq]

theorem phase_withContainers_concat :
  (buildPodStatus view (withContainers pod (containers ++ [c])) stateLookup).phase
    = (containerReport view pod stateLookup
        (phaseAfter (containerReport view pod stateLookup) .running containers) c).1
  := by
  rw [buildPodStatus_withContainers]
  simp only [phaseAfter, foldl_concat]

theorem statuses_of_lastSeenRunning {d : Container} (hcr : stateLookup c.name = .creating)
    (hl : LastSeenRunning (previousStatus pod d.name) (stateLookup d.name))
    (hn : ((c :: d :: containers).map Container.name).Nodup) :
  ¬ SameReport (buildPodStatus view (withContainers pod (d :: containers')) stateLookup)
    (buildPodStatus view (withContainers pod (c :: d :: containers)) stateLookup)
  := by
  rintro ⟨-, -, hst⟩
  rw [buildPodStatus_withContainers, buildPodStatus_withContainers] at hst
  let report := containerReport view pod stateLookup
  have hr : (report .running d).2 ∈ statusesFrom report .running (c :: d :: containers) :=
    (hst _).1 mem_cons_self
  have hpe : (report .pending d).2 ∈ statusesFrom report .running (c :: d :: containers) := by
    have hph : (report .running c).1 = .pending := containerReport_creating hcr
    rw [statusesFrom, statusesFrom, hph]
    exact mem_cons_of_mem _ mem_cons_self
  rw [← map_name_statusesFrom .running] at hn
  have heq : (report .pending d).2 = (report .running d).2 := by
    apply inj_on_of_nodup_map hn hpe hr
    rw [containerReport_name, containerReport_name]
  obtain ⟨hk, hdr⟩ := containerReport_lastSeenRunning hl
  exact hk (heq ▸ hdr)

end Report

/-- A report does not depend on the order of the containers if and only if none is being created, or
none waits for a restart and none of unknown state was seen running. -/
theorem buildPodStatus_order_iff (view : PodView) (pod : ApiPod)
    (hnames : pod.containerNames.Nodup) (stateLookup : String → MachineState) :
  (∀ containers, containers.Perm pod.spec.containers →
      SameReport (buildPodStatus view (withContainers pod containers) stateLookup)
        (buildPodStatus view pod stateLookup))
    ↔ ((∃ c ∈ pod.spec.containers, stateLookup c.name = .creating)
      → ∀ c ∈ pod.spec.containers,
        ¬ CrashLoops (effectivePolicy pod.spec.restartPolicy) (stateLookup c.name)
          ∧ ¬ LastSeenRunning (previousStatus pod c.name) (stateLookup c.name))
  := by
  constructor
  · rintro h ⟨c, hc, hcr⟩ d hd
    constructor
    · intro hca
      have hl (e : Container) (he : e ∈ pod.spec.containers) :
          (pod.spec.containers.erase e ++ [e]).Perm pod.spec.containers :=
        (perm_append_singleton _ _).trans (perm_cons_erase he).symm
      have hpe := (h _ (hl c hc)).1
      have hr := (h _ (hl d hd)).1
      rw [phase_withContainers_concat, containerReport_creating hcr] at hpe
      rw [phase_withContainers_concat, containerReport_crashLoops hca] at hr
      cases hpe.trans hr.symm
    · intro hl
      have hne : d ≠ c := by
        rintro rfl
        cases hcr.symm.trans hl.1
      have hf := perm_cons_erase hd
      have hse := (perm_cons_erase hc).trans
        ((perm_cons_erase ((mem_erase_of_ne hne).mpr hd)).cons c)
      have hna : ((c :: d :: (pod.spec.containers.erase c).erase d).map Container.name).Nodup :=
        (hse.map Container.name).nodup_iff.mp hnames
      apply statuses_of_lastSeenRunning hcr hl hna
      exact (h _ hf.symm).trans (h _ hse.symm).symm
  · intro h containers hpm
    have hsl : PhaseSettled pod stateLookup pod.spec.containers := h
    exact hsl.sameReport hpm view

def blankView : PodView where
  restartCounts _ := 0
  isContainerReady _ := true
  containerStartedAt _ := 0
  podIP := ""
  nodeIP := ""
  now := 0

def twoContainers : ApiPod where
  spec := { restartPolicy := .always, containers := [{ name := "a" }, { name := "b" }] }

def creatingA (b : MachineState) (name : String) : MachineState :=
  if name = "a" then .creating else b

theorem buildPodStatus_order_running :
  SameReport
    (buildPodStatus blankView (withContainers twoContainers [{ name := "b" }, { name := "a" }])
      (creatingA .running))
    (buildPodStatus blankView twoContainers (creatingA .running))
  := by
  apply (buildPodStatus_order_iff blankView twoContainers (by decide) (creatingA .running)).mpr
  · intro _ c hc
    rcases mem_pair.mp hc with rfl | rfl
    all_goals exact ⟨by decide, by rintro ⟨hs, -⟩; cases hs⟩
  · exact List.Perm.swap _ _ []

theorem phase_of_last_container :
  [{ name := "b" }, { name := "a" }].Perm twoContainers.spec.containers
    ∧ (buildPodStatus blankView twoContainers (creatingA .failed)).phase = .running
    ∧ (buildPodStatus blankView (withContainers twoContainers [{ name := "b" }, { name := "a" }])
      (creatingA .failed)).phase = .pending
  := by decide

end Periapsis.Node
