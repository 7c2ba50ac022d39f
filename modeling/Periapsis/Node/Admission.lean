import Periapsis.Node.Accounting

/-!
# The admission of pods

A pod is admitted if its requests fit into the capacity of the node beside the resources counted as
used.
-/

namespace Periapsis.Node

open Corev1 Transition List Option Int64

inductive ResourceName where
  | cpu
  | memory
  deriving DecidableEq

def ResourceName.of {α : Type*} : ResourceName → α × α → α
  | .cpu => Prod.fst
  | .memory => Prod.snd

theorem ResourceName.forall_iff {P : ResourceName → Prop} :
  (∀ r, P r) ↔ P .cpu ∧ P .memory
  := by
  constructor
  · intro h
    exact ⟨h .cpu, h .memory⟩
  · rintro ⟨hcp, hm⟩ r
    cases r with
    | cpu => exact hcp
    | memory => exact hm

variable {r : ResourceName}

theorem ResourceName.of_add (p : Int64 × Int64) :
  r.of (p + q) = r.of p + r.of q
  := by
  cases r with
  | _ => rfl

def containerRequest (r : ResourceName) (c : Container) : Int64 :=
  r.of (c.requests.cpu.getD 0, c.requests.memory.getD 0)

def podRequest (r : ResourceName) (pod : ApiPod) : Int :=
  (pod.spec.containers.map fun c => (containerRequest r c).toInt).sum

def addRequests (sums : Int64 × Int64) (c : Container) : Int64 × Int64 :=
  (sums.1 + c.requests.cpu.getD 0, sums.2 + c.requests.memory.getD 0)

theorem of_addRequests :
  r.of (addRequests sums c) = r.of sums + containerRequest r c
  := by
  cases r with
  | _ => rfl

theorem podResources_modEq (r : ResourceName) (pod : ApiPod) :
  (r.of (podResources pod)).toInt ≡ podRequest r pod [ZMOD 2 ^ 64]
  := by
  suffices hfo : ∀ (cs : List Container) (sums : Int64 × Int64),
      (r.of (cs.foldl addRequests sums)).toInt
        ≡ (r.of sums).toInt + (cs.map fun c => (containerRequest r c).toInt).sum
          [ZMOD 2 ^ 64] by
    have h := hfo pod.spec.containers 0
    have hz : (r.of (0 : Int64 × Int64)).toInt = 0 := by
      cases r with
      | _ => rfl
    rw [hz, zero_add] at h
    exact h
  intro cs
  induction cs with
  | nil =>
    intro sums
    simp
  | cons c cs ih =>
    intro sums
    rw [foldl_cons, map_cons, sum_cons, ← add_assoc]
    apply (ih _).trans
    apply Int.ModEq.add_right
    rw [of_addRequests]
    apply toInt_add_modEq

/-- A reading of the pressure, as a number and as printed. -/
structure Avg10 where
  percent : Rat
  text : String

structure HostPressure where
  cpu : Avg10
  memory : Avg10

def psiCPUThreshold : Rat := 70

def psiMemoryThreshold : Rat := 15

namespace PodStore

def checkResources (s : PodStore) (pod : ApiPod) (nodeCPU nodeMem : Int64) : String :=
  let (podCPU, podMem) := podResources pod
  if podCPU = 0 ∧ podMem = 0 then ""
  else if 0 < nodeCPU ∧ nodeCPU < s.usedCPU + podCPU then
    "Insufficient cpu: requested " ++ toString podCPU ++ "m, used " ++ toString s.usedCPU
      ++ "m, capacity " ++ toString nodeCPU ++ "m"
  else if 0 < nodeMem ∧ nodeMem < s.usedMem + podMem then
    "Insufficient memory: requested " ++ toString podMem ++ ", used " ++ toString s.usedMem
      ++ ", capacity " ++ toString nodeMem
  else ""

def admitPod (s : PodStore) (pod : ApiPod) (nodeCPU nodeMem : Int64)
    (pressure : Option HostPressure) : String :=
  match pressure with
  | none => s.checkResources pod nodeCPU nodeMem
  | some hp =>
    if psiCPUThreshold < hp.cpu.percent then
      "Host CPU pressure too high: avg10=" ++ hp.cpu.text ++ "% (threshold 70%)"
    else if psiMemoryThreshold < hp.memory.percent then
      "Host memory pressure too high: avg10=" ++ hp.memory.text ++ "% (threshold 15%)"
    else s.checkResources pod nodeCPU nodeMem

def remaining (capacity : Option Int64) (used : Int64) : Option Int64 :=
  if 0 < used then
    if used < capacity.getD 0 then some (capacity.getD 0 - used) else some 0
  else capacity

def computeAllocatable (s : PodStore) (capacity : ResourceRequests) : ResourceRequests where
  cpu := remaining capacity.cpu s.usedCPU
  memory := remaining capacity.memory s.usedMem

def Pressed (pressure : Option HostPressure) : Prop :=
  ∃ hp, pressure = some hp
    ∧ (psiCPUThreshold < hp.cpu.percent ∨ psiMemoryThreshold < hp.memory.percent)

variable {pressure : Option HostPressure}

theorem admitPod_of_not_pressed (h : ¬ Pressed pressure) (s : PodStore) :
  s.admitPod pod nodeCPU nodeMem pressure = s.checkResources pod nodeCPU nodeMem
  := by
  cases pressure with
  | none => rfl
  | some hp =>
    have hcp : ¬ psiCPUThreshold < hp.cpu.percent := fun hlt => h ⟨hp, rfl, .inl hlt⟩
    have hm : ¬ psiMemoryThreshold < hp.memory.percent := fun hlt => h ⟨hp, rfl, .inr hlt⟩
    rw [admitPod, if_neg hcp, if_neg hm]

variable {s : PodStore} {pod : ApiPod}

theorem checkResources_of_admitPod (h : s.admitPod pod nodeCPU nodeMem pressure = "") :
  s.checkResources pod nodeCPU nodeMem = ""
  := by
  cases pressure with
  | none => exact h
  | some hp =>
    unfold admitPod at h
    dsimp only at h
    split_ifs at h
    · simp at h
    · simp at h
    · exact h

theorem checkResources_eq_empty_iff :
  s.checkResources pod nodeCPU nodeMem = ""
    ↔ podResources pod = 0
      ∨ ∀ r : ResourceName, 0 < r.of (nodeCPU, nodeMem) →
          ¬ r.of (nodeCPU, nodeMem) < r.of (s.used + podResources pod)
  := by
  have hz : podResources pod = 0 ↔ (podResources pod).1 = 0 ∧ (podResources pod).2 = 0 :=
    Prod.ext_iff
  rw [hz, ResourceName.forall_iff]
  unfold checkResources
  dsimp only [ResourceName.of]
  split_ifs with hnn hcp hm
  · simp [hnn]
  · apply iff_of_false
    · simp
    · rintro (hz | ⟨hf, -⟩)
      · apply hnn hz
      · apply hf hcp.1 hcp.2
  · apply iff_of_false
    · simp
    · rintro (hz | ⟨-, hf⟩)
      · apply hnn hz
      · apply hf hm.1 hm.2
  · apply iff_of_true rfl
    exact .inr ⟨fun hpo hlt => hcp ⟨hpo, hlt⟩, fun hpo hlt => hm ⟨hpo, hlt⟩⟩

theorem podRequest_nonneg (h : ∀ c ∈ pod.spec.containers, 0 ≤ (containerRequest r c).toInt) :
  0 ≤ podRequest r pod
  := by
  apply sum_nonneg
  intro n hn
  obtain ⟨c, hc, rfl⟩ := mem_map.1 hn
  apply h c hc

theorem checkResources_eq_empty_iff_of_fits (nodeCPU nodeMem : Int64)
    (hno : ∀ r, 0 ≤ podRequest r pod) (hre : ∀ r, podRequest r pod < 2 ^ 63)
    (hsu : ∀ r : ResourceName, (r.of s.used).toInt + podRequest r pod < 2 ^ 63) :
  s.checkResources pod nodeCPU nodeMem = ""
    ↔ (∀ r, podRequest r pod = 0)
      ∨ ∀ r : ResourceName, 0 < (r.of (nodeCPU, nodeMem)).toInt →
        (r.of s.used).toInt + podRequest r pod ≤ (r.of (nodeCPU, nodeMem)).toInt
  := by
  have hpd (r : ResourceName) : (r.of (podResources pod)).toInt = podRequest r pod := by
    have := hno r
    apply toInt_eq_of_modEq (podResources_modEq r pod) (by omega) (hre r)
  have ha (r : ResourceName) :
      (r.of (s.used + podResources pod)).toInt = (r.of s.used).toInt + podRequest r pod := by
    have hmi := (r.of s.used).le_toInt
    have := hno r
    rw [ResourceName.of_add]
    apply toInt_eq_of_modEq _ (by omega) (hsu r)
    rw [← hpd r]
    apply toInt_add_modEq
  have hz : podResources pod = 0 ↔ ∀ r, podRequest r pod = 0 := by
    rw [ResourceName.forall_iff, ← hpd, ← hpd, Prod.ext_iff]
    simp only [← toInt_inj]
    rfl
  rw [checkResources_eq_empty_iff, hz]
  simp only [lt_iff_toInt_lt, ha, not_lt]
  rfl

end PodStore

open PodStore

structure NoOverflow (s : PodStore) (pod : ApiPod) : Prop where
  used : ∀ r : ResourceName, (r.of s.used).toInt = total (fun ps => podRequest r ps.pod) s.pods
  request : ∀ r, podRequest r pod < 2 ^ 63
  sum : ∀ r : ResourceName, (r.of s.used).toInt + podRequest r pod < 2 ^ 63

def SchedulerPlaces (s : PodStore) (pod : ApiPod) (allocatable : ResourceRequests) : Prop :=
  ∀ r : ResourceName, total (fun ps => podRequest r ps.pod) s.pods + podRequest r pod
    ≤ (r.of (allocatable.cpu.getD 0, allocatable.memory.getD 0)).toInt

theorem le_remaining_iff {used : Int64} (hn : 0 ≤ n) :
  used.toInt + n ≤ ((remaining (some capacity) used).getD 0).toInt
    ↔ max used.toInt 0 + used.toInt + n ≤ capacity.toInt
  := by
  have hz : (0 : Int64).toInt = 0 := rfl
  unfold remaining
  dsimp only [getD_some]
  split_ifs with hpo hlt
  · have hs : (capacity - used).toInt = capacity.toInt - used.toInt := by
      rw [lt_iff_toInt_lt] at hpo hlt
      have hma := capacity.toInt_lt
      rw [toInt_sub]
      apply Int.bmod_eq_of_le
      all_goals omega
    rw [lt_iff_toInt_lt] at hpo
    rw [getD_some, hs]
    omega
  · rw [lt_iff_toInt_lt] at hpo hlt
    rw [getD_some]
    omega
  · rw [lt_iff_toInt_lt] at hpo
    rw [getD_some]
    omega

/-- Without pressure or overflow, the scheduler and the admission agree exactly if the pod requests
something and exceeds a positive capacity beside the registered pods, or fits into it with the
registered pods counted twice. -/
theorem placed_iff_admitted_iff
    {s : PodStore} {pod : ApiPod} (nodeCPU nodeMem : Int64) {pressure : Option HostPressure}
    (hpressure : ¬ Pressed pressure) (hoverflow : NoOverflow s pod)
    (hnonneg : ∀ r, ∀ c ∈ pod.spec.containers, 0 ≤ (containerRequest r c).toInt) :
  (SchedulerPlaces s pod (s.computeAllocatable ⟨some nodeCPU, some nodeMem⟩)
      ↔ s.admitPod pod nodeCPU nodeMem pressure = "")
    ↔ ((∃ r, podRequest r pod ≠ 0)
        ∧ ∃ r : ResourceName, 0 < (r.of (nodeCPU, nodeMem)).toInt
          ∧ (r.of (nodeCPU, nodeMem)).toInt
            < total (fun ps => podRequest r ps.pod) s.pods + podRequest r pod)
      ∨ ∀ r : ResourceName, max (total (fun ps => podRequest r ps.pod) s.pods) 0
          + total (fun ps => podRequest r ps.pod) s.pods + podRequest r pod
        ≤ (r.of (nodeCPU, nodeMem)).toInt
  := by
  have hre (r : ResourceName) : 0 ≤ podRequest r pod := podRequest_nonneg (hnonneg r)
  have hpa : SchedulerPlaces s pod (s.computeAllocatable ⟨some nodeCPU, some nodeMem⟩)
      ↔ ∀ r : ResourceName, max (r.of s.used).toInt 0 + (r.of s.used).toInt + podRequest r pod
        ≤ (r.of (nodeCPU, nodeMem)).toInt := by
    apply forall_congr'
    intro r
    rw [← hoverflow.used r]
    cases r with
    | cpu => apply le_remaining_iff (hre .cpu)
    | memory => apply le_remaining_iff (hre .memory)
  simp only [← hoverflow.used]
  rw [hpa, admitPod_of_not_pressed hpressure,
    checkResources_eq_empty_iff_of_fits nodeCPU nodeMem hre hoverflow.request hoverflow.sum]
  constructor
  · intro hi
    by_contra hco
    rw [not_or] at hco
    apply hco.2
    apply hi.mpr
    by_contra hrf
    apply hco.1
    push Not at hrf
    exact hrf
  · rintro (⟨⟨r, hr⟩, r', hpo, hlt⟩ | hpl)
    · apply iff_of_false
      · intro hpl
        have := hpl r'
        omega
      · rintro (hz | hf)
        · apply hr (hz r)
        · have := hf r' hpo
          omega
    · apply iff_of_true hpl
      right
      intro r _
      have := hpl r
      omega

def requestingPod (uid : String) (cpu memory : Int64) : ApiPod :=
  { spec := ⟨.always, [{ name := "a", requests := { cpu := some cpu, memory := some memory } }]⟩
    uid := uid, podNamespace := "default", name := uid }

def busyStore : PodStore :=
  newPodStore.registerPending "u" (requestingPod "u" 600 1024) 0

theorem admitted_not_placed :
  busyStore.admitPod (requestingPod "v" 300 1024) 1000 4096 none = ""
    ∧ ¬ SchedulerPlaces busyStore (requestingPod "v" 300 1024)
      (busyStore.computeAllocatable ⟨some 1000, some 4096⟩)
  := by
  refine ⟨rfl, ?_⟩
  intro h
  exact absurd (h .cpu) (by decide)

theorem placed_iff_admitted_two_cores :
  SchedulerPlaces busyStore (requestingPod "v" 300 1024)
      (busyStore.computeAllocatable ⟨some 2000, some 4096⟩)
    ↔ busyStore.admitPod (requestingPod "v" 300 1024) 2000 4096 none = ""
  := by
  have ho : NoOverflow busyStore (requestingPod "v" 300 1024) := by
    constructor
    · rw [ResourceName.forall_iff]
      exact ⟨rfl, rfl⟩
    all_goals
      rw [ResourceName.forall_iff]
      exact ⟨by decide, by decide⟩
  have hno (r : ResourceName) :
      ∀ c ∈ (requestingPod "v" 300 1024).spec.containers, 0 ≤ (containerRequest r c).toInt := by
    intro c hc
    obtain rfl := mem_singleton.mp hc
    cases r with
    | _ => decide
  apply (placed_iff_admitted_iff 2000 4096 (by rintro ⟨_, ⟨⟩, _⟩) ho hno).mpr
  right
  rw [ResourceName.forall_iff]
  exact ⟨by decide, by decide⟩

end Periapsis.Node
