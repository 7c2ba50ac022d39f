import Periapsis.Node.Probes
import Periapsis.Transition.Ledger
import Periapsis.Transition.System

/-!
# The pod store

The registry of the pods of a node, the index of their names, and the counters of resources and
deletions kept beside them.
-/

namespace Periapsis.Node

open Corev1 Periapsis.Types Transition Finmap

def restartBackoffInit : Duration := 10 * second

def completedTTL : Duration := 24 * hour

structure ContainerRestartState where
  count : Int32 := 0
  backoff : Duration := 0
  lastStarted : Time := 0
  deriving DecidableEq

abbrev CreationHandle := Nat

/-- What is kept of a registered pod. -/
structure PodState where
  pod : ApiPod
  ip : String := ""
  phase : PodPhase := .unset
  hydrated : Bool := false
  inFlight : Option CreationHandle := none
  deleting : Bool := false
  restarts : String → Option ContainerRestartState := fun _ => none
  probes : Option (String → Option ContainerProbeState) := none

structure CompletedEntry where
  uid : String
  deletedAt : Time
  deriving DecidableEq

/-- The store, with the pods by their UIDs. -/
structure PodStore where
  pods : Finmap fun _ : String => PodState
  nameIndex : String → Option String
  completed : String → Option CompletedEntry
  usedCPU : Int64
  usedMem : Int64
  deletingCount : Int32

def newPodStore : PodStore where
  pods := ∅
  nameIndex _ := none
  completed _ := none
  usedCPU := 0
  usedMem := 0
  deletingCount := 0

/-- What the containers of a pod request together. -/
def podResources (pod : ApiPod) : Int64 × Int64 :=
  pod.spec.containers.foldl
    (fun (cpuMillis, memBytes) c =>
      (cpuMillis + c.requests.cpu.getD 0, memBytes + c.requests.memory.getD 0))
    (0, 0)

def nameKey (podNamespace name : String) : String :=
  podNamespace ++ "/" ++ name

/-- The statuses as they are if they cover the specification, and else one for each container, kept
or new. -/
def syncSlice (spec : List Container) (statuses : List ContainerStatus) : List ContainerStatus :=
  let existing (name : String) := statuses.reverse.find? (·.name = name)
  if spec.all fun c => (existing c.name).isSome then statuses
  else spec.map fun c => (existing c.name).getD { name := c.name }

def ApiPod.syncStatusToSpec (pod : ApiPod) : ApiPod :=
  { pod with
    status :=
      { pod.status with
        containerStatuses := syncSlice pod.spec.containers pod.status.containerStatuses
        initContainerStatuses :=
          syncSlice pod.initContainers pod.status.initContainerStatuses } }

def updateStatus (name : String) (state : ContainerState) (ready : Bool) :
    List ContainerStatus → Option (List ContainerStatus)
  | [] => none
  | cs :: statuses =>
    if cs.name = name then some ({ cs with state := state, ready := ready } :: statuses)
    else (updateStatus name state ready statuses).map (cs :: ·)

def enrich (rs : Option ContainerRestartState) (now : Time) (state : ContainerState) :
    ContainerState :=
  match rs with
  | none => state
  | some rs =>
    if rs.lastStarted = 0 then state
    else
      { state with
        running := state.running.map fun r =>
          if r.startedAt = 0 then { r with startedAt := rs.lastStarted } else r
        terminated := state.terminated.map fun t =>
          { t with
            startedAt := if t.startedAt = 0 then rs.lastStarted else t.startedAt
            finishedAt := if t.finishedAt = 0 then now else t.finishedAt } }

namespace PodState

def setPhase (ps : PodState) (phase : PodPhase) : PodState :=
  { ps with
    phase := phase
    pod := { ps.pod with status := { ps.pod.status with phase := phase } } }

def setContainerState (ps : PodState) (name : String) (state : ContainerState) (ready : Bool)
    (now : Time) : PodState :=
  let state := enrich (ps.restarts name) now state
  let pod := ApiPod.syncStatusToSpec ps.pod
  match updateStatus name state ready pod.status.containerStatuses with
  | some statuses =>
    { ps with
      pod := { pod with status := { pod.status with containerStatuses := statuses } } }
  | none =>
    match updateStatus name state ready pod.status.initContainerStatuses with
    | some statuses =>
      { ps with
        pod := { pod with status := { pod.status with initContainerStatuses := statuses } } }
    | none => { ps with pod := pod }

theorem setContainerState_eq
    (ps : PodState) (name : String) (state : ContainerState) (ready : Bool) (now : Time) :
  ∃ status, ps.setContainerState name state ready now
    = { ps with pod := { ps.pod with status := status } }
  := by
  unfold setContainerState
  dsimp only
  split
  · exact ⟨_, rfl⟩
  · split
    all_goals exact ⟨_, rfl⟩

end PodState

namespace PodStore

variable (s : PodStore)

/-- Change a pod if it is registered. -/
def update (uid : String) (f : PodState → PodState) : PodStore :=
  match s.pods.lookup uid with
  | none => s
  | some ps => { s with pods := s.pods.insert uid (f ps) }

def use (cpu mem : Int64) : PodStore :=
  { s with usedCPU := s.usedCPU + cpu, usedMem := s.usedMem + mem }

def put (uid : String) (ps : PodState) : PodStore :=
  { s with
    pods := s.pods.insert uid ps
    nameIndex :=
      Function.update s.nameIndex (nameKey ps.pod.podNamespace ps.pod.name) (some uid) }

def register (uid : String) (ps : PodState) : PodStore :=
  let (cpu, mem) := podResources ps.pod
  (s.put uid ps).use cpu mem

/-! ### Registration -/

def registerPending (uid : String) (pod : ApiPod) (handle : CreationHandle) :
    PodStore :=
  s.register uid { pod := pod, phase := .pending, inFlight := some handle }

def hydratedState (pod : ApiPod) (ip : String) : PodState :=
  { pod := pod, ip := ip, phase := .running, hydrated := true }

def registerHydrated (uid : String) (pod : ApiPod) (ip : String) : PodStore :=
  s.register uid (hydratedState pod ip)

variable {s}

structure HydratedEntry where
  uid : String
  pod : ApiPod
  ip : String
  deriving DecidableEq

def hydrateEntry (acc : PodStore × Int64 × Int64) (e : HydratedEntry) : PodStore × Int64 × Int64 :=
  let (s, totalCPU, totalMem) := acc
  let (cpu, mem) := podResources e.pod
  (s.put e.uid (hydratedState e.pod e.ip), totalCPU + cpu, totalMem + mem)

variable (s)

def registerHydratedBatch (entries : List HydratedEntry) : PodStore :=
  let (s, totalCPU, totalMem) := entries.foldl hydrateEntry (s, 0, 0)
  s.use totalCPU totalMem

/-- Complete a stub, and tell whether there is a pod and whether it was a stub. -/
def alreadyRunning (uid : String) (pod : ApiPod) : PodStore × Bool × Bool :=
  match s.pods.lookup uid with
  | none => (s, false, false)
  | some ps =>
    let wasStub := ps.pod.spec.containers.isEmpty
    if wasStub then
      let (cpu, mem) := podResources pod
      ((s.use cpu mem).update uid fun ps => { ps with pod := pod, hydrated := false },
        true, true)
    else (s.update uid fun ps => { ps with hydrated := false }, true, false)

def expireCompleted (completed : String → Option CompletedEntry) (cutoff : Time) :
    String → Option CompletedEntry :=
  fun key => (completed key).filter fun e => ¬ e.deletedAt < cutoff

/-- Remove a pod and keep its UID as completed. -/
def unregister (uid podNamespace name : String) (deletedAt now : Time) :
    PodStore :=
  let key := nameKey podNamespace name
  let completed :=
    expireCompleted (Function.update s.completed key (some ⟨uid, deletedAt⟩))
      (now - completedTTL.toInt)
  match s.pods.lookup uid with
  | none => { s with completed := completed }
  | some ps =>
    let (cpu, mem) := podResources ps.pod
    { s with
      pods := s.pods.erase uid
      nameIndex := Function.update s.nameIndex key none
      completed := completed
      usedCPU := s.usedCPU + -cpu
      usedMem := s.usedMem + -mem
      deletingCount := if ps.deleting then s.deletingCount + -1 else s.deletingCount }

def drop (uid : String) (ps : PodState) : PodStore :=
  { s with
    pods := s.pods.erase uid
    nameIndex := Function.update s.nameIndex (nameKey ps.pod.podNamespace ps.pod.name) none }

def evictGhost (uid : String) : PodStore :=
  match s.pods.lookup uid with
  | none => s
  | some ps =>
    let (cpu, mem) := podResources ps.pod
    (s.drop uid ps).use (-cpu) (-mem)

variable {s}

def purgeEntry (acc : PodStore × Int64 × Int64) (uid : String) : PodStore × Int64 × Int64 :=
  let (s, subCPU, subMem) := acc
  match s.pods.lookup uid with
  | none => acc
  | some ps =>
    let (cpu, mem) := podResources ps.pod
    (s.drop uid ps, subCPU + cpu, subMem + mem)

variable (s)

def purgeHydrated (staleUIDs : List String) : PodStore :=
  let (s, subCPU, subMem) := staleUIDs.foldl purgeEntry (s, 0, 0)
  s.use (-subCPU) (-subMem)

/-! ### Changes to a registered pod -/

def promoteRunning (uid : String) (pod : ApiPod) (ip : String) : PodStore :=
  s.update uid fun ps => { ps with pod := pod, ip := ip, phase := .running, inFlight := none }

def markFailed (uid : String) (pod : ApiPod) (reason message : String) :
    PodStore × ApiPod :=
  let failedPod :=
    { pod with
      status := { pod.status with phase := .failed, reason := reason, message := message } }
  (s.update uid fun ps => { ps with pod := failedPod, phase := .failed }, failedPod)

def setPhase (uid : String) (phase : PodPhase) : PodStore :=
  s.update uid fun ps => ps.setPhase phase

def setPodStatus (uid : String) (status : PodStatus) : PodStore :=
  s.update uid fun ps =>
    let ps := ps.setPhase status.phase
    { ps with pod := { ps.pod with status := status } }

def setContainerState (uid containerName : String) (state : ContainerState) (ready : Bool)
    (now : Time) : PodStore :=
  s.update uid fun ps => ps.setContainerState containerName state ready now

def setPodIP (uid ip : String) : PodStore :=
  s.update uid fun ps => { ps with ip := ip }

def clearHydrated (uid : String) : PodStore :=
  s.update uid fun ps => { ps with hydrated := false }

def markDeleting (uid : String) : PodStore :=
  match s.pods.lookup uid with
  | none => s
  | some ps =>
    if ps.deleting then s
    else
      { s.update uid fun ps => { ps with deleting := true } with
        deletingCount := s.deletingCount + 1 }

/-! ### Restarts and probes -/

def initRestarts (containers : List ContainerInitPayload) (now : Nat → Time) :
    String → Option ContainerRestartState :=
  containers.zipIdx.foldl
    (fun restarts (c, i) =>
      Function.update restarts c.name
        (some { backoff := restartBackoffInit, lastStarted := now i }))
    fun _ => none

def initProbes (containers : List ContainerInitPayload) (now : Nat → Time) :
    String → Option ContainerProbeState :=
  containers.zipIdx.foldl
    (fun probes (c, i) =>
      Function.update probes c.name (some { startedAt := now i, ready := !c.hasReadinessProbe }))
    fun _ => none

def initRestartStateFrom (uid : String) (containers : List ContainerInitPayload)
    (started probed : Nat → Time) : PodStore :=
  s.update uid fun ps =>
    { ps with
      restarts := initRestarts containers started
      probes := some (initProbes containers probed) }

def initRestartState (pod : ApiPod) (started probed : Nat → Time) : PodStore :=
  s.initRestartStateFrom pod.uid
    (pod.spec.containers.map fun c => ⟨c.name, c.readinessProbe.isSome⟩) started probed

def restartState (uid containerName : String) : Option ContainerRestartState :=
  (s.pods.lookup uid).bind fun ps => ps.restarts containerName

def updateRestartState (uid containerName : String)
    (f : ContainerRestartState → ContainerRestartState) : PodStore :=
  s.update uid fun ps =>
    { ps with
      restarts :=
        match ps.restarts containerName with
        | none => ps.restarts
        | some rs => Function.update ps.restarts containerName (some (f rs)) }

def bumpBackoff (uid containerName : String) : PodStore × Int32 × Duration :=
  match s.restartState uid containerName with
  | none => (s, 0, 0)
  | some rs =>
    let doubled := rs.backoff * 2
    let capped := if 5 * minute < doubled then 5 * minute else doubled
    (s.updateRestartState uid containerName fun rs =>
        { rs with count := rs.count + 1, backoff := capped },
      rs.count + 1, rs.backoff)

def markRestarted (uid containerName : String) (now : Time) : PodStore :=
  s.updateRestartState uid containerName fun rs => { rs with lastStarted := now }

def resetBackoff (uid containerName : String) : PodStore :=
  s.updateRestartState uid containerName fun rs => { rs with backoff := restartBackoffInit }

def incrementRestart (uid containerName : String) (now : Time) : PodStore :=
  s.updateRestartState uid containerName fun rs =>
    { rs with count := rs.count + 1, lastStarted := now }

def patchRestartCount (uid containerName : String) (count : Int32) : PodStore :=
  s.updateRestartState uid containerName fun rs => { rs with count := count }

def patchBackoff (uid containerName : String) (backoff : Duration) : PodStore :=
  s.updateRestartState uid containerName fun rs => { rs with backoff := backoff }

def probeState (uid containerName : String) : Option ContainerProbeState :=
  (s.pods.lookup uid).bind fun ps => ps.probes.bind fun probes => probes containerName

def updateProbeState (uid containerName : String)
    (f : ContainerProbeState → ContainerProbeState) : PodStore :=
  s.update uid fun ps =>
    { ps with
      probes := ps.probes.map fun probes =>
        match probes containerName with
        | none => probes
        | some state => Function.update probes containerName (some (f state)) }

def resetProbeState (uid containerName : String) (now : Time) : PodStore :=
  s.update uid fun ps =>
    { ps with
      probes := ps.probes.map fun probes =>
        Function.update probes containerName (some { startedAt := now }) }

/-! ### Queries -/

def hasPod (uid : String) : Bool :=
  (s.pods.lookup uid).isSome

def isInFlight (uid : String) : Bool :=
  match s.pods.lookup uid with
  | none => false
  | some ps => ps.inFlight.isSome

def isDeleting (uid : String) : Bool :=
  match s.pods.lookup uid with
  | none => false
  | some ps => ps.deleting

def deletionsInProgress : Bool :=
  0 < s.deletingCount

structure QueryError where
  message : String
  notFound : Bool := false
  deriving DecidableEq

def podNotFound (podNamespace name : String) : String :=
  "pod " ++ podNamespace ++ "/" ++ name ++ " not found"

def getPod (podNamespace name : String) : Except QueryError ApiPod :=
  match s.nameIndex (nameKey podNamespace name) with
  | none => .error ⟨podNotFound podNamespace name, true⟩
  | some uid =>
    match s.pods.lookup uid with
    | none => .error ⟨podNotFound podNamespace name, true⟩
    | some ps => .ok ps.pod

def findPodUID (podNamespace podName : String) : Except QueryError String :=
  match s.nameIndex (nameKey podNamespace podName) with
  | none => .error ⟨podNotFound podNamespace podName, false⟩
  | some uid => .ok uid

theorem markDeleting_eq (uid : String) :
  s.markDeleting uid = s
    ∨ s.markDeleting uid = { s.update uid fun ps => { ps with deleting := true } with
        deletingCount := s.deletingCount + 1 }
  := by
  unfold markDeleting
  split
  · exact .inl rfl
  · split
    · exact .inl rfl
    · exact .inr rfl

theorem alreadyRunning_eq (uid : String) (pod : ApiPod) :
  (s.alreadyRunning uid pod).1 = s
    ∨ (s.alreadyRunning uid pod).1
      = ((s.use (podResources pod).1 (podResources pod).2).update uid
          fun ps => { ps with pod := pod, hydrated := false })
    ∨ (s.alreadyRunning uid pod).1 = s.update uid fun ps => { ps with hydrated := false }
  := by
  unfold alreadyRunning
  split
  · exact .inl rfl
  · dsimp only
    split
    · exact .inr (.inl rfl)
    · exact .inr (.inr rfl)

variable {s}

variable {uid : String} {ps : PodState}

theorem alreadyRunning_of_containers (h : s.pods.lookup uid = some ps)
    (hps : ps.pod.spec.containers ≠ []) :
  s.alreadyRunning uid pod = (s.update uid fun ps => { ps with hydrated := false }, true, false)
  := by
  unfold alreadyRunning
  rw [h]
  dsimp only
  rw [if_neg (by simpa using hps)]

theorem alreadyRunning_of_stub (h : s.pods.lookup uid = some ps)
    (hps : ps.pod.spec.containers = []) :
  s.alreadyRunning uid pod
    = ((s.use (podResources pod).1 (podResources pod).2).update uid
        fun ps => { ps with pod := pod, hydrated := false }, true, true)
  := by
  unfold alreadyRunning
  rw [h]
  dsimp only
  rw [if_pos (by simpa using hps)]

theorem bumpBackoff_eq (s : PodStore) (uid containerName : String) :
  (s.bumpBackoff uid containerName).1 = s
    ∨ ∃ f, (s.bumpBackoff uid containerName).1 = s.updateRestartState uid containerName f
  := by
  unfold bumpBackoff
  split
  · exact .inl rfl
  · exact .inr ⟨_, rfl⟩

section Lookup

variable (s uid) (uid' : String)

theorem lookup_update (f : PodState → PodState) :
  (s.update uid' f).pods.lookup uid
    = if uid = uid' then (s.pods.lookup uid).map f else s.pods.lookup uid
  := by
  unfold update
  by_cases heq : uid = uid'
  · subst heq
    rw [if_pos rfl]
    split
    next hn =>
      rw [hn]
      rfl
    next ps hso =>
      rw [hso, lookup_insert]
      rfl
  · rw [if_neg heq]
    split
    · rfl
    · rw [lookup_insert_of_ne _ heq]

theorem update_of_fixed (h : ∀ ps, s.pods.lookup uid = some ps → f ps = ps) :
  s.update uid f = s
  := by
  unfold update
  split
  · rfl
  next ps hps =>
    rw [h ps hps, insert_of_lookup _ _ hps]

theorem lookup_put_of_ne (h : uid ≠ uid') (ps : PodState) :
  (s.put uid' ps).pods.lookup uid = s.pods.lookup uid
  := lookup_insert_of_ne _ h

theorem lookup_drop_of_ne (h : uid ≠ uid') (ps : PodState) :
  (s.drop uid' ps).pods.lookup uid = s.pods.lookup uid
  := lookup_erase_ne h

theorem lookup_erase_eq (pods : Finmap fun _ : String => PodState) :
  (pods.erase uid').lookup uid = if uid = uid' then none else pods.lookup uid
  := by
  split_ifs with heq
  · rw [heq]
    apply lookup_erase
  · apply lookup_erase_ne heq

theorem lookup_eq_of_none (h : s.pods.lookup uid' = none) :
  s.pods.lookup uid = if uid = uid' then none else s.pods.lookup uid
  := by
  split_ifs with heq
  · rw [heq, h]
  · rfl

theorem lookup_evictGhost :
  (s.evictGhost uid').pods.lookup uid = if uid = uid' then none else s.pods.lookup uid
  := by
  unfold evictGhost
  split
  next hn =>
    apply lookup_eq_of_none _ _ _ hn
  · apply lookup_erase_eq

theorem lookup_unregister (podNamespace name : String) (deletedAt now : Time) :
  (s.unregister uid' podNamespace name deletedAt now).pods.lookup uid
    = if uid = uid' then none else s.pods.lookup uid
  := by
  unfold unregister
  split
  next hn =>
    apply lookup_eq_of_none _ _ _ hn
  · apply lookup_erase_eq

theorem lookup_registerHydratedBatch {entries : List HydratedEntry}
    (h : uid ∉ entries.map HydratedEntry.uid) :
  (s.registerHydratedBatch entries).pods.lookup uid = s.pods.lookup uid
  := by
  apply foldl_eq fun acc : PodStore × Int64 × Int64 => acc.1.pods.lookup uid
  intro e he acc
  apply lookup_put_of_ne
  rintro rfl
  exact h (List.mem_map_of_mem he)

theorem lookup_purgeHydrated (h : uid ∉ uids) :
  (s.purgeHydrated uids).pods.lookup uid = s.pods.lookup uid
  := by
  apply foldl_eq fun acc : PodStore × Int64 × Int64 => acc.1.pods.lookup uid
  intro uid' hui acc
  unfold purgeEntry
  dsimp only
  split
  · rfl
  · apply lookup_drop_of_ne
    rintro rfl
    exact h hui

end Lookup

end PodStore

/-! ### The store as a system -/

open PodStore

/-- A call that changes the store. -/
inductive StoreOp where
  | registerPending (uid : String) (pod : ApiPod) (handle : CreationHandle)
  | registerHydrated (uid : String) (pod : ApiPod) (ip : String)
  | registerHydratedBatch (entries : List HydratedEntry)
  | alreadyRunning (uid : String) (pod : ApiPod)
  | promoteRunning (uid : String) (pod : ApiPod) (ip : String)
  | markFailed (uid : String) (pod : ApiPod) (reason message : String)
  | unregister (uid podNamespace name : String) (deletedAt now : Time)
  | evictGhost (uid : String)
  | purgeHydrated (staleUIDs : List String)
  | setPodStatus (uid : String) (status : PodStatus)
  | setPhase (uid : String) (phase : PodPhase)
  | setContainerState (uid containerName : String) (state : ContainerState) (ready : Bool)
      (now : Time)
  | setPodIP (uid ip : String)
  | clearHydrated (uid : String)
  | markDeleting (uid : String)
  | initRestartState (pod : ApiPod) (started probed : Nat → Time)
  | initRestartStateFrom (uid : String) (containers : List ContainerInitPayload)
      (started probed : Nat → Time)
  | bumpBackoff (uid containerName : String)
  | markRestarted (uid containerName : String) (now : Time)
  | resetBackoff (uid containerName : String)
  | updateProbeState (uid containerName : String)
      (f : ContainerProbeState → ContainerProbeState)
  | resetProbeState (uid containerName : String) (now : Time)
  | incrementRestart (uid containerName : String) (now : Time)
  | patchRestartCount (uid containerName : String) (count : Int32)
  | patchBackoff (uid containerName : String) (backoff : Duration)

def PodStore.apply (s : PodStore) : StoreOp → PodStore
  | .registerPending uid pod handle => s.registerPending uid pod handle
  | .registerHydrated uid pod ip => s.registerHydrated uid pod ip
  | .registerHydratedBatch entries => s.registerHydratedBatch entries
  | .alreadyRunning uid pod => (s.alreadyRunning uid pod).1
  | .promoteRunning uid pod ip => s.promoteRunning uid pod ip
  | .markFailed uid pod reason message => (s.markFailed uid pod reason message).1
  | .unregister uid podNamespace name deletedAt now =>
    s.unregister uid podNamespace name deletedAt now
  | .evictGhost uid => s.evictGhost uid
  | .purgeHydrated staleUIDs => s.purgeHydrated staleUIDs
  | .setPodStatus uid status => s.setPodStatus uid status
  | .setPhase uid phase => s.setPhase uid phase
  | .setContainerState uid containerName state ready now =>
    s.setContainerState uid containerName state ready now
  | .setPodIP uid ip => s.setPodIP uid ip
  | .clearHydrated uid => s.clearHydrated uid
  | .markDeleting uid => s.markDeleting uid
  | .initRestartState pod started probed => s.initRestartState pod started probed
  | .initRestartStateFrom uid containers started probed =>
    s.initRestartStateFrom uid containers started probed
  | .bumpBackoff uid containerName => (s.bumpBackoff uid containerName).1
  | .markRestarted uid containerName now => s.markRestarted uid containerName now
  | .resetBackoff uid containerName => s.resetBackoff uid containerName
  | .updateProbeState uid containerName f => s.updateProbeState uid containerName f
  | .resetProbeState uid containerName now => s.resetProbeState uid containerName now
  | .incrementRestart uid containerName now => s.incrementRestart uid containerName now
  | .patchRestartCount uid containerName count => s.patchRestartCount uid containerName count
  | .patchBackoff uid containerName backoff => s.patchBackoff uid containerName backoff

/-- The call updates one pod at most. -/
def StoreOp.isLocal : StoreOp → Bool
  | .registerPending .. => false
  | .registerHydrated .. => false
  | .registerHydratedBatch .. => false
  | .unregister .. => false
  | .evictGhost .. => false
  | .purgeHydrated .. => false
  | .markDeleting .. => false
  | _ => true

def StoreOp.replacement : StoreOp → Option (String × ApiPod)
  | .alreadyRunning uid pod => some (uid, pod)
  | .promoteRunning uid pod _ => some (uid, pod)
  | .markFailed uid pod _ _ => some (uid, pod)
  | _ => none

def StoreOp.isQuiet : StoreOp → Bool
  | .alreadyRunning .. => false
  | .promoteRunning .. => false
  | .markFailed .. => false
  | .setPodStatus .. => false
  | .setPhase .. => false
  | .setPodIP .. => false
  | .clearHydrated .. => false
  | _ => true

/-- The objects differ in their statuses at most. -/
def SameObject (pod pod' : ApiPod) : Prop :=
  { pod with status := {} } = { pod' with status := {} }

/-- What a local call does to its pod. -/
structure StoreOp.Touches (op : StoreOp) (uid : String) (f : PodState → PodState) : Prop where
  deleting : ∀ ps, (f ps).deleting = ps.deleting
  pod : ∀ ps, SameObject (f ps).pod ps.pod
    ∨ ∃ pod, op.replacement = some (uid, pod) ∧ SameObject (f ps).pod pod
  quiet : op.isQuiet → ∀ ps, (f ps).ip = ps.ip ∧ (f ps).phase = ps.phase
    ∧ (f ps).hydrated = ps.hydrated

theorem PodStore.apply_local (s : PodStore) (op : StoreOp) (h : op.isLocal) :
  ∃ uid f cpu mem, s.apply op = (s.use cpu mem).update uid f ∧ op.Touches uid f
  := by
  have hus : s.use 0 0 = s := by
    unfold use
    rw [Int64.add_zero, Int64.add_zero]
  have hu (uid : String) (f : PodState → PodState) (heq : s.apply op = s.update uid f)
      (hf : op.Touches uid f) :
      ∃ uid f cpu mem, s.apply op = (s.use cpu mem).update uid f ∧ op.Touches uid f := by
    use uid, f, 0, 0
    rw [hus]
    exact ⟨heq, hf⟩
  cases op with
  | alreadyRunning uid pod =>
    rcases s.alreadyRunning_eq uid pod with heq | heq | heq
    · apply hu uid id (heq.trans (s.update_of_fixed uid fun _ _ => rfl).symm)
      exact ⟨fun _ => rfl, fun _ => .inl rfl, nofun⟩
    · exact ⟨_, _, _, _, heq, fun _ => rfl, fun _ => .inr ⟨pod, rfl, rfl⟩, nofun⟩
    · apply hu _ _ heq
      exact ⟨fun _ => rfl, fun _ => .inl rfl, nofun⟩
  | bumpBackoff uid containerName =>
    rcases s.bumpBackoff_eq uid containerName with heq | ⟨f, heq⟩
    · apply hu uid id (heq.trans (s.update_of_fixed uid fun _ _ => rfl).symm)
      exact ⟨fun _ => rfl, fun _ => .inl rfl, fun _ _ => ⟨rfl, rfl, rfl⟩⟩
    · apply hu _ _ heq
      exact ⟨fun _ => rfl, fun _ => .inl rfl, fun _ _ => ⟨rfl, rfl, rfl⟩⟩
  | setContainerState uid containerName state ready now =>
    apply hu _ _ rfl
    have hs (ps : PodState) := ps.setContainerState_eq containerName state ready now
    constructor
    · intro ps
      obtain ⟨status, heq⟩ := hs ps
      rw [heq]
    · intro ps
      obtain ⟨status, heq⟩ := hs ps
      rw [heq]
      exact .inl rfl
    · intro _ ps
      obtain ⟨status, heq⟩ := hs ps
      rw [heq]
      exact ⟨rfl, rfl, rfl⟩
  | promoteRunning uid pod | markFailed uid pod =>
    apply hu _ _ rfl
    exact ⟨fun _ => rfl, fun _ => .inr ⟨pod, rfl, rfl⟩, nofun⟩
  | registerPending | registerHydrated | registerHydratedBatch | unregister | evictGhost
  | purgeHydrated | markDeleting => cases h
  | setPodStatus | setPhase | setPodIP | clearHydrated =>
    apply hu _ _ rfl
    exact ⟨fun _ => rfl, fun _ => .inl rfl, nofun⟩
  | _ =>
    apply hu _ _ rfl
    exact ⟨fun _ => rfl, fun _ => .inl rfl, fun _ _ => ⟨rfl, rfl, rfl⟩⟩

def podStore : System PodStore StoreOp where
  step s op := some (s.apply op)

end Periapsis.Node
