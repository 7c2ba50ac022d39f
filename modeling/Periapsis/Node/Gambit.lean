import Periapsis.Node.Admission
import Mathlib.Data.List.Sort

/-!
# The provider

`Gambit` has the pods of a node in its store and writes what it reports of each of them to a file of
its own.
-/

namespace Periapsis.Node

open Corev1 PodStore

structure PawnConfig where
  cpu : Int64
  memory : Int64
  deriving DecidableEq

def fourCores : PawnConfig :=
  ⟨4000, 8589934592⟩

/-- What a call reads of its surroundings; `ok` tells whether the requests made to the API server
succeed. -/
structure Readings where
  pressure : Option HostPressure := none
  clock : Nat → Time := fun _ => 0
  now : Time := 0
  handle : CreationHandle := 0
  ok : Bool := true

structure PersistedPodState where
  pod : ApiPod
  podIP : String
  phase : PodPhase
  restarts : String → Option Int32
  backoffs : String → Option Duration

structure ManagedMachine where
  uid : String
  podNamespace : String
  name : String
  podIP : String := ""
  deriving DecidableEq

structure Gambit where
  store : PodStore
  podStates : List PersistedPodState

def newGambit : Gambit where
  store := newPodStore
  podStates := []

namespace Gambit

variable (g : Gambit)

def deletePodState (uid : String) : Gambit :=
  { g with podStates := g.podStates.filter fun state => state.pod.uid ≠ uid }

def writePodState (state : PersistedPodState) : Gambit :=
  { g with
    podStates := (g.deletePodState state.pod.uid).podStates.orderedInsert
      (fun a b => a.pod.uid ≤ b.pod.uid) state }

def persistedState (pod : ApiPod) (phase : PodPhase) : PersistedPodState where
  pod := pod
  podIP := ((g.store.pods.lookup pod.uid).map PodState.ip).getD ""
  phase := phase
  restarts name := (g.store.restartState pod.uid name).map ContainerRestartState.count
  backoffs name := (g.store.restartState pod.uid name).map ContainerRestartState.backoff

def persistPodState (pod : ApiPod) : Gambit :=
  g.writePodState
    (g.persistedState pod (((g.store.pods.lookup pod.uid).map PodState.phase).getD .unset))

/-- `GetPod`. -/
def getPod (podNamespace name : String) : Option ApiPod :=
  (g.store.getPod podNamespace name).toOption

variable {g}

def createPod (cfg : PawnConfig) (r : Readings) (g : Gambit) (pod : ApiPod) :
    Gambit × Option String :=
  if pod.spec.containers = [] then (g, none)
  else
    let reason := g.store.admitPod pod cfg.cpu cfg.memory r.pressure
    if reason ≠ "" then (g, some ("Pod admission: " ++ reason))
    else if g.store.isInFlight pod.uid then (g, none)
    else
      let (store, alreadyRunning, wasStub) := g.store.alreadyRunning pod.uid pod
      if alreadyRunning then
        ({ g with
            store := if wasStub then store.initRestartState pod r.clock r.clock else store },
          none)
      else ({ g with store := store.registerPending pod.uid pod r.handle }, none)

def updatePod (g : Gambit) (_pod : ApiPod) : Gambit × Option String :=
  (g, none)

def deletePod (r : Readings) (g : Gambit) (pod : ApiPod) : Gambit :=
  let g := { g with store := g.store.markDeleting pod.uid }
  let g := g.deletePodState pod.uid
  { g with
    store := g.store.unregister pod.uid pod.podNamespace pod.name (r.clock 0) r.now }

def evictGhost (g : Gambit) (uid : String) : Gambit :=
  { g with store := g.store.evictGhost uid }.deletePodState uid

def cleanStaleDirs (g : Gambit) : Gambit :=
  { g with podStates := g.podStates.filter fun state => g.store.hasPod state.pod.uid }

def restoreRestarts (clock : Nat → Time) (store : PodStore) (state : PersistedPodState) :
    PodStore :=
  let store := store.initRestartState state.pod clock clock
  let store := state.pod.containerNames.foldl
    (fun store name =>
      match state.restarts name with
      | none => store
      | some count => store.patchRestartCount state.pod.uid name count)
    store
  state.pod.containerNames.foldl
    (fun store name =>
      match state.backoffs name with
      | none => store
      | some backoff => store.patchBackoff state.pod.uid name backoff)
    store

def adoptMachine (clock : Nat → Time) (diskUIDs : List String) (store : PodStore)
    (m : ManagedMachine) : PodStore :=
  if m.uid = "" ∨ m.uid ∈ diskUIDs ∨ m.name = "" ∨ m.podNamespace = "" then store
  else
    let pod : ApiPod :=
      { spec := {}, uid := m.uid, podNamespace := m.podNamespace, name := m.name }
    (store.registerHydrated m.uid pod m.podIP).initRestartState pod clock clock

def hydrateFromRuntime (clock : Nat → Time) (states : List PersistedPodState)
    (machines : List ManagedMachine) : Gambit :=
  let restored := states.filter fun state => ¬ state.phase.terminal
  let store := newPodStore.registerHydratedBatch
    (restored.map fun state => ⟨state.pod.uid, state.pod, state.podIP⟩)
  let store := restored.foldl (restoreRestarts clock) store
  let store := machines.foldl (adoptMachine clock (restored.map (·.pod.uid))) store
  { store := store
    podStates := states.filter fun state =>
      ((store.pods.lookup state.pod.uid).map PodState.hydrated).getD false }

inductive CreatesPod (cfg : PawnConfig) (r : Readings) (g : Gambit) (pod : ApiPod) :
    Gambit × Option String → Prop
  | empty (hcontainers : pod.spec.containers = []) : CreatesPod cfg r g pod (g, none)
  | rejected (hcontainers : pod.spec.containers ≠ [])
      (hreason : g.store.admitPod pod cfg.cpu cfg.memory r.pressure ≠ "") :
      CreatesPod cfg r g pod
        (g, some ("Pod admission: " ++ g.store.admitPod pod cfg.cpu cfg.memory r.pressure))
  | inFlight {ps : PodState} (hcontainers : pod.spec.containers ≠ [])
      (hreason : g.store.admitPod pod cfg.cpu cfg.memory r.pressure = "")
      (hps : g.store.pods.lookup pod.uid = some ps) (hflight : ps.inFlight.isSome = true) :
      CreatesPod cfg r g pod (g, none)
  | running {ps : PodState} (hcontainers : pod.spec.containers ≠ [])
      (hreason : g.store.admitPod pod cfg.cpu cfg.memory r.pressure = "")
      (hps : g.store.pods.lookup pod.uid = some ps) (hspec : ps.pod.spec.containers ≠ []) :
      CreatesPod cfg r g pod
        ({ g with store := g.store.update pod.uid fun ps => { ps with hydrated := false } }, none)
  | stub {ps : PodState} (hcontainers : pod.spec.containers ≠ [])
      (hreason : g.store.admitPod pod cfg.cpu cfg.memory r.pressure = "")
      (hps : g.store.pods.lookup pod.uid = some ps) (hidle : ps.inFlight = none)
      (hspec : ps.pod.spec.containers = []) :
      CreatesPod cfg r g pod
        ({ g with
            store := ((g.store.use (podResources pod).1 (podResources pod).2).update pod.uid
              fun ps => { ps with pod := pod, hydrated := false }).initRestartState pod r.clock
                r.clock },
          none)
  | registered (hcontainers : pod.spec.containers ≠ [])
      (hreason : g.store.admitPod pod cfg.cpu cfg.memory r.pressure = "")
      (hps : g.store.pods.lookup pod.uid = none) :
      CreatesPod cfg r g pod
        ({ g with store := g.store.registerPending pod.uid pod r.handle }, none)

theorem createsPod (cfg : PawnConfig) (r : Readings) (g : Gambit) (pod : ApiPod) :
  CreatesPod cfg r g pod (g.createPod cfg r pod)
  := by
  unfold createPod
  split
  next hc =>
    apply CreatesPod.empty hc
  rename_i hc
  dsimp only
  split
  next hr =>
    apply CreatesPod.rejected hc hr
  rename_i hr
  rw [not_not] at hr
  cases hps : g.store.pods.lookup pod.uid with
  | none =>
    rw [isInFlight, alreadyRunning, hps]
    apply CreatesPod.registered hc hr hps
  | some ps =>
    have hf : g.store.isInFlight pod.uid = ps.inFlight.isSome := by
      rw [isInFlight, hps]
    rw [hf]
    split
    next hso =>
      apply CreatesPod.inFlight hc hr hps hso
    next hi =>
      by_cases hs : ps.pod.spec.containers = []
      · rw [alreadyRunning_of_stub hps hs]
        apply CreatesPod.stub hc hr hps _ hs
        rw [← Option.not_isSome_iff_eq_none]
        apply hi
      · rw [alreadyRunning_of_containers hps hs]
        apply CreatesPod.running hc hr hps hs

/-- The goroutine that a call of `CreatePod` starts. -/
def startedCreation (cfg : PawnConfig) (r : Readings) (g : Gambit) (pod : ApiPod) :
    Option CreationHandle :=
  if pod.spec.containers = [] then none
  else if g.store.admitPod pod cfg.cpu cfg.memory r.pressure ≠ "" then none
  else if g.store.isInFlight pod.uid then none
  else if (g.store.alreadyRunning pod.uid pod).2.1 then none
  else some r.handle

variable {cfg : PawnConfig} {r : Readings} {pod : ApiPod}

theorem startedCreation_isSome_iff :
  (g.startedCreation cfg r pod).isSome
    ↔ pod.spec.containers ≠ [] ∧ g.store.admitPod pod cfg.cpu cfg.memory r.pressure = ""
      ∧ g.store.pods.lookup pod.uid = none
  := by
  unfold startedCreation
  cases hps : g.store.pods.lookup pod.uid with
  | none =>
    by_cases hc : pod.spec.containers = []
    · simp [hc]
    · by_cases hr : g.store.admitPod pod cfg.cpu cfg.memory r.pressure = ""
      · simp [hc, hr, isInFlight, alreadyRunning, hps]
      · simp [hc, hr]
  | some ps =>
    have hru : (g.store.alreadyRunning pod.uid pod).2.1 := by
      rw [alreadyRunning, hps]
      dsimp only
      split
      all_goals rfl
    simp [hru]

variable {result : Gambit × Option String}

theorem CreatesPod.error_iff (h : CreatesPod cfg r g pod result) :
  result.2 = none
    ↔ pod.spec.containers = [] ∨ g.store.admitPod pod cfg.cpu cfg.memory r.pressure = ""
  := by
  cases h with
  | empty hc => simp [hc]
  | rejected hc hr => simp [hc, hr]
  | inFlight _ hr | running _ hr | stub _ hr | registered _ hr =>
    simp [hr]

theorem CreatesPod.balanced (h : CreatesPod cfg r g pod result) (hg : g.store.Balanced) :
  result.1.store.Balanced
  := by
  cases h with
  | empty | rejected | inFlight => exact hg
  | running =>
    apply hg.update
    intro ps _
    rfl
  | stub _ _ hps _ hs =>
    have hsp := hg.alreadyRunning pod.uid pod
    rw [alreadyRunning_of_stub hps hs] at hsp
    apply hsp.update
    intro ps _
    rfl
  | registered _ _ hps =>
    apply hg.register
    intro ps hso
    cases hps.symm.trans hso

/-- Without pressure on the host, creating a registered pod again does no harm exactly if it
requests nothing, or fits beside what is already counted as used. -/
theorem createPod_again_iff {ps : PodState} (hbalanced : g.store.Balanced)
    (hps : g.store.pods.lookup pod.uid = some ps) (hcontainers : pod.spec.containers ≠ [])
    (hpressure : ¬ PodStore.Pressed r.pressure) :
  ((g.createPod cfg r pod).2 = none ∧ g.startedCreation cfg r pod = none
      ∧ (g.createPod cfg r pod).1.store.Balanced)
    ↔ podResources pod = 0
      ∨ ∀ r : ResourceName, 0 < r.of (cfg.cpu, cfg.memory) →
          ¬ r.of (cfg.cpu, cfg.memory) < r.of (g.store.used + podResources pod)
  := by
  have hst : g.startedCreation cfg r pod = none := by
    rw [← Option.not_isSome_iff_eq_none, startedCreation_isSome_iff]
    rintro ⟨-, -, hn⟩
    cases hps.symm.trans hn
  have hcr := createsPod cfg r g pod
  rw [and_iff_left ⟨hst, hcr.balanced hbalanced⟩, hcr.error_iff,
    or_iff_right hcontainers, admitPod_of_not_pressed hpressure,
    checkResources_eq_empty_iff]

end Gambit

def busyGambit : Gambit where
  store := busyStore
  podStates := []

theorem createPod_again_two_cores :
  ∃ ps, busyGambit.store.pods.lookup "u" = some ps
    ∧ (busyGambit.createPod ⟨2000, 4096⟩ {} (requestingPod "u" 600 1024)).2 = none
    ∧ busyGambit.startedCreation ⟨2000, 4096⟩ {} (requestingPod "u" 600 1024) = none
    ∧ (busyGambit.createPod ⟨2000, 4096⟩ {} (requestingPod "u" 600 1024)).1.store.Balanced
  := by
  have hp : ¬ PodStore.Pressed ({} : Readings).pressure := by
    rintro ⟨_, ⟨⟩, _⟩
  have hb : busyGambit.store.Balanced := rfl
  refine ⟨_, rfl, (Gambit.createPod_again_iff hb rfl (by decide) hp).mpr ?_⟩
  right
  rw [ResourceName.forall_iff]
  exact ⟨by decide, by decide⟩

theorem createPod_again_rejected :
  (∃ ps, busyGambit.store.pods.lookup "u" = some ps
      ∧ ps.pod = requestingPod "u" 600 1024 ∧ ps.inFlight.isSome = true)
    ∧ busyGambit.store.Balanced
    ∧ (busyGambit.createPod ⟨1000, 4096⟩ {} (requestingPod "u" 600 1024)).2
      = some "Pod admission: Insufficient cpu: requested 600m, used 600m, capacity 1000m"
  := ⟨⟨_, rfl, rfl, rfl⟩, rfl, by decide⟩

end Periapsis.Node
