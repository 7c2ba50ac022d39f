import Periapsis.Node.Gambit

/-!
# The pod controller

The controller has a copy of the pod objects of its node, which lags behind the API server.
-/

namespace Periapsis.Node

open Corev1 Transition Option Function

/-- The key of a pod object. -/
structure PodKey where
  podNamespace : String
  name : String
  deriving DecidableEq

def podKey (pod : ApiPod) : PodKey :=
  ⟨pod.podNamespace, pod.name⟩

def podsEqual (pod1 pod2 : ApiPod) : Bool :=
  pod1.spec.containers = pod2.spec.containers
    && pod1.initContainers = pod2.initContainers
    && pod1.ephemeralContainers = pod2.ephemeralContainers
    && pod1.activeDeadlineSeconds = pod2.activeDeadlineSeconds
    && pod1.tolerations = pod2.tolerations
    && pod1.labels = pod2.labels
    && pod1.annotations = pod2.annotations

def podsEffectivelyEqual (p1 p2 : ApiPod) : Bool :=
  { p1 with status := {} } = { p2 with status := {} }

def podShouldEnqueue (oldPod newPod : ApiPod) : Bool :=
  !podsEqual oldPod newPod
    || oldPod.deletionGracePeriodSeconds ≠ newPod.deletionGracePeriodSeconds
    || oldPod.deletionTimestamp ≠ newPod.deletionTimestamp

def running (podStatus : PodStatus) : Bool :=
  podStatus.containerStatuses.any fun status =>
    status.state.terminated.isNone && status.state.waiting.isNone

def shouldSkipPodStatusUpdate (pod : ApiPod) : Bool :=
  pod.status.phase.terminal

def loggablePodName (pod : ApiPod) : String :=
  "\"" ++ pod.podNamespace ++ "/" ++ pod.name ++ "\""

structure KnownPod where
  lastPodStatusReceivedFromProvider : Option ApiPod := none
  lastPodUsed : Option ApiPod := none
  lastPodStatusUpdateSkipped : Bool := false
  deriving DecidableEq

inductive Notification where
  | add (pod : ApiPod)
  | update (oldPod newPod : ApiPod)
  | delete (pod : ApiPod) (finalStateUnknown : Bool)
  deriving DecidableEq

inductive ControllerEvent where
  | createPod (uid : String)
  | deletePod (uid : String)
  | enqueueDelete (pod : ApiPod) (registered : Bool)
  | updateStatus (uid : String) (oldPhase newPhase : PodPhase) (reported : Bool)
  deriving DecidableEq

structure PodController where
  api : PodKey → Option ApiPod
  podsLister : Finmap fun _ : PodKey => ApiPod
  notifications : List Notification
  knownPods : PodKey → Option KnownPod
  syncPodsFromKubernetes : List PodKey
  syncPodStatusFromProvider : List PodKey
  deletePodsFromKubernetes : List (PodKey × String)
  provider : Gambit
  events : List ControllerEvent

inductive ApiError where
  | notFound
  | conflict
  | other
  deriving DecidableEq

def newPodController : PodController where
  api _ := none
  podsLister := ∅
  notifications := []
  knownPods _ := none
  syncPodsFromKubernetes := []
  syncPodStatusFromProvider := []
  deletePodsFromKubernetes := []
  provider := newGambit
  events := []

namespace PodController

/-- A key is on a queue at most once. -/
def enqueue {κ : Type} [DecidableEq κ] (queue : List κ) (key : κ) : List κ :=
  if key ∈ queue then queue else queue ++ [key]

variable (s : PodController)

def requestSync (key : PodKey) : PodController :=
  { s with syncPodsFromKubernetes := enqueue s.syncPodsFromKubernetes key }

def enqueueDelete (key : PodKey) (pod : ApiPod) : PodController :=
  { s with
    deletePodsFromKubernetes := enqueue s.deletePodsFromKubernetes (key, pod.uid)
    events := .enqueueDelete pod (s.provider.store.hasPod pod.uid) :: s.events }

def setKnownPod (key : PodKey) (kPod : KnownPod) : PodController :=
  { s with knownPods := update s.knownPods key (some kPod) }

def setLastPodUsed (key : PodKey) (pod : ApiPod) : PodController :=
  match s.knownPods key with
  | none => s
  | some kPod => s.setKnownPod key { kPod with lastPodUsed := some pod }

def enqueuePodStatusUpdate (pod : ApiPod) : PodController :=
  match s.knownPods (podKey pod) with
  | none => s
  | some kPod =>
    if kPod.lastPodStatusReceivedFromProvider = some pod then
      s.setKnownPod (podKey pod) { kPod with lastPodStatusUpdateSkipped := true }
    else
      { s.setKnownPod (podKey pod)
          { kPod with
            lastPodStatusReceivedFromProvider := some pod
            lastPodStatusUpdateSkipped := false } with
        syncPodStatusFromProvider := enqueue s.syncPodStatusFromProvider (podKey pod) }

def updateStatus (ok reported : Bool) (pod : ApiPod) :
    PodController × Option ApiError :=
  match s.api (podKey pod) with
  | none => (s, some .notFound)
  | some current =>
    if current.uid ≠ pod.uid then (s, some .conflict)
    else if ok then
      ({ s with
          api := update s.api (podKey pod)
            (some { current with status := pod.status })
          events :=
            .updateStatus pod.uid current.status.phase pod.status.phase reported :: s.events },
        none)
    else (s, some .other)

def deleteObject (r : Readings) (key : PodKey) (uid : Option String)
    (gracePeriodSeconds : Option Int64) : PodController × Option ApiError :=
  match s.api key with
  | none => (s, some .notFound)
  | some current =>
    if uid.isSome = true ∧ uid ≠ some current.uid then (s, some .conflict)
    else if r.ok = false then (s, some .other)
    else
      let object :=
        if gracePeriodSeconds = some 0 ∧ current.finalizers = [] then none
        else
          some { current with
            deletionTimestamp := some r.now
            deletionGracePeriodSeconds := gracePeriodSeconds }
      ({ s with api := update s.api key object }, none)

variable {s}

/-- The provider deletes the pod. -/
def providerDeletePod (r : Readings) (s : PodController) (pod : ApiPod) : PodController :=
  { s with
    provider := s.provider.deletePod r pod
    events := .deletePod pod.uid :: s.events }

def errorPhase (pod : ApiPod) : PodPhase :=
  if pod.spec.restartPolicy = .never then .failed else .pending

def failedPod (message : String) (pod : ApiPod) : ApiPod :=
  { pod with
    status :=
      { pod.status with
        phase := errorPhase pod
        reason := "PerigeosFailed"
        message := message } }

def handleProviderError (r : Readings) (s : PodController) (message : String) (pod : ApiPod) :
    PodController :=
  (s.updateStatus r.ok false (failedPod message pod)).1

variable (cfg : PawnConfig)

def createOrUpdatePod (r : Readings) (s : PodController) (pod : ApiPod) :
    PodController × Option String :=
  match s.provider.getPod pod.podNamespace pod.name with
  | some podFromProvider =>
    if podsEqual podFromProvider pod then (s, none)
    else
      let (provider, err) := s.provider.updatePod pod
      let s := { s with provider := provider }
      match err with
      | none => (s, none)
      | some message => (s.handleProviderError r message pod, some message)
  | none =>
    let (provider, err) := s.provider.createPod cfg r pod
    let s := { s with provider := provider, events := .createPod pod.uid :: s.events }
    match err with
    | none => (s, none)
    | some message => (s.handleProviderError r message pod, some message)

def terminatedStatus (now : Time) (status : PodStatus) : PodStatus :=
  { status with
    phase := .succeeded
    containerStatuses := status.containerStatuses.map fun cs =>
      { cs with
        state :=
          { terminated := some
              { exitCode := 0
                reason := "Terminated"
                message :=
                  "Container was terminated. The exit code may not reflect the real exit code"
                startedAt := (cs.state.running.map ContainerStateRunning.startedAt).getD 0
                finishedAt := now } } }
    reason := "Terminated" }

def deletePod (r : Readings) (s : PodController) (pod : ApiPod) : PodController :=
  let s := s.providerDeletePod r pod
  if shouldSkipPodStatusUpdate pod then s
  else s.enqueuePodStatusUpdate { pod with status := terminatedStatus r.now pod.status }

/-! ### The handlers -/

def syncChangedPod (r : Readings) (s : PodController) (pod : ApiPod)
    (key : PodKey) : PodController × Option String :=
  if pod.deletionTimestamp.isSome then ((s.deletePod r pod).enqueueDelete key pod, none)
  else if pod.status.phase.terminal = true
      ∧ (s.provider.getPod pod.podNamespace pod.name).isSome = true then (s, none)
  else
    let (s, err) := s.createOrUpdatePod cfg r pod
    (s, err.map fun message =>
      "failed to sync pod " ++ loggablePodName pod ++ " in the provider: " ++ message)

def syncPodInProvider (r : Readings) (s : PodController) (pod : ApiPod)
    (key : PodKey) : PodController × Option String :=
  if pod.deletionTimestamp.isSome = true ∧ running pod.status = false then
    (s.enqueueDelete key pod, none)
  else
    match s.knownPods key with
    | none => (s, none)
    | some kPod =>
      if kPod.lastPodUsed.any (podsEffectivelyEqual · pod) then (s, none)
      else
        let (s, err) := s.syncChangedPod cfg r pod key
        (if err.isNone then s.setLastPodUsed key pod else s, err)

def syncPodFromKubernetesHandler (r : Readings) (s : PodController)
    (key : PodKey) : PodController × Option String :=
  match s.podsLister.lookup key with
  | some pod => s.syncPodInProvider cfg r pod key
  | none =>
    match s.provider.getPod key.podNamespace key.name with
    | none => (s, none)
    | some pod => (s.providerDeletePod r pod, none)

def deleteReported (r : Readings) (s : PodController) (pod podFromProvider : ApiPod) :
    PodController × Option ApiError :=
  match podFromProvider.deletionTimestamp with
  | none => (s, none)
  | some time =>
    if pod.deletionTimestamp.isSome = true ∨ pod.status ≠ podFromProvider.status then (s, none)
    else
      s.deleteObject r (podKey pod) none
        (if time < r.now then some 0 else podFromProvider.deletionGracePeriodSeconds)

def updatePodStatus (r : Readings) (s : PodController) (pod : ApiPod) (key : PodKey) :
    PodController × Option (String × ApiError) :=
  if shouldSkipPodStatusUpdate pod then (s, none)
  else
    match (s.knownPods key).bind KnownPod.lastPodStatusReceivedFromProvider with
    | none => (s, none)
    | some podFromProvider =>
      if podFromProvider.uid ≠ pod.uid then (s, none)
      else
        let (s, err) := s.deleteReported r pod podFromProvider
        match err.filter (· ≠ .notFound) with
        | some err => (s, some ("error while delete pod in Kubernetes", err))
        | none =>
          let (s, err) := s.updateStatus r.ok true podFromProvider
          (s, (err.filter (· ≠ .notFound)).map fun err =>
            ("error while updating pod status in Kubernetes", err))

def syncPodStatusFromProviderHandler (r : Readings) (s : PodController) (key : PodKey) :
    PodController × Option (String × ApiError) :=
  match s.podsLister.lookup key with
  | none => (s, none)
  | some pod => s.updatePodStatus r pod key

def deletePodsFromKubernetesHandler (r : Readings) (s : PodController) (key : PodKey)
    (uid : String) : PodController × Option ApiError :=
  match s.podsLister.lookup key with
  | none => (s, none)
  | some k8sPod =>
    if k8sPod.uid ≠ uid then (s, none)
    else
      let (s, err) := s.deleteObject r key (some uid) (some 0)
      (s, err.filter (· = .other))

/-- The copy of an object is brought up to date, and the controller is notified. -/
def list (s : PodController) (key : PodKey) (finalStateUnknown : Bool) : PodController :=
  match s.podsLister.lookup key, s.api key with
  | none, none => s
  | none, some pod =>
    { s with
      podsLister := s.podsLister.insert key pod
      notifications := s.notifications ++ [.add pod] }
  | some oldPod, some newPod =>
    { s with
      podsLister := s.podsLister.insert key newPod
      notifications := s.notifications ++ [.update oldPod newPod] }
  | some pod, none =>
    { s with
      podsLister := s.podsLister.erase key
      notifications := s.notifications ++ [.delete pod finalStateUnknown] }

def statusDiffers (kPod : KnownPod) (newPod : ApiPod) : Bool :=
  match kPod.lastPodStatusReceivedFromProvider with
  | none => false
  | some last =>
    newPod.status ≠ last.status || newPod.annotations ≠ last.annotations
      || newPod.labels ≠ last.labels || newPod.finalizers ≠ last.finalizers

def handle (s : PodController) : Notification → Option PodController
  | .add pod => some ((s.setKnownPod (podKey pod) {}).requestSync (podKey pod))
  | .update oldPod newPod =>
    match s.knownPods (podKey newPod) with
    | none => none
    | some kPod =>
      let s :=
        if kPod.lastPodStatusUpdateSkipped && statusDiffers kPod newPod then
          { s.setKnownPod (podKey newPod) { kPod with lastPodStatusUpdateSkipped := false } with
            syncPodStatusFromProvider :=
              enqueue s.syncPodStatusFromProvider (podKey newPod) }
        else s
      some (if podShouldEnqueue oldPod newPod then s.requestSync (podKey newPod) else s)
  | .delete pod finalStateUnknown =>
    if finalStateUnknown then some s
    else
      some
        { s.requestSync (podKey pod) with
          knownPods := update s.knownPods (podKey pod) none
          deletePodsFromKubernetes :=
            s.deletePodsFromKubernetes.filter (· ≠ (podKey pod, pod.uid)) }

def notifyPodStatus (s : PodController) (pod : ApiPod) : PodController :=
  let s := s.enqueuePodStatusUpdate pod
  { s with provider := s.provider.writePodState (s.provider.persistedState pod pod.status.phase) }

def restart (r : Readings) (s : PodController) (machines : List ManagedMachine) :
    PodController :=
  { newPodController with
    api := s.api
    provider := Gambit.hydrateFromRuntime r.clock s.provider.podStates machines
    events := s.events }

def retried {κ : Type} [DecidableEq κ] (queue : List κ) (key : κ) (failed retry : Bool) :
    List κ :=
  if failed && retry then enqueue queue key else queue

end PodController

inductive ControllerStep where
  | change (key : PodKey) (object : Option ApiPod)
  | list (key : PodKey) (finalStateUnknown : Bool)
  | handle
  | requestSync (key : PodKey)
  | sync (key : PodKey) (r : Readings) (retry : Bool)
  | syncStatus (key : PodKey) (r : Readings) (retry : Bool)
  | deleteFromKubernetes (key : PodKey) (uid : String) (r : Readings) (retry : Bool)
  | notify (pod : ApiPod)
  | persist (pod : ApiPod)
  | store (op : StoreOp)
  | deletePod (uid : String) (r : Readings)
  | evictGhost (uid : String)
  | cleanStaleDirs
  | restart (machines : List ManagedMachine) (r : Readings)

def told (pod : ApiPod) : List ControllerStep :=
  [.change (podKey pod) (some pod), .list (podKey pod) false, .handle]

def podController (cfg : PawnConfig) : System PodController ControllerStep where
  step s a :=
    match a with
    | .change key object =>
      if object.all (podKey · = key) then
        some { s with api := update s.api key object }
      else none
    | .list key finalStateUnknown => some (s.list key finalStateUnknown)
    | .handle =>
      match s.notifications with
      | [] => none
      | n :: notifications => { s with notifications := notifications }.handle n
    | .requestSync key => some (s.requestSync key)
    | .sync key r retry =>
      if key ∈ s.syncPodsFromKubernetes then
        let s := { s with syncPodsFromKubernetes := s.syncPodsFromKubernetes.erase key }
        let (s, err) := s.syncPodFromKubernetesHandler cfg r key
        some { s with
          syncPodsFromKubernetes :=
            PodController.retried s.syncPodsFromKubernetes key err.isSome retry }
      else none
    | .syncStatus key r retry =>
      if key ∈ s.syncPodStatusFromProvider then
        let s := { s with syncPodStatusFromProvider := s.syncPodStatusFromProvider.erase key }
        let (s, err) := s.syncPodStatusFromProviderHandler r key
        some { s with
          syncPodStatusFromProvider :=
            PodController.retried s.syncPodStatusFromProvider key err.isSome retry }
      else none
    | .deleteFromKubernetes key uid r retry =>
      if (key, uid) ∈ s.deletePodsFromKubernetes then
        let s :=
          { s with deletePodsFromKubernetes := s.deletePodsFromKubernetes.erase (key, uid) }
        let (s, err) := s.deletePodsFromKubernetesHandler r key uid
        some { s with
          deletePodsFromKubernetes :=
            PodController.retried s.deletePodsFromKubernetes (key, uid) err.isSome retry }
      else none
    | .notify pod => some (s.notifyPodStatus pod)
    | .persist pod => some { s with provider := s.provider.persistPodState pod }
    | .store op =>
      if op.isLocal then
        some { s with provider := { s.provider with store := s.provider.store.apply op } }
      else none
    | .deletePod uid r =>
      match s.provider.store.pods.lookup uid with
      | none => none
      | some ps => some (s.providerDeletePod r ps.pod)
    | .evictGhost uid =>
      if s.provider.store.isInFlight uid = false
          ∧ s.podsLister.any (fun _ pod => pod.uid = uid) = false then
        some { s with provider := s.provider.evictGhost uid }
      else none
    | .cleanStaleDirs => some { s with provider := s.provider.cleanStaleDirs }
    | .restart machines r => some (s.restart r machines)

namespace PodController

/-- The listed pod was changed since it was synced last. -/
structure Changed (s : PodController) (key : PodKey) (pod : ApiPod) : Prop where
  listed : s.podsLister.lookup key = some pod
  known : ∃ kPod, s.knownPods key = some kPod
    ∧ kPod.lastPodUsed.any (podsEffectivelyEqual · pod) = false

def created (s : PodController) (provider : Gambit) (pod : ApiPod) : PodController :=
  { s with provider := provider, events := .createPod pod.uid :: s.events }

inductive Syncs (cfg : PawnConfig) (r : Readings) (s : PodController) (key : PodKey) :
    PodController × Option String → Prop
  | missing (hlisted : s.podsLister.lookup key = none) : Syncs cfg r s key (s, none)
  | orphan {pod : ApiPod} (hlisted : s.podsLister.lookup key = none) :
      Syncs cfg r s key (s.providerDeletePod r pod, none)
  | release {pod : ApiPod} (hlisted : s.podsLister.lookup key = some pod)
      (hmarked : pod.deletionTimestamp.isSome = true) (hrunning : running pod.status = false) :
      Syncs cfg r s key (s.enqueueDelete key pod, none)
  | unchanged {pod : ApiPod} (hlisted : s.podsLister.lookup key = some pod)
      (hunchanged : ¬ s.Changed key pod) : Syncs cfg r s key (s, none)
  | delete {pod : ApiPod} (hchanged : s.Changed key pod)
      (hmarked : pod.deletionTimestamp.isSome = true) :
      Syncs cfg r s key
        (((s.deletePod r pod).enqueueDelete key pod).setLastPodUsed key pod, none)
  | kept {pod podFromProvider : ApiPod} (hchanged : s.Changed key pod)
      (hmarked : pod.deletionTimestamp = none)
      (hprovider : s.provider.getPod pod.podNamespace pod.name = some podFromProvider) :
      Syncs cfg r s key (s.setLastPodUsed key pod, none)
  | create {pod : ApiPod} {provider : Gambit} (hchanged : s.Changed key pod)
      (hmarked : pod.deletionTimestamp = none)
      (hprovider : s.provider.getPod pod.podNamespace pod.name = none)
      (hcreate : s.provider.createPod cfg r pod = (provider, none)) :
      Syncs cfg r s key ((s.created provider pod).setLastPodUsed key pod, none)
  | fail {pod : ApiPod} {provider : Gambit} {message : String} (hchanged : s.Changed key pod)
      (hmarked : pod.deletionTimestamp = none)
      (hprovider : s.provider.getPod pod.podNamespace pod.name = none)
      (hcreate : s.provider.createPod cfg r pod = (provider, some message)) :
      Syncs cfg r s key
        ((s.created provider pod).handleProviderError r message pod,
          some ("failed to sync pod " ++ loggablePodName pod ++ " in the provider: " ++ message))

variable {cfg : PawnConfig} {r : Readings} {s : PodController} {key : PodKey} {pod : ApiPod}

theorem createOrUpdatePod_of_some
    (h : s.provider.getPod pod.podNamespace pod.name = some podFromProvider) :
  s.createOrUpdatePod cfg r pod = (s, none)
  := by
  unfold createOrUpdatePod
  rw [h]
  dsimp only
  split
  all_goals rfl

variable {provider : Gambit}

theorem createOrUpdatePod_of_none (h : s.provider.getPod pod.podNamespace pod.name = none)
    (hcr : s.provider.createPod cfg r pod = (provider, none)) :
  s.createOrUpdatePod cfg r pod = (s.created provider pod, none)
  := by
  unfold createOrUpdatePod
  rw [h, hcr]
  rfl

theorem createOrUpdatePod_of_error {message : String}
    (h : s.provider.getPod pod.podNamespace pod.name = none)
    (hcr : s.provider.createPod cfg r pod = (provider, some message)) :
  s.createOrUpdatePod cfg r pod
    = ((s.created provider pod).handleProviderError r message pod, some message)
  := by
  unfold createOrUpdatePod
  rw [h, hcr]
  rfl

variable {t : PodController}

theorem Changed.syncPodInProvider_eq (hc : s.Changed key pod)
    (hno : ¬ (pod.deletionTimestamp.isSome ∧ running pod.status = false))
    {err : Option String} (h : s.syncChangedPod cfg r pod key = (t, err)) :
  s.syncPodInProvider cfg r pod key
    = (if err.isNone then t.setLastPodUsed key pod else t, err)
  := by
  obtain ⟨kPod, hk, hus⟩ := hc.known
  unfold syncPodInProvider
  rw [if_neg hno, hk]
  simp only [hus, Bool.false_eq_true, if_false, h]

theorem Changed.syncs (hc : s.Changed key pod)
    (hno : ¬ (pod.deletionTimestamp.isSome ∧ running pod.status = false)) :
  Syncs cfg r s key (s.syncPodInProvider cfg r pod key)
  := by
  cases hm : pod.deletionTimestamp with
  | some time =>
    have hso : pod.deletionTimestamp.isSome := by
      rw [hm]
      rfl
    have hs : s.syncChangedPod cfg r pod key
        = ((s.deletePod r pod).enqueueDelete key pod, none) := by
      unfold syncChangedPod
      rw [if_pos hso]
    rw [hc.syncPodInProvider_eq hno hs]
    apply Syncs.delete hc hso
  | none =>
    have hn : ¬ pod.deletionTimestamp.isSome := by
      rw [hm]
      nofun
    cases hp : s.provider.getPod pod.podNamespace pod.name with
    | some podFromProvider =>
      have hs : s.syncChangedPod cfg r pod key = (s, none) := by
        unfold syncChangedPod
        rw [if_neg hn, createOrUpdatePod_of_some hp]
        split
        all_goals rfl
      rw [hc.syncPodInProvider_eq hno hs]
      apply Syncs.kept hc hm hp
    | none =>
      have hce : s.syncChangedPod cfg r pod key
          = ((s.createOrUpdatePod cfg r pod).1,
              (s.createOrUpdatePod cfg r pod).2.map fun message =>
                "failed to sync pod " ++ loggablePodName pod ++ " in the provider: "
                  ++ message) := by
        unfold syncChangedPod
        rw [if_neg hn, hp, if_neg (by simp)]
      rcases hcr : s.provider.createPod cfg r pod with ⟨provider, none | message⟩
      · rw [createOrUpdatePod_of_none hp hcr] at hce
        rw [hc.syncPodInProvider_eq hno hce]
        apply Syncs.create hc hm hp hcr
      · rw [createOrUpdatePod_of_error hp hcr] at hce
        rw [hc.syncPodInProvider_eq hno hce]
        apply Syncs.fail hc hm hp hcr

theorem syncs (cfg : PawnConfig) (r : Readings) (s : PodController) (key : PodKey) :
  Syncs cfg r s key (s.syncPodFromKubernetesHandler cfg r key)
  := by
  unfold syncPodFromKubernetesHandler
  cases hl : s.podsLister.lookup key with
  | none =>
    dsimp only
    split
    · apply Syncs.missing hl
    · apply Syncs.orphan hl
  | some pod =>
    dsimp only
    by_cases hre : pod.deletionTimestamp.isSome ∧ running pod.status = false
    · unfold syncPodInProvider
      rw [if_pos hre]
      apply Syncs.release hl hre.1 hre.2
    · by_cases hc : s.Changed key pod
      · apply hc.syncs hre
      · have hsk : s.syncPodInProvider cfg r pod key = (s, none) := by
          unfold syncPodInProvider
          rw [if_neg hre]
          split
          · rfl
          next kPod hk =>
            rw [if_pos]
            by_contra hus
            apply hc
            exact ⟨hl, kPod, hk, Bool.eq_false_of_not_eq_true hus⟩
        rw [hsk]
        apply Syncs.unchanged hl hc

/-! ### What is recorded -/

@[simp]
theorem events_setLastPodUsed (s : PodController) (key : PodKey) (pod : ApiPod) :
  (s.setLastPodUsed key pod).events = s.events
  := by
  unfold setLastPodUsed
  split
  all_goals rfl

@[simp]
theorem events_enqueuePodStatusUpdate :
  (s.enqueuePodStatusUpdate pod).events = s.events
  := by
  unfold enqueuePodStatusUpdate
  split
  · rfl
  · split
    all_goals rfl

@[simp]
theorem events_deletePod :
  (s.deletePod r pod).events = .deletePod pod.uid :: s.events
  := by
  unfold deletePod
  split
  · rfl
  · apply events_enqueuePodStatusUpdate

@[simp]
theorem events_deleteObject :
  (s.deleteObject r key uid gracePeriodSeconds).1.events = s.events
  := by
  unfold deleteObject
  split
  · rfl
  · split_ifs
    all_goals rfl

variable {uid : String}

@[simp]
theorem events_deletePodsFromKubernetesHandler :
  (s.deletePodsFromKubernetesHandler r key uid).1.events = s.events
  := by
  unfold deletePodsFromKubernetesHandler
  split
  · rfl
  · split
    · rfl
    · apply events_deleteObject

@[simp]
theorem events_deleteReported {s : PodController} {pod : ApiPod} :
  (s.deleteReported r pod podFromProvider).1.events = s.events
  := by
  unfold deleteReported
  split
  · rfl
  · split
    · rfl
    · apply events_deleteObject

@[simp]
theorem events_list :
  (s.list key finalStateUnknown).events = s.events
  := by
  unfold list
  split
  all_goals rfl

theorem events_handle (h : s.handle n = some t) :
  t.events = s.events
  := by
  cases n with
  | add pod =>
    cases h
    rfl
  | update oldPod newPod =>
    simp only [handle] at h
    split at h
    · cases h
    · cases h
      split_ifs
      all_goals rfl
  | delete pod finalStateUnknown =>
    simp only [handle] at h
    split at h
    all_goals
      cases h
      rfl

theorem events_updateStatus (s : PodController) (ok reported : Bool) (pod : ApiPod) :
  (s.updateStatus ok reported pod).1.events = s.events
      ∧ (∀ current, s.api (podKey pod) = some current → current.uid = pod.uid → ok = false)
    ∨ ∃ current, s.api (podKey pod) = some current ∧ current.uid = pod.uid ∧ ok
      ∧ (s.updateStatus ok reported pod).1.events
        = .updateStatus pod.uid current.status.phase pod.status.phase reported :: s.events
  := by
  unfold updateStatus
  split
  next hn =>
    left
    use rfl
    intro current hcu
    cases hn.symm.trans hcu
  next current hcu =>
    split
    next hne =>
      left
      use rfl
      intro current' hcn heq
      cases hcu.symm.trans hcn
      exact absurd heq hne
    next heq =>
      cases ok with
      | true =>
        right
        exact ⟨current, hcu, not_not.1 heq, rfl, rfl⟩
      | false =>
        left
        exact ⟨rfl, fun _ _ _ => rfl⟩

theorem deleteReported_of_ok (hok : r.ok) :
  (s.deleteReported r pod podFromProvider).2.filter (· ≠ .notFound) = none
  := by
  unfold deleteReported deleteObject
  split
  · rfl
  · split
    · rfl
    · split
      · rfl
      · rw [if_neg (by simp), if_neg (by simp [hok])]
        rfl

def removes (r : Readings) (pod report current : ApiPod) : Bool :=
  podKey report = podKey pod && pod.deletionTimestamp.isNone && pod.status = report.status
    && report.deletionTimestamp.any (fun time =>
      time < r.now || report.deletionGracePeriodSeconds = some 0)
    && current.finalizers = []

variable {phase : PodPhase}

theorem exists_deleteObject_iff (hok : r.ok) :
  (∃ current, (s.deleteObject r key none gracePeriodSeconds).1.api key' = some current
      ∧ current.uid = uid ∧ current.status.phase = phase)
    ↔ ∃ current, s.api key' = some current
      ∧ ¬ (key' = key ∧ gracePeriodSeconds = some 0 ∧ current.finalizers = [])
      ∧ current.uid = uid ∧ current.status.phase = phase
  := by
  unfold deleteObject
  cases ho : s.api key with
  | none =>
    apply exists_congr
    intro current
    apply and_congr_right
    intro hcu
    apply (and_iff_right _).symm
    rintro ⟨rfl, -⟩
    cases ho.symm.trans hcu
  | some object =>
    dsimp only
    rw [if_neg (by simp), if_neg (by simp [hok])]
    by_cases hky : key' = key
    · subst hky
      by_cases hg : gracePeriodSeconds = some 0 ∧ object.finalizers = []
      · simp [ho, hg]
      · simpa [ho, hg] using fun _ _ => not_and.1 hg
    · simp [hky]

variable {report : ApiPod}

theorem exists_deleteReported_iff (hok : r.ok) :
  (∃ current, (s.deleteReported r pod report).1.api (podKey report) = some current
      ∧ current.uid = uid ∧ current.status.phase = phase)
    ↔ ∃ current, s.api (podKey report) = some current ∧ removes r pod report current = false
      ∧ current.uid = uid ∧ current.status.phase = phase
  := by
  unfold deleteReported
  cases hr : report.deletionTimestamp with
  | none => simp [removes, hr]
  | some time =>
    dsimp only
    split
    next hke =>
      rcases hke with hm | hst
      · simp [removes, isNone_iff_eq_none, isSome_iff_ne_none.1 hm]
      · simp [removes, hst]
    next hd =>
      rw [not_or, Bool.not_eq_true, isSome_eq_false_iff, not_not] at hd
      rw [exists_deleteObject_iff hok]
      apply exists_congr
      intro current
      apply and_congr_right
      intro _
      apply and_congr_left
      intro _
      by_cases hti : time < r.now
      all_goals simp [removes, hr, hd, hti]

structure Reports (r : Readings) (s : PodController) (key : PodKey)
    (report current : ApiPod) : Prop where
  ok : r.ok = true
  listed : ∃ pod, s.podsLister.lookup key = some pod ∧ pod.status.phase.terminal = false
    ∧ report.uid = pod.uid ∧ removes r pod report current = false
  known : (s.knownPods key).bind KnownPod.lastPodStatusReceivedFromProvider = some report
  object : s.api (podKey report) = some current
  uid : current.uid = report.uid

theorem updatePodStatus_of_report (hok : r.ok) (ht : pod.status.phase.terminal = false)
    (hk : (s.knownPods key).bind KnownPod.lastPodStatusReceivedFromProvider = some report)
    (hui : report.uid = pod.uid) :
  (s.updatePodStatus r pod key).1
    = ((s.deleteReported r pod report).1.updateStatus true true report).1
  := by
  unfold updatePodStatus shouldSkipPodStatusUpdate
  rw [if_neg (by simp [ht]), hk]
  dsimp only
  rw [if_neg (not_not.2 hui), deleteReported_of_ok hok, hok]

theorem events_updatePodStatus_of_not (h : ∀ report, r.ok → pod.status.phase.terminal = false
      → (s.knownPods key).bind KnownPod.lastPodStatusReceivedFromProvider = some report
      → report.uid ≠ pod.uid) :
  (s.updatePodStatus r pod key).1.events = s.events
  := by
  unfold updatePodStatus shouldSkipPodStatusUpdate
  split
  · rfl
  rename_i ht
  split
  · rfl
  rename_i report hk
  split
  · rfl
  rename_i hui
  cases hok : r.ok with
  | true =>
    have hne := h report hok (Bool.eq_false_of_not_eq_true ht) hk
    exact absurd hne hui
  | false =>
    dsimp only
    split
    · apply events_deleteReported
    · rcases events_updateStatus (s.deleteReported r pod report).1 false true report
        with ⟨heq, -⟩ | ⟨current, -, -, ho, -⟩
      · apply heq.trans events_deleteReported
      · cases ho

theorem events_syncPodStatusFromProviderHandler (r : Readings) (s : PodController) (key : PodKey) :
  (s.syncPodStatusFromProviderHandler r key).1.events = s.events
      ∧ (∀ report current, ¬ s.Reports r key report current)
    ∨ ∃ report current, s.Reports r key report current
      ∧ (s.syncPodStatusFromProviderHandler r key).1.events
        = .updateStatus report.uid current.status.phase report.status.phase true :: s.events
  := by
  unfold syncPodStatusFromProviderHandler
  cases hl : s.podsLister.lookup key with
  | none =>
    left
    use rfl
    rintro report current ⟨-, ⟨pod, hpo, -⟩, -, -, -⟩
    cases hl.symm.trans hpo
  | some pod =>
    by_cases hr : ∃ report, r.ok ∧ pod.status.phase.terminal = false
        ∧ (s.knownPods key).bind KnownPod.lastPodStatusReceivedFromProvider = some report
        ∧ report.uid = pod.uid
    · obtain ⟨report, hok, ht, hk, hui⟩ := hr
      rw [updatePodStatus_of_report hok ht hk hui]
      rcases events_updateStatus (s.deleteReported r pod report).1 true true report
        with ⟨heq, hn⟩ | ⟨current, hcu, hu, -, heq⟩
      · left
        use heq.trans events_deleteReported
        rintro report' current ⟨-, ⟨pod', hpo, -, -, hrm⟩, hkn, ho, hu⟩
        cases hl.symm.trans hpo
        cases hk.symm.trans hkn
        obtain ⟨current', hcn, hu, -⟩ :=
          (exists_deleteReported_iff hok).2 ⟨current, ho, hrm, hu, rfl⟩
        cases hn current' hcn hu
      · right
        obtain ⟨current', ho, hrm, hu, hph⟩ :=
          (exists_deleteReported_iff hok).1 ⟨current, hcu, hu, rfl⟩
        use report, current'
        constructor
        · exact ⟨hok, ⟨pod, hl, ht, hui, hrm⟩, hk, ho, hu⟩
        · rw [heq, events_deleteReported, hph]
    · left
      constructor
      · apply events_updatePodStatus_of_not
        intro report hok ht hk hui
        apply hr
        exact ⟨report, hok, ht, hk, hui⟩
      · rintro report current ⟨hok, ⟨pod', hpo, ht, hui, -⟩, hk, -, -⟩
        cases hl.symm.trans hpo
        apply hr
        exact ⟨report, hok, ht, hk, hui⟩

end PodController

def ControllerStep.isQuiet : ControllerStep → Bool
  | .sync _ _ _ | .syncStatus _ _ _ | .deletePod _ _ => false
  | _ => true

namespace PodController

variable {t : PodController}

theorem events_of_isQuiet {a : ControllerStep} (ha : a.isQuiet)
    (h : (podController cfg).step s a = some t) :
  t.events = s.events
  := by
  cases a with
  | sync | syncStatus | deletePod => cases ha
  | handle =>
    simp only [podController] at h
    split at h
    · cases h
    · apply events_handle h
  | deleteFromKubernetes key uid r retry =>
    simp only [podController] at h
    split at h
    · cases h
      apply events_deletePodsFromKubernetesHandler
    · cases h
  | list key finalStateUnknown =>
    cases h
    apply events_list
  | notify pod =>
    cases h
    apply events_enqueuePodStatusUpdate
  | requestSync | persist | cleanStaleDirs | restart =>
    cases h
    rfl
  | _ =>
    simp only [podController] at h
    split at h
    · cases h
      rfl
    · cases h

variable {Q : List ControllerEvent → Prop} {retry : Bool}

theorem forall_sync_iff :
  (∀ t, (podController cfg).step s (.sync key r retry) = some t → Q t.events)
    ↔ (key ∈ s.syncPodsFromKubernetes →
        Q (syncPodFromKubernetesHandler cfg r
          { s with syncPodsFromKubernetes := s.syncPodsFromKubernetes.erase key } key).1.events)
  := by
  by_cases hky : key ∈ s.syncPodsFromKubernetes
  all_goals simp [podController, hky]

theorem forall_syncStatus_iff :
  (∀ t, (podController cfg).step s (.syncStatus key r retry) = some t → Q t.events)
    ↔ (key ∈ s.syncPodStatusFromProvider →
        Q (syncPodStatusFromProviderHandler r
          { s with
            syncPodStatusFromProvider := s.syncPodStatusFromProvider.erase key } key).1.events)
  := by
  by_cases hky : key ∈ s.syncPodStatusFromProvider
  all_goals simp [podController, hky]

theorem events_providerDeletePod {uid : String}
    (h : (podController cfg).step s (.deletePod uid r) = some t) :
  ∃ uid', t.events = .deletePod uid' :: s.events
  := by
  simp only [podController] at h
  split at h
  · cases h
  next ps hps =>
    cases h
    exact ⟨ps.pod.uid, rfl⟩

end PodController

end Periapsis.Node
