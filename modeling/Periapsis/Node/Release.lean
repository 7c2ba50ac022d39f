import Periapsis.Node.Ended

/-!
# The release of pod objects

A marked pod is put on the queue of pods to be deleted at the API server, without a grace period.
-/

namespace Periapsis.Node

open Corev1 List

theorem PodStore.hasPod_unregister (s : PodStore) :
  (s.unregister uid podNamespace name deletedAt now).hasPod uid = false
  := by
  unfold hasPod
  rw [lookup_unregister, if_pos rfl]
  rfl

namespace PodController

variable {cfg : PawnConfig} {r : Readings} {s t : PodController} {key : PodKey} {pod : ApiPod}
  {events : List ControllerEvent}

theorem hasPod_deletePod (r : Readings) (s : PodController) (pod : ApiPod) :
  (s.deletePod r pod).provider.store.hasPod pod.uid = false
  := by
  have hp : (s.deletePod r pod).provider = s.provider.deletePod r pod := by
    unfold deletePod enqueuePodStatusUpdate
    dsimp only
    split
    · rfl
    · split
      · rfl
      · split
        all_goals rfl
  rw [hp]
  apply PodStore.hasPod_unregister

def AfterTeardown (events : List ControllerEvent) : Prop :=
  ∀ pod registered earlier, .enqueueDelete pod registered :: earlier <:+ events
    → .deletePod pod.uid ∈ earlier ∨ registered = false

def Released (events : List ControllerEvent) : Prop :=
  ∀ pod registered earlier, .enqueueDelete pod registered :: earlier <:+ events
    → pod.deletionTimestamp.isSome = true
      ∧ (running pod.status = false
        ∨ earlier.head? = some (.deletePod pod.uid) ∧ registered = false)

theorem released_cons_iff :
  Released (e :: events)
    ↔ (∀ pod registered, e = .enqueueDelete pod registered
        → pod.deletionTimestamp.isSome
          ∧ (running pod.status = false
            ∨ events.head? = some (.deletePod pod.uid) ∧ registered = false))
      ∧ Released events
  := by
  constructor
  · intro h
    constructor
    · rintro pod registered rfl
      apply h pod registered events (suffix_refl _)
    · intro pod registered earlier hsu
      apply h pod registered earlier (hsu.trans (suffix_cons _ _))
  · rintro ⟨he, h⟩ pod registered earlier hsu
    rcases suffix_cons_iff.1 hsu with heq | hsu
    · cases heq
      apply he pod registered rfl
    · apply h pod registered earlier hsu

theorem Released.cons (h : Released events)
    (he : ∀ pod registered, e ≠ .enqueueDelete pod registered) :
  Released (e :: events)
  := by
  apply released_cons_iff.2
  use fun pod registered heq => absurd heq (he pod registered)

theorem Released.updateStatus {ok reported : Bool} (h : Released s.events) :
  Released (s.updateStatus ok reported pod).1.events
  := by
  rcases events_updateStatus s ok reported pod with ⟨heq, -⟩ | ⟨current, -, -, -, heq⟩
  · rw [heq]
    apply h
  · rw [heq]
    apply h.cons
    rintro _ _ ⟨⟩

theorem Syncs.released {result : PodController × Option String}
    (h : Syncs cfg r s key result) (hs : Released s.events) :
  Released result.1.events
  := by
  cases h with
  | missing | unchanged => apply hs
  | kept =>
    rw [events_setLastPodUsed]
    apply hs
  | orphan =>
    apply hs.cons
    rintro _ _ ⟨⟩
  | release _ hm hru =>
    apply released_cons_iff.2
    refine ⟨?_, hs⟩
    rintro _ _ ⟨⟩
    exact ⟨hm, .inl hru⟩
  | @delete pod _ hm =>
    rw [events_setLastPodUsed, enqueueDelete, events_deletePod]
    apply released_cons_iff.2
    constructor
    · rintro _ _ ⟨⟩
      exact ⟨hm, .inr ⟨rfl, hasPod_deletePod r s pod⟩⟩
    · apply hs.cons
      rintro _ _ ⟨⟩
  | create =>
    rw [events_setLastPodUsed]
    apply hs.cons
    rintro _ _ ⟨⟩
  | fail =>
    apply Released.updateStatus
    apply hs.cons
    rintro _ _ ⟨⟩

theorem Released.step (h : Released s.events) (hst : (podController cfg).step s a = some t) :
  Released t.events
  := by
  cases a with
  | sync key r retry =>
    apply (forall_sync_iff (Q := Released)).2 _ t hst
    intro _
    exact (syncs cfg r _ key).released h
  | syncStatus key r retry =>
    apply (forall_syncStatus_iff (Q := Released)).2 _ t hst
    intro _
    rcases events_syncPodStatusFromProviderHandler r _ key with ⟨heq, -⟩ | ⟨_, _, -, heq⟩
    · rw [heq]
      apply h
    · rw [heq]
      apply h.cons
      rintro _ _ ⟨⟩
  | deletePod uid r =>
    obtain ⟨uid', heq⟩ := events_providerDeletePod hst
    rw [heq]
    apply h.cons
    rintro _ _ ⟨⟩
  | _ =>
    rw [events_of_isQuiet rfl hst]
    apply h

/-- A pod is released only if it is marked, and no container is listed as running, or the provider
has just deleted it and has it no more. -/
theorem released_of_run {steps : List ControllerStep}
    (h : (podController cfg).run { s with events := [] } steps = some t) :
  Released t.events
  := by
  apply (podController cfg).run_induction (P := fun s => Released s.events) _ _
    ((podController cfg).meets_true _ _) h
  · rintro pod registered earlier hsu
    cases suffix_nil.mp hsu
  · intro u a v hu _ hst
    apply hu.step hst

end PodController

def markedTaskPod (status : PodStatus) : ApiPod :=
  { taskPod .pending with deletionTimestamp := some 1, status := status }

def markedWhileRunning : List ControllerStep :=
  told (taskPod .pending)
    ++ [.sync taskKey {} true, .notify runningTaskPod, .syncStatus taskKey {} true]
    ++ told (markedTaskPod runningTaskPod.status) ++ [.sync taskKey {} true]

theorem released_after_deletePod :
  ∃ t, (podController fourCores).run newPodController markedWhileRunning = some t
    ∧ .deletePod "u" ∈ t.events
    ∧ PodController.Released t.events
  := by
  have hrn : (podController fourCores).run newPodController markedWhileRunning = some _ := rfl
  exact ⟨_, hrn, by decide, PodController.released_of_run (s := newPodController) hrn⟩

def markedWhileCreated : List ControllerStep :=
  told (taskPod .pending) ++ [.sync taskKey {} true]
    ++ told (markedTaskPod (taskPod .pending).status) ++ [.sync taskKey {} true]

theorem released_while_created :
  ∃ t, (podController fourCores).run newPodController markedWhileCreated = some t
    ∧ t.provider.store.isInFlight "u" = true
    ∧ (taskKey, "u") ∈ t.deletePodsFromKubernetes
    ∧ ¬ PodController.AfterTeardown t.events
  := by
  refine ⟨_, rfl, rfl, by decide, ?_⟩
  intro ha
  obtain hd | hr := ha (markedTaskPod (taskPod .pending).status) true
    [.createPod "u"] (suffix_refl _)
  · cases mem_singleton.mp hd
  · cases hr

end Periapsis.Node
