import Periapsis.Node.PodController

/-!
# What the provider has after a sync

A sync that returns no error should leave the provider with the pod it synced.
-/

namespace Periapsis.Node

open Corev1 PodStore Option

def Gambit.Converged (g : Gambit) (pod : ApiPod) : Prop :=
  ∃ ps, g.store.pods.lookup pod.uid = some ps ∧ podsEqual ps.pod pod = true

def Gambit.Vacant (g : Gambit) (pod : ApiPod) : Prop :=
  ∀ ps, g.store.pods.lookup pod.uid = some ps → ps.inFlight = none ∧ ps.pod.spec.containers = []

theorem podsEqual_refl :
  podsEqual pod pod
  := by
  simp [podsEqual]

namespace Gambit

variable {cfg : PawnConfig} {r : Readings} {g : Gambit} {pod : ApiPod}

theorem converged_update (hf : ∀ ps, (f ps).pod = ps.pod) :
  Converged { g with store := g.store.update pod.uid f } pod ↔ g.Converged pod
  := by
  unfold Converged
  rw [lookup_update, if_pos rfl]
  cases g.store.pods.lookup pod.uid with
  | none => simp
  | some ps => simp [hf]

theorem converged_of_pod {store : PodStore} (h : store.pods.lookup pod.uid = some ps)
    (hps : ps.pod = pod) :
  Converged { g with store := store } pod
  := by
  use ps, h
  rw [hps]
  apply podsEqual_refl

theorem converged_createPod_iff (h : g.createPod cfg r pod = (t, none)) :
  t.Converged pod ↔ g.Converged pod ∨ pod.spec.containers ≠ [] ∧ g.Vacant pod
  := by
  have hcr := createsPod cfg r g pod
  rw [h] at hcr
  cases hcr with
  | empty hc => simp [hc]
  | inFlight hc _ hps hfl =>
    apply (or_iff_left _).symm
    rintro ⟨-, hv⟩
    rw [(hv _ hps).1] at hfl
    cases hfl
  | running hc _ hps hs =>
    refine Iff.trans (converged_update fun _ => rfl) (or_iff_left ?_).symm
    rintro ⟨-, hv⟩
    exact hs (hv _ hps).2
  | stub hc _ hps hi hs =>
    apply iff_of_true
    · unfold initRestartState initRestartStateFrom
      apply converged_of_pod
      · rw [lookup_update, if_pos rfl, lookup_update, if_pos rfl]
        exact congrArg (Option.map _) (congrArg (Option.map _) hps)
      · rfl
    · right
      use hc
      intro ps' hp
      cases hps.symm.trans hp
      exact ⟨hi, hs⟩
  | registered hc _ hps =>
    apply iff_of_true
    · exact converged_of_pod (Finmap.lookup_insert _) rfl
    · right
      use hc
      intro ps hso
      cases hps.symm.trans hso

end Gambit

namespace PodController

variable {cfg : PawnConfig} {r : Readings} {s : PodController} {key : PodKey} {pod : ApiPod}

@[simp]
theorem provider_setLastPodUsed :
  (s.setLastPodUsed key pod).provider = s.provider
  := by
  unfold setLastPodUsed
  split
  all_goals rfl

/-- The sync registers a pod that was changed, has containers, and of which the provider has at most
an idle stub. -/
structure Registers (s : PodController) (key : PodKey) (pod : ApiPod) : Prop where
  changed : s.Changed key pod
  unnamed : s.provider.getPod pod.podNamespace pod.name = none
  containers : pod.spec.containers ≠ []
  vacant : s.provider.Vacant pod

/-- After a sync without error of a pod that is not marked, the provider has the pod as it is
listed if and only if it had it so before, or the sync registers the pod. -/
theorem converged_iff (hlisted : s.podsLister.lookup key = some pod)
    (hmarked : pod.deletionTimestamp = none)
    (hnil : (s.syncPodFromKubernetesHandler cfg r key).2 = none) :
  (s.syncPodFromKubernetesHandler cfg r key).1.provider.Converged pod
    ↔ s.provider.Converged pod ∨ s.Registers key pod
  := by
  have hsy := syncs cfg r s key
  generalize s.syncPodFromKubernetesHandler cfg r key = result at hsy hnil
  have hk (h : ¬ s.Registers key pod) :
      s.provider.Converged pod ↔ s.provider.Converged pod ∨ s.Registers key pod :=
    (or_iff_left h).symm
  cases hsy with
  | missing hn | orphan hn => cases hn.symm.trans hlisted
  | release hpo hm =>
    obtain rfl := some.inj (hpo.symm.trans hlisted)
    rw [hmarked] at hm
    cases hm
  | unchanged hpo hu =>
    obtain rfl := some.inj (hpo.symm.trans hlisted)
    apply hk
    intro hr
    apply hu hr.changed
  | delete hch hm =>
    obtain rfl := some.inj (hch.listed.symm.trans hlisted)
    rw [hmarked] at hm
    cases hm
  | kept hch _ hp =>
    obtain rfl := some.inj (hch.listed.symm.trans hlisted)
    rw [provider_setLastPodUsed]
    apply hk
    intro hr
    cases hp.symm.trans hr.unnamed
  | create hch _ hp hce =>
    obtain rfl := some.inj (hch.listed.symm.trans hlisted)
    rw [provider_setLastPodUsed]
    apply Iff.trans (Gambit.converged_createPod_iff hce)
    apply or_congr_right
    constructor
    · rintro ⟨hc, hv⟩
      exact ⟨hch, hp, hc, hv⟩
    · intro hr
      exact ⟨hr.containers, hr.vacant⟩
  | fail => cases hnil

end PodController

def statefulPod (uid : String) : ApiPod :=
  { spec := { restartPolicy := .always, containers := [{ name := "app" }] }
    uid := uid
    podNamespace := "default"
    name := "web-0"
    status := { phase := .pending } }

def statefulKey : PodKey :=
  ⟨"default", "web-0"⟩

theorem converged_after_first_sync :
  ∃ s, (podController fourCores).run newPodController (told (statefulPod "u")) = some s
    ∧ (s.syncPodFromKubernetesHandler fourCores {} statefulKey).1.provider.Converged
        (statefulPod "u")
  := by
  refine ⟨_, rfl, ?_⟩
  apply (PodController.converged_iff rfl rfl rfl).mpr
  right
  refine ⟨⟨rfl, _, rfl, rfl⟩, rfl, nofun, ?_⟩
  intro ps hps
  cases hps

/-- The pod is created and synced, deleted at the API server, and created anew before the provider
has deleted the old one. The new pod is about to be synced. -/
def recreation : List ControllerStep :=
  told (statefulPod "u") ++ [.sync statefulKey {} true, .change statefulKey none,
    .list statefulKey false, .handle] ++ told (statefulPod "v")

theorem not_converged_after_recreation :
  ∃ s, (podController fourCores).run newPodController recreation = some s
    ∧ statefulKey ∈ s.syncPodsFromKubernetes
    ∧ s.podsLister.lookup statefulKey = some (statefulPod "v")
    ∧ (s.knownPods statefulKey).isSome = true
    ∧ (s.syncPodFromKubernetesHandler fourCores {} statefulKey).2 = none
    ∧ ¬ (s.syncPodFromKubernetesHandler fourCores {} statefulKey).1.provider.Converged
        (statefulPod "v")
  := by
  refine ⟨_, rfl, by decide, rfl, rfl, rfl, ?_⟩
  rintro ⟨ps, hps, -⟩
  cases hps

end Periapsis.Node
