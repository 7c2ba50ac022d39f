import Periapsis.Node.Gambit

/-!
# The registered pods

Of what the store keeps of a pod, its object and its phase tell whether the pod runs and with which
specification.
-/

namespace Periapsis.Node

open Corev1 Transition List Function

namespace PodStore

def registry (s : PodStore) (uid : String) : Option (ApiPod × PodPhase) :=
  (s.pods.lookup uid).map fun ps => (ps.pod, ps.phase)

theorem registry_put (s : PodStore) (uid : String) (ps : PodState) :
  (s.put uid ps).registry = Function.update s.registry uid (some (ps.pod, ps.phase))
  := by
  funext uid'
  rw [update_apply, registry, put]
  split
  next heq =>
    rw [heq, Finmap.lookup_insert]
    rfl
  next hne =>
    rw [Finmap.lookup_insert_of_ne _ hne]
    rfl

variable {s : PodStore} {uid : String}

theorem registry_update (hps : s.pods.lookup uid = some ps) (f : PodState → PodState) :
  (s.update uid f).registry = Function.update s.registry uid (some ((f ps).pod, (f ps).phase))
  := by
  funext uid'
  rw [update_apply, registry, lookup_update]
  split
  next heq =>
    rw [heq, hps]
    rfl
  · rfl

theorem registry_update_of_same (s : PodStore) (uid : String)
    (hf : ∀ ps, (f ps).pod = ps.pod ∧ (f ps).phase = ps.phase) :
  (s.update uid f).registry = s.registry
  := by
  funext uid'
  rw [registry, lookup_update]
  split
  · rw [Option.map_map, registry]
    congr 1
    funext ps
    rw [comp_apply, (hf ps).1, (hf ps).2]
  · rfl

theorem registry_initRestartState :
  (s.initRestartState pod started probed).registry = s.registry
  := by
  apply registry_update_of_same
  intro ps
  exact ⟨rfl, rfl⟩

theorem registry_updateRestartState :
  (s.updateRestartState uid containerName f).registry = s.registry
  := by
  apply registry_update_of_same
  intro ps
  exact ⟨rfl, rfl⟩

theorem registry_markDeleting :
  (s.markDeleting uid).registry = s.registry
  := by
  rcases markDeleting_eq s uid with h | h
  · rw [h]
  · rw [h]
    apply registry_update_of_same s uid
    intro ps
    exact ⟨rfl, rfl⟩

theorem registry_of_lookup {s' : PodStore}
    (h : ∀ uid', s'.pods.lookup uid' = if uid' = uid then none else s.pods.lookup uid') :
  s'.registry = Function.update s.registry uid none
  := by
  funext uid'
  rw [update_apply, registry, h]
  split
  all_goals rfl

theorem registry_evictGhost :
  (s.evictGhost uid).registry = Function.update s.registry uid none
  := registry_of_lookup fun _ => lookup_evictGhost _ _ _

theorem registry_unregister (s : PodStore) (uid podNamespace name : String) (deletedAt now : Time) :
  (s.unregister uid podNamespace name deletedAt now).registry
    = Function.update s.registry uid none
  := registry_of_lookup fun _ => lookup_unregister _ _ _ _ _ _ _

theorem registry_registerHydratedBatch :
  (s.registerHydratedBatch entries).registry uid
    = (entries.reverse.find? fun e => e.uid = uid).elim (s.registry uid)
      fun e => some (e.pod, .running)
  := by
  suffices hfo : ∀ acc : PodStore × Int64 × Int64,
      (entries.foldl hydrateEntry acc).1.registry uid
        = (entries.reverse.find? fun e => e.uid = uid).elim (acc.1.registry uid)
          fun e => some (e.pod, .running) by
    apply hfo (s, 0, 0)
  induction entries with
  | nil =>
    intro acc
    rfl
  | cons e entries ih =>
    intro acc
    have hpu : (hydrateEntry acc e).1.registry
        = Function.update acc.1.registry e.uid (some (e.pod, .running)) := by
      apply registry_put
    rw [foldl_cons, ih, hpu, reverse_cons, find?_append, update_apply]
    cases entries.reverse.find? fun e => e.uid = uid with
    | some e' => rfl
    | none =>
      by_cases heq : e.uid = uid
      · simp [heq]
      · simp [heq, Ne.symm heq]

theorem registry_foldl {α : Type} {f : PodStore → α → PodStore}
    (hf : ∀ s a, (f s a).registry = s.registry) (l : List α) :
  (l.foldl f s).registry = s.registry
  := foldl_eq registry (fun a _ s => hf s a) s

end PodStore

namespace Gambit

open PodStore

variable (clock : Nat → Time)

theorem registry_restoreRestarts (store : PodStore) (state : PersistedPodState) :
  (restoreRestarts clock store state).registry = store.registry
  := by
  rw [restoreRestarts, registry_foldl, registry_foldl]
  · apply registry_initRestartState
  all_goals
    intro s name
    split
    · rfl
    · apply registry_updateRestartState

theorem registry_adoptMachine (diskUIDs : List String) (store : PodStore) (m : ManagedMachine) :
  (adoptMachine clock diskUIDs store m).registry = store.registry
    ∨ m.uid ∉ diskUIDs ∧ ∃ pod : ApiPod, pod.volumes = []
      ∧ (adoptMachine clock diskUIDs store m).registry
        = update store.registry m.uid (some (pod, .running))
  := by
  rw [adoptMachine]
  split
  · left
    rfl
  next had =>
    simp only [not_or] at had
    right
    refine ⟨had.2.1,
      { spec := {}, uid := m.uid, podNamespace := m.podNamespace, name := m.name }, rfl, ?_⟩
    rw [registry_initRestartState]
    apply registry_put

theorem registry_adoptMachines (diskUIDs : List String) (uid : String)
    (machines : List ManagedMachine) (store : PodStore)
    (h : uid ∉ diskUIDs → ∀ p, store.registry uid = some p → p.1.volumes = []) :
  (uid ∈ diskUIDs →
      (machines.foldl (adoptMachine clock diskUIDs) store).registry uid = store.registry uid)
    ∧ (uid ∉ diskUIDs → ∀ p,
      (machines.foldl (adoptMachine clock diskUIDs) store).registry uid = some p →
        p.1.volumes = [])
  := by
  induction machines generalizing store with
  | nil => exact ⟨fun _ => rfl, h⟩
  | cons m machines ih =>
    rcases registry_adoptMachine clock diskUIDs store m with hsa | ⟨hm, pod, hpo, hre⟩
    · rw [← hsa]
      apply ih
      rw [hsa]
      exact h
    · have hs := ih (adoptMachine clock diskUIDs store m)
      rw [hre] at hs
      by_cases heq : uid = m.uid
      · subst heq
        rw [update_self] at hs
        refine ⟨fun hd => absurd hd hm, (hs ?_).2⟩
        intro _ p hp
        cases hp
        exact hpo
      · rw [update_of_ne heq] at hs
        exact hs h

def restoredState (states : List PersistedPodState) (uid : String) : Option PersistedPodState :=
  (states.filter fun state => ¬ state.phase.terminal).reverse.find?
    fun state => state.pod.uid = uid

theorem registry_hydrateFromRuntime (states : List PersistedPodState)
    (machines : List ManagedMachine) (uid : String) :
  (∀ state, restoredState states uid = some state →
      (hydrateFromRuntime clock states machines).store.registry uid = some (state.pod, .running))
    ∧ (restoredState states uid = none → ∀ p,
      (hydrateFromRuntime clock states machines).store.registry uid = some p →
        p.1.volumes = [])
  := by
  let restored := states.filter fun state => ¬ state.phase.terminal
  let batch := newPodStore.registerHydratedBatch
    (restored.map fun state => ⟨state.pod.uid, state.pod, state.podIP⟩)
  have hb : batch.registry uid
      = (restoredState states uid).elim none fun state => some (state.pod, .running) := by
    rw [registry_registerHydratedBatch, ← map_reverse, find?_map]
    change Option.elim (Option.map _ (restoredState states uid)) _ _ = _
    cases restoredState states uid with
    | _ => rfl
  let diskUIDs := restored.map (·.pod.uid)
  have hd : uid ∈ diskUIDs ↔ (restoredState states uid).isSome := by
    rw [restoredState, find?_isSome]
    simp [diskUIDs, restored]
  have hr : (restored.foldl (restoreRestarts clock) batch).registry = batch.registry := by
    apply registry_foldl
    apply registry_restoreRestarts
  have ha := registry_adoptMachines clock diskUIDs uid machines
    (restored.foldl (restoreRestarts clock) batch) (by
      intro hnw p hp
      rw [hd, Bool.not_eq_true, Option.isSome_eq_false_iff, Option.isNone_iff_eq_none] at hnw
      rw [hr, hb, hnw] at hp
      cases hp)
  rw [hr, hb] at ha
  constructor
  · intro state hst
    have hre := ha.1 (hd.2 (by rw [hst]; rfl))
    rw [hst] at hre
    exact hre
  · intro hn
    apply ha.2
    rw [hd, hn]
    simp

end Gambit

end Periapsis.Node
