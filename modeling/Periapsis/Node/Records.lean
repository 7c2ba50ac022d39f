import Periapsis.Node.PodStore

/-!
# The records of a container

The store keeps a record of the restarts and a record of the probes of each container.
-/

namespace Periapsis.Node

open Periapsis.Types Option Finmap List

def StoreOp.Resets (uid name : String) : StoreOp → Prop
  | .registerPending uid' _ _ => uid' = uid
  | .registerHydrated uid' _ _ => uid' = uid
  | .registerHydratedBatch entries => uid ∈ entries.map PodStore.HydratedEntry.uid
  | .unregister uid' _ _ _ _ => uid' = uid
  | .evictGhost uid' => uid' = uid
  | .purgeHydrated staleUIDs => uid ∈ staleUIDs
  | .initRestartState pod _ _ => pod.uid = uid
  | .initRestartStateFrom uid' _ _ _ => uid' = uid
  | .resetBackoff uid' name' => uid' = uid ∧ name' = name
  | .patchBackoff uid' name' _ => uid' = uid ∧ name' = name
  | _ => False

def StoreOp.Counts (uid name : String) : StoreOp → Prop
  | .bumpBackoff uid' name' => uid' = uid ∧ name' = name
  | .incrementRestart uid' name' _ => uid' = uid ∧ name' = name
  | .patchRestartCount uid' name' _ => uid' = uid ∧ name' = name
  | _ => False

def StoreOp.isProbe : StoreOp → Bool
  | .updateProbeState .. => true
  | .resetProbeState .. => true
  | _ => false

def StoreOp.initPayload : StoreOp → Option (String × List ContainerInitPayload × (Nat → Time))
  | .initRestartState pod _ probed =>
    some (pod.uid, pod.spec.containers.map fun c => ⟨c.name, c.readinessProbe.isSome⟩, probed)
  | .initRestartStateFrom uid containers _ probed => some (uid, containers, probed)
  | _ => none

namespace PodStore

variable {s s' : PodStore} {uid uid' name name' : String}

/-! ### Changes of one record -/

theorem probeState_updateProbeState (s : PodStore) (uid name : String)
    (f : ContainerProbeState → ContainerProbeState) :
  (s.updateProbeState uid name f).probeState uid' name'
    = if uid' = uid ∧ name' = name then (s.probeState uid name).map f
      else s.probeState uid' name'
  := by
  rw [probeState, updateProbeState, lookup_update]
  by_cases hu : uid' = uid
  · subst hu
    rw [if_pos rfl, probeState, probeState]
    cases s.pods.lookup uid' with
    | none => simp
    | some ps =>
      simp only [map_some, bind_some]
      cases ps.probes with
      | none => simp
      | some probes =>
        by_cases hn : name' = name
        · subst hn
          cases hre : probes name' with
          | _ => simp [hre]
        · cases hre : probes name with
          | _ => simp [hn, hre]
  · rw [if_neg hu, if_neg (fun h => hu h.1)]
    rfl

theorem probeState_resetProbeState (s : PodStore) (uid name : String) (now : Time) :
  (s.resetProbeState uid name now).probeState uid' name'
    = if uid' = uid ∧ name' = name then
        ((s.pods.lookup uid).bind PodState.probes).map fun _ => { startedAt := now }
      else s.probeState uid' name'
  := by
  rw [probeState, resetProbeState, lookup_update]
  by_cases hu : uid' = uid
  · subst hu
    rw [if_pos rfl, probeState]
    cases s.pods.lookup uid' with
    | none => simp
    | some ps =>
      simp only [map_some, bind_some]
      cases ps.probes with
      | none => simp
      | some probes =>
        by_cases hn : name' = name
        all_goals simp [hn]
  · rw [if_neg hu, if_neg (fun h => hu h.1)]
    rfl

theorem restartState_update_of_restarts (s : PodStore) (uid : String) {f : PodState → PodState}
    (hf : ∀ ps, (f ps).restarts = ps.restarts) :
  (s.update uid f).restartState uid' name' = s.restartState uid' name'
  := by
  rw [restartState, lookup_update]
  split
  · rw [restartState]
    cases s.pods.lookup uid' with
    | none => rfl
    | some ps => simp [hf]
  · rfl

theorem probeState_update_of_probes (s : PodStore) (uid : String)
    (hf : ∀ ps, (f ps).probes = ps.probes) :
  (s.update uid f).probeState uid' name' = s.probeState uid' name'
  := by
  rw [probeState, lookup_update]
  split
  · rw [probeState]
    cases s.pods.lookup uid' with
    | none => rfl
    | some ps => simp [hf]
  · rfl

theorem probeState_bumpBackoff :
  (s.bumpBackoff uid name).1.probeState uid' name' = s.probeState uid' name'
  := by
  unfold bumpBackoff
  split
  · rfl
  · exact probeState_update_of_probes _ _ fun _ => rfl

theorem restartState_updateRestartState :
  (s.updateRestartState uid name f).restartState uid' name'
    = if uid' = uid ∧ name' = name then (s.restartState uid name).map f
      else s.restartState uid' name'
  := by
  rw [restartState, updateRestartState, lookup_update]
  by_cases hu : uid' = uid
  · subst hu
    rw [if_pos rfl, restartState, restartState]
    cases s.pods.lookup uid' with
    | none => simp
    | some ps =>
      simp only [map_some, bind_some]
      by_cases hn : name' = name
      · subst hn
        cases hre : ps.restarts name' with
        | none => simp [hre]
        | some state => simp
      · cases hre : ps.restarts name with
        | _ => simp [hn]
  · rw [if_neg hu, if_neg (fun h => hu h.1)]
    rfl

theorem initProbes_eq_some {containers : List ContainerInitPayload} {now : Nat → Time}
    {state : ContainerProbeState} (h : initProbes containers now name = some state) :
  ∃ c ∈ containers, c.name = name
    ∧ ∃ t, state = { startedAt := t, ready := !c.hasReadinessProbe }
  := by
  induction containers using reverseRecOn with
  | nil => cases h
  | append_singleton containers c ih =>
    have hla : initProbes (containers ++ [c]) now
        = Function.update (initProbes containers now) c.name
            (some { startedAt := now containers.length, ready := !c.hasReadinessProbe }) := by
      simp [initProbes, zipIdx_append]
    rw [hla, Function.update_apply] at h
    split at h
    next heq =>
      cases h
      exact ⟨c, by simp, heq.symm, _, rfl⟩
    · obtain ⟨c', hc', hfo⟩ := ih h
      exact ⟨c', by simp [hc'], hfo⟩

/-! ### Changes of a pod -/

theorem probeState_of_lookup (h : s'.pods.lookup uid = s.pods.lookup uid) :
  s'.probeState uid name = s.probeState uid name
  := by
  rw [probeState, probeState, h]

theorem probeState_eq_none (h : ∀ ps, s.pods.lookup uid = some ps → ps.probes = none) :
  s.probeState uid name = none
  := by
  rw [probeState]
  cases hps : s.pods.lookup uid with
  | none => rfl
  | some ps => simp [h ps hps]

theorem probeState_foldl {α : Type} {f : PodStore × Int64 × Int64 → α → PodStore × Int64 × Int64}
    (hf : ∀ acc a, (f acc a).1.probeState uid name = acc.1.probeState uid name
      ∨ (f acc a).1.probeState uid name = none) (l : List α) (acc : PodStore × Int64 × Int64) :
  (l.foldl f acc).1.probeState uid name = acc.1.probeState uid name
    ∨ (l.foldl f acc).1.probeState uid name = none
  := by
  induction l generalizing acc with
  | nil => exact .inl rfl
  | cons a l ih =>
    rw [foldl_cons]
    rcases ih (f acc a) with heq | hno
    · rw [heq]
      apply hf
    · exact .inr hno

variable {ps : PodState}

theorem probeState_put (h : ps.probes = none) :
  (s.put uid' ps).probeState uid name = s.probeState uid name
    ∨ (s.put uid' ps).probeState uid name = none
  := by
  by_cases heq : uid = uid'
  · right
    apply probeState_eq_none
    subst heq
    intro ps' hp
    rw [put, lookup_insert] at hp
    cases hp
    exact h
  · left
    exact probeState_of_lookup (lookup_put_of_ne _ _ _ heq _)

theorem probeState_drop :
  (s.drop uid' ps).probeState uid name = s.probeState uid name
    ∨ (s.drop uid' ps).probeState uid name = none
  := by
  by_cases heq : uid = uid'
  · right
    apply probeState_eq_none
    subst heq
    intro ps' hp
    rw [drop, lookup_erase] at hp
    cases hp
  · left
    exact probeState_of_lookup (lookup_drop_of_ne _ _ _ heq _)

inductive RecordsStep (uid : String) (s : PodStore) (op : StoreOp) (s' : PodStore) : Prop
  | changed {f : String → ContainerRestartState → ContainerRestartState}
      (hrestarts : ∀ name, s'.restartState uid name = (s.restartState uid name).map (f name))
      (hbackoff : ∀ name, ¬ op.Resets uid name → op ≠ .bumpBackoff uid name →
        ∀ rs, (f name rs).backoff = rs.backoff)
      (hcount : ∀ name, ¬ op.Counts uid name → ∀ rs, (f name rs).count = rs.count)
      (hprobes : ∀ name, s'.probeState uid name = s.probeState uid name)
  | replaced (hresets : ∀ name, op.Resets uid name)
      (hprobes : ∀ name, s'.probeState uid name = s.probeState uid name
        ∨ s'.probeState uid name = none)
  | begun {containers : List ContainerInitPayload} {now : Nat → Time}
      (hresets : ∀ name, op.Resets uid name)
      (hinit : op.initPayload = some (uid, containers, now))
      (hprobes : ∀ name, s'.probeState uid name = none
        ∨ s'.probeState uid name = initProbes containers now name)
  | probed (hop : op.isProbe = true)
      (hrestarts : ∀ name, s'.restartState uid name = s.restartState uid name)

namespace RecordsStep

variable {op : StoreOp}

theorem kept (hrs : ∀ name, s'.restartState uid name = s.restartState uid name)
    (hp : ∀ name, s'.probeState uid name = s.probeState uid name) :
  RecordsStep uid s op s'
  := by
  apply RecordsStep.changed (f := fun _ rs => rs) _ (fun _ _ _ _ => rfl) (fun _ _ _ => rfl) hp
  intro name
  rw [hrs, Option.map_id']

theorem of_lookup (h : s'.pods.lookup uid = s.pods.lookup uid) :
  RecordsStep uid s op s'
  := by
  apply RecordsStep.kept
  · intro name
    rw [restartState, restartState, h]
  · intro name
    apply probeState_of_lookup h

theorem of_update {f : PodState → PodState}
    (hl : s'.pods.lookup uid = (s.update uid' f).pods.lookup uid)
    (hf : ∀ ps, (f ps).restarts = ps.restarts ∧ (f ps).probes = ps.probes) :
  RecordsStep uid s op s'
  := by
  apply RecordsStep.kept
  · intro name
    rw [restartState, hl]
    exact restartState_update_of_restarts s uid' fun ps => (hf ps).1
  · intro name
    rw [probeState, hl]
    exact probeState_update_of_probes s uid' fun ps => (hf ps).2

theorem of_updateRestartState {g : ContainerRestartState → ContainerRestartState}
    (hb : ¬ op.Resets uid' name' → op ≠ .bumpBackoff uid' name' →
      ∀ rs, (g rs).backoff = rs.backoff)
    (hc : ¬ op.Counts uid' name' → ∀ rs, (g rs).count = rs.count) :
  RecordsStep uid s op (s.updateRestartState uid' name' g)
  := by
  apply RecordsStep.changed
    (f := fun name rs => if uid = uid' ∧ name = name' then g rs else rs)
  · intro name
    rw [restartState_updateRestartState]
    split
    next heq =>
      rw [heq.1, heq.2]
    · rw [Option.map_id']
  · intro name hr hbu rs
    split
    next heq =>
      obtain ⟨rfl, rfl⟩ := heq
      apply hb hr hbu
    · rfl
  · intro name hco rs
    split
    next heq =>
      obtain ⟨rfl, rfl⟩ := heq
      apply hc hco
    · rfl
  · intro name
    exact probeState_update_of_probes s uid' fun _ => rfl

theorem of_put {ps : PodState} (hpo : s'.pods = (s.put uid' ps).pods) (hps : ps.probes = none)
    (hr : ∀ name, op.Resets uid' name) :
  RecordsStep uid s op s'
  := by
  by_cases heq : uid = uid'
  · subst heq
    apply RecordsStep.replaced hr
    intro name
    right
    apply probeState_eq_none
    intro ps' hp
    rw [hpo, put, lookup_insert] at hp
    cases hp
    exact hps
  · apply of_lookup
    rw [hpo]
    apply lookup_put_of_ne _ _ _ heq

theorem of_removed (h : s'.pods.lookup uid = if uid = uid' then none else s.pods.lookup uid)
    (hr : ∀ name, op.Resets uid' name) :
  RecordsStep uid s op s'
  := by
  split at h
  next heq =>
    subst heq
    apply RecordsStep.replaced hr
    intro name
    right
    apply probeState_eq_none
    intro ps hps
    cases h.symm.trans hps
  · exact of_lookup h

theorem of_init {containers : List ContainerInitPayload} {started probed : Nat → Time}
    (hi : op.initPayload = some (uid', containers, probed)) (hr : ∀ name, op.Resets uid' name) :
  RecordsStep uid s op (s.initRestartStateFrom uid' containers started probed)
  := by
  by_cases heq : uid = uid'
  · subst heq
    apply RecordsStep.begun hr hi
    intro name
    rw [probeState, initRestartStateFrom, lookup_update, if_pos rfl]
    cases s.pods.lookup uid with
    | none => exact .inl rfl
    | some ps => exact .inr rfl
  · apply of_lookup
    rw [initRestartStateFrom, lookup_update, if_neg heq]

end RecordsStep

theorem apply_records (s : PodStore) (op : StoreOp) (uid : String) :
  RecordsStep uid s op (s.apply op)
  := by
  cases op with
  | registerPending | registerHydrated => exact .of_put rfl rfl fun _ => rfl
  | registerHydratedBatch entries =>
    by_cases hu : uid ∈ entries.map HydratedEntry.uid
    · refine .replaced (fun _ => hu) fun name => probeState_foldl ?_ entries (s, 0, 0)
      intro acc e
      apply probeState_put
      rfl
    · exact .of_lookup (lookup_registerHydratedBatch _ _ hu)
  | purgeHydrated uids =>
    by_cases hu : uid ∈ uids
    · refine .replaced (fun _ => hu) fun name => probeState_foldl ?_ uids (s, 0, 0)
      intro acc uid'
      unfold purgeEntry
      dsimp only
      split
      · exact .inl rfl
      · apply probeState_drop
    · exact .of_lookup (lookup_purgeHydrated _ _ hu)
  | unregister => exact .of_removed (lookup_unregister ..) fun _ => rfl
  | evictGhost => exact .of_removed (lookup_evictGhost ..) fun _ => rfl
  | initRestartState | initRestartStateFrom => exact .of_init rfl fun _ => rfl
  | alreadyRunning uid' pod =>
    change RecordsStep uid s _ (s.alreadyRunning uid' pod).1
    rcases s.alreadyRunning_eq uid' pod with heq | heq | heq
    · rw [heq]
      exact .of_lookup rfl
    · have hl : (s.alreadyRunning uid' pod).1.pods.lookup uid
          = (s.update uid'
              fun ps => { ps with pod := pod, hydrated := false }).pods.lookup uid := by
        rw [heq, lookup_update, lookup_update]
        rfl
      exact .of_update hl fun _ => ⟨rfl, rfl⟩
    · rw [heq]
      exact .of_update rfl fun _ => ⟨rfl, rfl⟩
  | markDeleting uid' =>
    change RecordsStep uid s _ (s.markDeleting uid')
    rcases s.markDeleting_eq uid' with heq | heq
    · rw [heq]
      exact .of_lookup rfl
    · rw [heq]
      exact .of_update rfl fun _ => ⟨rfl, rfl⟩
  | setContainerState uid' containerName state ready now =>
    apply RecordsStep.of_update rfl
    intro ps
    obtain ⟨status, heq⟩ := ps.setContainerState_eq containerName state ready now
    rw [heq]
    exact ⟨rfl, rfl⟩
  | bumpBackoff uid' name' =>
    change RecordsStep uid s _ (s.bumpBackoff uid' name').1
    rcases s.bumpBackoff_eq uid' name' with heq | ⟨f, heq⟩
    · rw [heq]
      exact .of_lookup rfl
    · rw [heq]
      exact .of_updateRestartState (fun _ hne => absurd rfl hne) fun hne => absurd ⟨rfl, rfl⟩ hne
  | markRestarted => exact .of_updateRestartState (fun _ _ _ => rfl) fun _ _ => rfl
  | resetBackoff | patchBackoff =>
    exact .of_updateRestartState (fun hne => absurd ⟨rfl, rfl⟩ hne) fun _ _ => rfl
  | incrementRestart | patchRestartCount =>
    exact .of_updateRestartState (fun _ _ _ => rfl) fun hne => absurd ⟨rfl, rfl⟩ hne
  | updateProbeState | resetProbeState =>
    refine .probed rfl fun name => restartState_update_of_restarts _ _ fun _ => rfl
  | _ => exact .of_update rfl fun _ => ⟨rfl, rfl⟩

end PodStore

end Periapsis.Node
