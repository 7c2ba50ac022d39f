import Periapsis.Node.PodStore
import Mathlib.Tactic.Abel

/-!
# The accounts of the pod store

The store counts what its pods request in two counters, changed when a pod is registered, removed or
specified.
-/

namespace Periapsis.Node

open Corev1 Transition List PodState

def PodState.resources (ps : PodState) : Int64 × Int64 :=
  podResources ps.pod

namespace PodStore

variable {s : PodStore} {uid : String} {ps : PodState}

variable (s)

def used : Int64 × Int64 :=
  (s.usedCPU, s.usedMem)

def requested : Int64 × Int64 :=
  total PodState.resources s.pods

def Balanced : Prop :=
  s.used = s.requested

def Vacant (uid : String) : Prop :=
  ∀ ps, s.pods.lookup uid = some ps → ps.pod.spec.containers = []

def SameRequests (uid : String) (pod : ApiPod) : Prop :=
  ∀ ps, s.pods.lookup uid = some ps → podResources pod = ps.resources

def Allowed : StoreOp → Prop
  | .registerPending uid _ _ => s.Vacant uid
  | .registerHydrated uid _ _ => s.Vacant uid
  | .registerHydratedBatch entries =>
    (entries.map HydratedEntry.uid).Nodup ∧ ∀ e ∈ entries, s.Vacant e.uid
  | .promoteRunning uid pod _ => s.SameRequests uid pod
  | .markFailed uid pod _ _ => s.SameRequests uid pod
  | _ => True

variable {s}

/-! ### The parts of an operation -/

variable {cpu mem : Int64}

@[simp]
theorem used_use :
  (s.use cpu mem).used = s.used + (cpu, mem)
  := rfl

@[simp]
theorem requested_use :
  (s.use cpu mem).requested = s.requested
  := rfl

@[simp]
theorem used_put :
  (s.put uid ps).used = s.used
  := rfl

theorem resources_of_stub (h : ps.pod.spec.containers = []) :
  ps.resources = 0
  := by
  simp [resources, podResources, h]

theorem Vacant.share (h : s.Vacant uid) :
  share resources s.pods uid = 0
  := by
  cases hl : s.pods.lookup uid with
  | none => apply share_of_none _ _ _ hl
  | some ps =>
    rw [share_of_lookup _ _ _ hl]
    apply resources_of_stub (h ps hl)

theorem requested_put (h : s.Vacant uid) (ps : PodState) :
  (s.put uid ps).requested = s.requested + ps.resources
  := by
  rw [requested, put, total_insert, h.share, sub_zero]
  rfl

theorem requested_drop (h : s.pods.lookup uid = some ps) :
  (s.drop uid ps).requested = s.requested - ps.resources
  := by
  rw [requested, drop, total_erase, share_of_lookup _ _ _ h]
  rfl

theorem requested_update (h : s.pods.lookup uid = some ps) :
  (s.update uid f).requested = s.requested - ps.resources + (f ps).resources
  := by
  rw [requested, update, h]
  rw [total_insert, share_of_lookup _ _ _ h]
  rfl

@[simp]
theorem used_update :
  (s.update uid f).used = s.used
  := by
  unfold update
  split
  all_goals rfl

theorem Balanced.update (hs : s.Balanced)
    (h : ∀ ps, s.pods.lookup uid = some ps → (f ps).resources = ps.resources) :
  (s.update uid f).Balanced
  := by
  cases hl : s.pods.lookup uid with
  | none =>
    unfold PodStore.update
    rw [hl]
    apply hs
  | some ps =>
    unfold Balanced
    rw [used_update, requested_update hl, h ps hl, sub_add_cancel]
    apply hs

/-! ### The operations -/

theorem Balanced.register (hs : s.Balanced) (h : s.Vacant uid) (ps : PodState) :
  (s.register uid ps).Balanced
  := by
  unfold Balanced PodStore.register
  rw [used_use, requested_use, requested_put h, used_put, hs]
  rfl

theorem Vacant.put (h : s.Vacant uid) (hne : uid ≠ uid') (ps : PodState) :
  (s.put uid' ps).Vacant uid
  := by
  intro ps' hp
  rw [PodStore.put, Finmap.lookup_insert_of_ne _ hne] at hp
  apply h ps' hp

variable {entries : List HydratedEntry}

theorem hydrateEntry_balanced (acc : PodStore × Int64 × Int64)
    (ha : acc.1.used + acc.2 = acc.1.requested) (hn : (entries.map HydratedEntry.uid).Nodup)
    (hv : ∀ e ∈ entries, acc.1.Vacant e.uid) :
  (entries.foldl hydrateEntry acc).1.used + (entries.foldl hydrateEntry acc).2
    = (entries.foldl hydrateEntry acc).1.requested
  := by
  induction entries generalizing acc with
  | nil => exact ha
  | cons e entries ih =>
    rw [map_cons, nodup_cons] at hn
    apply ih _ _ hn.2
    · intro e' he'
      apply (hv e' (mem_cons_of_mem _ he')).put
      rintro heq
      apply hn.1
      rw [← heq]
      apply mem_map_of_mem he'
    · have he := requested_put (hv e mem_cons_self) (hydratedState e.pod e.ip)
      change acc.1.used + (acc.2 + podResources e.pod) = _
      rw [← add_assoc, ha]
      exact he.symm

theorem Balanced.registerHydratedBatch (hs : s.Balanced)
    (hn : (entries.map HydratedEntry.uid).Nodup) (hv : ∀ e ∈ entries, s.Vacant e.uid) :
  (s.registerHydratedBatch entries).Balanced
  := by
  have ha : s.used + (0, 0) = s.requested := (add_zero _).trans hs
  exact hydrateEntry_balanced (s, 0, 0) ha hn hv

theorem purgeEntry_balanced (uids : List String) (acc : PodStore × Int64 × Int64)
    (ha : acc.1.used - acc.2 = acc.1.requested) :
  (uids.foldl purgeEntry acc).1.used - (uids.foldl purgeEntry acc).2
    = (uids.foldl purgeEntry acc).1.requested
  := by
  induction uids generalizing acc with
  | nil => exact ha
  | cons uid uids ih =>
    apply ih
    obtain ⟨s, sub⟩ := acc
    unfold purgeEntry
    dsimp only at ha ⊢
    split
    · exact ha
    next ps hps =>
      change s.used - (sub + ps.resources) = _
      rw [requested_drop hps, ← ha]
      abel

section

variable (hs : s.Balanced)
include hs

theorem Balanced.purgeHydrated (uids : List String) :
  (s.purgeHydrated uids).Balanced
  := by
  have ha : s.used - (0, 0) = s.requested := (sub_zero _).trans hs
  have h := purgeEntry_balanced uids (s, 0, 0) ha
  rw [sub_eq_add_neg] at h
  exact h

theorem Balanced.evictGhost (uid : String) :
  (s.evictGhost uid).Balanced
  := by
  unfold PodStore.evictGhost
  split
  · exact hs
  next ps hps =>
    change s.used + -ps.resources = (s.drop uid ps).requested
    rw [requested_drop hps, hs, sub_eq_add_neg]

theorem Balanced.unregister (uid podNamespace name : String) (deletedAt now : Time) :
  (s.unregister uid podNamespace name deletedAt now).Balanced
  := by
  unfold PodStore.unregister
  split
  · exact hs
  next ps hps =>
    change s.used + -ps.resources = (s.drop uid ps).requested
    rw [requested_drop hps, hs, sub_eq_add_neg]

theorem Balanced.alreadyRunning (uid : String) (pod : ApiPod) :
  (s.alreadyRunning uid pod).1.Balanced
  := by
  unfold PodStore.alreadyRunning
  split
  · exact hs
  next ps hps =>
    dsimp only
    split
    next hsu =>
      have hl : (s.use (podResources pod).1 (podResources pod).2).pods.lookup uid
          = some ps := hps
      unfold Balanced
      rw [used_update, used_use, requested_update hl, requested_use,
        resources_of_stub (isEmpty_iff.1 hsu), sub_zero, hs]
      rfl
    · apply hs.update
      intro ps _
      rfl

theorem Balanced.apply (hop : s.Allowed op) :
  (s.apply op).Balanced
  := by
  cases op with
  | registerPending | registerHydrated => exact hs.register hop _
  | registerHydratedBatch entries => exact hs.registerHydratedBatch hop.1 hop.2
  | alreadyRunning uid pod => exact hs.alreadyRunning uid pod
  | promoteRunning | markFailed => exact hs.update hop
  | unregister uid podNamespace name deletedAt now =>
    exact hs.unregister uid podNamespace name deletedAt now
  | evictGhost uid => exact hs.evictGhost uid
  | purgeHydrated staleUIDs => exact hs.purgeHydrated staleUIDs
  | setContainerState uid containerName state ready now =>
    apply hs.update
    intro ps _
    obtain ⟨status, heq⟩ := ps.setContainerState_eq containerName state ready now
    rw [heq]
    rfl
  | markDeleting uid =>
    have hu : (s.update uid fun ps => { ps with deleting := true }).Balanced :=
      hs.update fun _ _ => rfl
    change (s.markDeleting uid).Balanced
    rcases s.markDeleting_eq uid with heq | heq
    · rw [heq]
      apply hs
    · rw [heq]
      apply hu
  | bumpBackoff uid containerName =>
    change (s.bumpBackoff uid containerName).1.Balanced
    rcases s.bumpBackoff_eq uid containerName with heq | ⟨f, heq⟩
    · rw [heq]
      apply hs
    · rw [heq]
      exact hs.update fun _ _ => rfl
  | _ => exact hs.update fun _ _ => rfl

end

end PodStore

open PodStore

/-- After allowed operations the two counters are, modulo 2^64, the sums of what the registered pods
request, and 0 if no pod is registered. -/
theorem used_modEq_sum {ops : List StoreOp} {s : PodStore}
    (hops : podStore.Meets Allowed newPodStore ops) (hrun : podStore.run newPodStore ops = some s) :
  s.usedCPU.toInt ≡ total (fun ps => (podResources ps.pod).1.toInt) s.pods [ZMOD 2 ^ 64]
    ∧ s.usedMem.toInt ≡ total (fun ps => (podResources ps.pod).2.toInt) s.pods [ZMOD 2 ^ 64]
    ∧ (s.pods = ∅ → s.usedCPU = 0 ∧ s.usedMem = 0)
  := by
  have hst : newPodStore.Balanced := rfl
  have hb : s.Balanced := by
    apply podStore.run_induction hst _ hops hrun
    intro s op t hs hop hse
    cases hse
    apply hs.apply hop
  have hc : s.usedCPU = total (fun ps => (podResources ps.pod).1) s.pods :=
    (congrArg Prod.fst hb).trans
      (total_hom (AddMonoidHom.fst Int64 Int64) resources s.pods).symm
  have hm : s.usedMem = total (fun ps => (podResources ps.pod).2) s.pods :=
    (congrArg Prod.snd hb).trans
      (total_hom (AddMonoidHom.snd Int64 Int64) resources s.pods).symm
  refine ⟨?_, ?_, ?_⟩
  · rw [hc]
    apply toInt_total
  · rw [hm]
    apply toInt_total
  · intro hem
    rw [hc, hm, hem]
    exact ⟨rfl, rfl⟩

theorem used_modEq_sum_stub :
  let pod : ApiPod :=
    { spec := ⟨.always, [{ name := "a", requests := { cpu := some 250, memory := some 1024 } }]⟩
      uid := "u", podNamespace := "default", name := "web" }
  let ops : List StoreOp :=
    [.registerHydrated "u" { pod with spec := ⟨.always, []⟩ } "10.0.0.1", .alreadyRunning "u" pod]
  ∃ s, podStore.run newPodStore ops = some s ∧ s.usedCPU = 250 ∧ s.usedMem = 1024
    ∧ s.usedCPU.toInt ≡ total (fun ps => (podResources ps.pod).1.toInt) s.pods [ZMOD 2 ^ 64]
  := by
  intro pod ops
  have ho : podStore.Meets Allowed newPodStore ops := by
    refine ⟨?_, fun _ _ => ⟨trivial, fun _ _ => trivial⟩⟩
    intro ps hps
    cases hps
  exact ⟨_, rfl, by decide, by decide, (used_modEq_sum ho rfl).1⟩

end Periapsis.Node
