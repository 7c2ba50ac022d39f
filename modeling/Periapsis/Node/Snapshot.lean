import Periapsis.Node.PodStore
import Periapsis.Transition.Channel

/-!
# The snapshot of the pod store

Readers that must not lock the store read a snapshot, which the aggregator rebuilds after a trigger
and publishes.
-/

namespace Periapsis.Node

open Corev1 Transition List Option PodState

structure PodSnapshot where
  name : String
  podNamespace : String
  uid : String
  ip : String
  phase : PodPhase
  containers : Nat
  deriving DecidableEq

def PodState.row (uid : String) (ps : PodState) : Option PodSnapshot :=
  if ps.hydrated then none
  else
    some
      { name := ps.pod.name
        podNamespace := ps.pod.podNamespace
        uid := uid
        ip := ps.ip
        phase := ps.phase
        containers := ps.pod.spec.containers.length }

def PodState.hasStatus (ps : PodState) (containerName : String) : Bool :=
  let status := (ApiPod.syncStatusToSpec ps.pod).status
  (status.containerStatuses ++ status.initContainerStatuses).any fun cs =>
    cs.name = containerName

inductive Aggregator where
  | waiting
  | triggered
  | reading (remaining : Finset String) (snaps : List PodSnapshot)
  | finished (snaps : List PodSnapshot)
  | stopped

structure SnapshotStore where
  store : PodStore
  triggerCh : Channel Unit 1
  aggregator : Aggregator
  roSnap : Option (List PodSnapshot)
  changed : Nat
  mutated : Bool

def newSnapshotStore : SnapshotStore where
  store := newPodStore
  triggerCh := .empty
  aggregator := .waiting
  roSnap := none
  changed := 0
  mutated := false

def SnapshotStore.loadSnapshot (s : SnapshotStore) : List PodSnapshot :=
  s.roSnap.getD []

namespace PodStore

def locksRegistry : StoreOp → Bool
  | .registerPending .. => true
  | .registerHydrated .. => true
  | .registerHydratedBatch .. => true
  | .unregister .. => true
  | .evictGhost .. => true
  | .purgeHydrated .. => true
  | _ => false

def triggers (s : PodStore) : StoreOp → Bool
  | .registerPending .. => true
  | .registerHydrated .. => true
  | .registerHydratedBatch .. => true
  | .purgeHydrated .. => true
  | .unregister uid _ _ _ _ => s.hasPod uid
  | .evictGhost uid => s.hasPod uid
  | .alreadyRunning uid _ => s.hasPod uid
  | .promoteRunning uid _ _ => s.hasPod uid
  | .markFailed uid _ _ _ => s.hasPod uid
  | .setPodStatus uid _ => s.hasPod uid
  | .setPhase uid _ => s.hasPod uid
  | .setPodIP uid _ => s.hasPod uid
  | .clearHydrated uid => s.hasPod uid
  | .setContainerState uid containerName _ _ _ =>
    (s.pods.lookup uid).any fun ps => ps.hasStatus containerName
  | _ => false

def row (s : PodStore) (uid : String) : Option PodSnapshot :=
  (s.pods.lookup uid).bind (PodState.row uid)

end PodStore

open PodStore

inductive SnapshotStep where
  | change (op : StoreOp)
  /-- An operation on a pod changes a state that was taken out of the registry since it was looked
  up. -/
  | changeDetached
  | triggerSnapshot
  | receive
  | lock
  | read (uid : String)
  | unlock
  | publish
  | close

def SnapshotStore.change (s : SnapshotStore) (op : StoreOp) : SnapshotStore :=
  if s.store.triggers op then
    { s with store := s.store.apply op, changed := s.changed + 1, mutated := true }
  else { s with store := s.store.apply op }

def snapshots : System SnapshotStore SnapshotStep where
  step s
    | .change op =>
      match s.aggregator with
      | .reading _ _ => if locksRegistry op then none else some (s.change op)
      | _ => some (s.change op)
    | .changeDetached => some { s with changed := s.changed + 1, mutated := true }
    | .triggerSnapshot =>
      match s.changed with
      | 0 => none
      | n + 1 =>
        some { s with changed := n, triggerCh := (s.triggerCh.send ()).getD s.triggerCh }
    | .receive =>
      match s.aggregator, s.triggerCh.receive with
      | .waiting, some (_, triggerCh) =>
        some { s with triggerCh := triggerCh, aggregator := .triggered }
      | _, _ => none
    | .lock =>
      match s.aggregator with
      | .triggered => some { s with aggregator := .reading s.store.pods.keys [] }
      | _ => none
    | .read uid =>
      match s.aggregator, s.store.pods.lookup uid with
      | .reading remaining snaps, some ps =>
        if uid ∈ remaining then
          some
            { s with
              aggregator := .reading (remaining.erase uid) (snaps ++ (ps.row uid).toList) }
        else none
      | _, _ => none
    | .unlock =>
      match s.aggregator with
      | .reading remaining snaps =>
        if remaining = ∅ then some { s with aggregator := .finished snaps } else none
      | _ => none
    | .publish =>
      match s.aggregator with
      | .finished snaps => some { s with roSnap := some snaps, aggregator := .waiting }
      | _ => none
    | .close =>
      match s.aggregator with
      | .waiting => some { s with aggregator := .stopped }
      | _ => none

theorem PodState.row_uid {uid : String} {ps : PodState} {row : PodSnapshot}
    (h : ps.row uid = some row) :
  row.uid = uid
  := by
  unfold PodState.row at h
  split_ifs at h
  cases h
  rfl

theorem PodState.row_congr {ps ps' : PodState} (hpo : SameObject ps.pod ps'.pod)
    (hip : ps.ip = ps'.ip) (hp : ps.phase = ps'.phase)
    (hh : ps.hydrated = ps'.hydrated) (uid : String) :
  ps.row uid = ps'.row uid
  := by
  have ho := congrArg
    (fun pod : ApiPod => (pod.name, pod.podNamespace, pod.spec.containers.length)) hpo
  simp only [Prod.mk.injEq] at ho
  unfold row
  rw [hip, hp, hh, ho.1, ho.2.1, ho.2.2]

namespace PodStore

variable {s : PodStore} {uid : String}

theorem row_update_of_eq (h : ∀ ps, (f ps).row uid = ps.row uid) :
  (s.update uid' f).row uid = s.row uid
  := by
  unfold row
  rw [lookup_update]
  split_ifs
  · cases s.pods.lookup uid with
    | none => rfl
    | some ps => exact h ps
  · rfl

theorem lookup_of_not_hasPod (h : s.hasPod uid = false) :
  s.pods.lookup uid = none
  := by
  rw [hasPod, isSome_eq_false_iff, isNone_iff_eq_none] at h
  exact h

theorem update_of_not_hasPod (h : s.hasPod uid = false) :
  s.update uid f = s
  := by
  rw [update, lookup_of_not_hasPod h]

theorem row_apply_of_quiet {op : StoreOp} (hop : op.isLocal) (hq : op.isQuiet)
    (hk : op.replacement = none) :
  (s.apply op).row uid = s.row uid
  := by
  obtain ⟨uid', f, cpu, mem, heq, hf⟩ := s.apply_local op hop
  rw [heq]
  apply row_update_of_eq
  intro ps
  obtain ⟨hip, hp, hh⟩ := hf.quiet hq ps
  apply row_congr _ hip hp hh
  obtain hsm | ⟨pod, hpo, -⟩ := hf.pod ps
  · exact hsm
  · rw [hk] at hpo
    cases hpo

theorem row_apply_of_not_triggers (h : s.triggers op = false) :
  (s.apply op).row uid = s.row uid
  := by
  cases op with
  | registerPending | registerHydrated | registerHydratedBatch | purgeHydrated => cases h
  | unregister uid' podNamespace name deletedAt now =>
    change (s.unregister uid' podNamespace name deletedAt now).row uid = s.row uid
    rw [unregister, lookup_of_not_hasPod h]
    rfl
  | evictGhost uid' =>
    change (s.evictGhost uid').row uid = s.row uid
    rw [evictGhost, lookup_of_not_hasPod h]
  | alreadyRunning uid' pod =>
    change (s.alreadyRunning uid' pod).1.row uid = s.row uid
    rw [alreadyRunning, lookup_of_not_hasPod h]
  | promoteRunning | setPodStatus | setPhase | setPodIP | clearHydrated | markFailed =>
    exact congrArg (fun s => PodStore.row s uid) (update_of_not_hasPod h)
  | markDeleting uid' =>
    have hu :
        (s.update uid' fun ps => { ps with deleting := true }).row uid = s.row uid := by
      apply row_update_of_eq
      intro ps
      rfl
    change (s.markDeleting uid').row uid = s.row uid
    rcases s.markDeleting_eq uid' with heq | heq
    · rw [heq]
    · rw [heq]
      exact hu
  | _ => exact row_apply_of_quiet rfl rfl rfl

end PodStore

structure Shows (s : PodStore) (remaining : Finset String) (snaps : List PodSnapshot) : Prop where
  nodup : (snaps.map PodSnapshot.uid).Nodup
  mem_iff : ∀ row, row ∈ snaps ↔ row.uid ∉ remaining ∧ s.row row.uid = some row

namespace Shows

variable {s t : PodStore} {remaining : Finset String} {snaps : List PodSnapshot}

theorem congr (h : Shows s remaining snaps) (hr : ∀ uid, t.row uid = s.row uid) :
  Shows t remaining snaps
  := by
  refine ⟨h.nodup, ?_⟩
  intro row
  rw [h.mem_iff, hr]

theorem start (s : PodStore) :
  Shows s s.pods.keys []
  := by
  refine ⟨nodup_nil, ?_⟩
  intro row
  simp only [not_mem_nil, false_iff, not_and]
  intro hke hr
  obtain ⟨ps, hps, -⟩ := bind_eq_some_iff.1 hr
  apply hke
  apply Finmap.mem_of_lookup_eq_some hps

theorem read (h : Shows s remaining snaps) {uid : String} (hu : uid ∈ remaining)
    (hps : s.pods.lookup uid = some ps) :
  Shows s (remaining.erase uid) (snaps ++ (ps.row uid).toList)
  := by
  have hr : s.row uid = ps.row uid := by
    rw [PodStore.row, hps]
    rfl
  constructor
  · rw [map_append, nodup_append]
    refine ⟨h.nodup, ?_, ?_⟩
    · cases ps.row uid with
      | none => exact nodup_nil
      | some row => exact nodup_singleton _
    · intro uid₁ hui uid₂ hud heq
      obtain ⟨row₁, hro, rfl⟩ := mem_map.1 hui
      obtain ⟨row₂, hrw, rfl⟩ := mem_map.1 hud
      apply ((h.mem_iff row₁).1 hro).1
      rw [heq, row_uid (mem_toList.1 hrw)]
      exact hu
  · intro row
    rw [mem_append, h.mem_iff, mem_toList, ← hr, Finset.mem_erase]
    constructor
    · rintro (⟨hme, hc⟩ | ha)
      · exact ⟨fun her => hme her.2, hc⟩
      · have := row_uid (hr.symm.trans ha)
        subst this
        exact ⟨fun her => her.1 rfl, ha⟩
    · rintro ⟨hme, hc⟩
      by_cases heq : row.uid = uid
      · right
        rw [← heq]
        exact hc
      · left
        exact ⟨fun hre => hme ⟨heq, hre⟩, hc⟩

end Shows

/-- No change waits for its trigger, and no trigger for the aggregator. -/
def Settled (s : SnapshotStore) : Prop :=
  s.changed = 0 ∧ s.triggerCh.items = []

def Aggregator.Current (store : PodStore) (published : List PodSnapshot) : Aggregator → Prop
  | .waiting => Shows store ∅ published
  | .triggered => True
  | .reading remaining snaps => Shows store remaining snaps
  | .finished snaps => Shows store ∅ snaps
  | .stopped => True

structure Fresh (s : SnapshotStore) : Prop where
  current : Settled s → s.aggregator.Current s.store s.loadSnapshot
  published : s.mutated = true → Settled s → s.aggregator = .waiting → s.roSnap.isSome

theorem fresh_of_not_settled (h : ¬ Settled s) :
  Fresh s
  := ⟨fun hse => absurd hse h, fun _ hse => absurd hse h⟩

theorem Aggregator.Current.congr {t : PodStore} {published : List PodSnapshot}
    {aggregator : Aggregator} (h : aggregator.Current s published)
    (hr : ∀ uid, t.row uid = s.row uid) :
  aggregator.Current t published
  := by
  cases aggregator with
  | triggered | stopped => trivial
  | _ => exact Shows.congr h hr

namespace Fresh

variable {s t : SnapshotStore}

theorem change (hs : Fresh s) (op : StoreOp) :
  Fresh (s.change op)
  := by
  unfold SnapshotStore.change
  split_ifs with htr
  · apply fresh_of_not_settled
    rintro ⟨⟨⟩, -⟩
  · constructor
    · intro hse
      apply (hs.current hse).congr
      intro uid
      apply row_apply_of_not_triggers (eq_false_of_ne_true htr)
    · exact hs.published

theorem triggerSnapshot (s : SnapshotStore) (n : Nat) :
  Fresh { s with changed := n, triggerCh := (s.triggerCh.send ()).getD s.triggerCh }
  := by
  apply fresh_of_not_settled
  rintro ⟨-, hem⟩
  cases hsn : s.triggerCh.send () with
  | none =>
    have hfu := Channel.send_eq_none.1 hsn
    rw [hsn] at hem
    simp only [getD_none] at hem
    rw [hem] at hfu
    cases hfu
  | some triggerCh =>
    have hs := (Channel.send_eq_some.1 hsn).2
    rw [hsn] at hem
    simp only [getD_some] at hem
    rw [hem] at hs
    simp at hs

theorem step (hs : Fresh s) (hst : snapshots.step s a = some t) :
  Fresh t
  := by
  cases a with
  | change op =>
    have ht : t = s.change op := by
      simp only [snapshots] at hst
      split at hst
      · split_ifs at hst
        exact (some.inj hst).symm
      · exact (some.inj hst).symm
    rw [ht]
    apply hs.change
  | changeDetached =>
    cases hst
    apply fresh_of_not_settled
    rintro ⟨⟨⟩, -⟩
  | triggerSnapshot =>
    simp only [snapshots] at hst
    split at hst
    · cases hst
    · cases hst
      apply triggerSnapshot
  | lock =>
    simp only [snapshots] at hst
    split at hst
    · cases hst
      exact ⟨fun _ => Shows.start s.store, nofun⟩
    · cases hst
  | read uid =>
    simp only [snapshots] at hst
    split at hst
    next remaining snaps ps hr hps =>
      split_ifs at hst with hu
      cases hst
      refine ⟨?_, nofun⟩
      intro hse
      have hsh := hs.current hse
      rw [hr] at hsh
      apply Shows.read hsh hu hps
    · cases hst
  | unlock =>
    simp only [snapshots] at hst
    split at hst
    next remaining snaps hr =>
      split_ifs at hst with hem
      cases hst
      refine ⟨?_, nofun⟩
      intro hse
      have hsh := hs.current hse
      rw [hr, hem] at hsh
      exact hsh
    · cases hst
  | publish =>
    simp only [snapshots] at hst
    split at hst
    next snaps hfi =>
      cases hst
      refine ⟨?_, fun _ _ _ => rfl⟩
      intro hse
      have hsh := hs.current hse
      rw [hfi] at hsh
      exact hsh
    · cases hst
  | _ =>
    simp only [snapshots] at hst
    split at hst
    · cases hst
      exact ⟨fun _ => trivial, nofun⟩
    · cases hst

end Fresh

/-- At rest, readers get a snapshot with exactly the current rows of the registered pods that are
not hydrated, and a published one once there was a mutation. -/
theorem snapshot_current {steps : List SnapshotStep} {s : SnapshotStore}
    (hrun : snapshots.run newSnapshotStore steps = some s)
    (hchanged : s.changed = 0) (htrigger : s.triggerCh = .empty)
    (hwaiting : s.aggregator = .waiting) :
  Shows s.store ∅ s.loadSnapshot ∧ (s.mutated = true → s.roSnap = some s.loadSnapshot)
  := by
  have hsr : Fresh newSnapshotStore := by
    refine ⟨?_, nofun⟩
    intro _
    refine ⟨nodup_nil, ?_⟩
    intro row
    simp [newSnapshotStore, SnapshotStore.loadSnapshot, PodStore.row, newPodStore]
  have hfr : Fresh s :=
    snapshots.run_induction hsr (fun _ _ _ hs _ hst => hs.step hst)
      (snapshots.meets_true _ steps) hrun
  have hse : Settled s := ⟨hchanged, congrArg Channel.items htrigger⟩
  constructor
  · have hc := hfr.current hse
    rw [hwaiting] at hc
    exact hc
  · intro hm
    obtain ⟨snaps, hsa⟩ := isSome_iff_exists.mp (hfr.published hm hse hwaiting)
    rw [SnapshotStore.loadSnapshot, hsa]
    rfl

theorem snapshot_current_after_setPodIP :
  let pod : ApiPod :=
    { spec := ⟨.always, [{ name := "a" }]⟩, uid := "u", podNamespace := "default", name := "web" }
  let round : List SnapshotStep := [.receive, .lock, .read "u", .unlock, .publish]
  let steps : List SnapshotStep :=
    [.change (.registerPending "u" pod 0), .triggerSnapshot, .receive, .lock, .read "u",
      .change (.setPodIP "u" "10.0.0.1"), .unlock, .publish, .triggerSnapshot] ++ round
  ∃ s, snapshots.run newSnapshotStore steps = some s
    ∧ s.loadSnapshot = [⟨"web", "default", "u", "10.0.0.1", .pending, 1⟩]
    ∧ s.roSnap = some s.loadSnapshot ∧ Shows s.store ∅ s.loadSnapshot
  := by
  intro pod round steps
  have hru : snapshots.run newSnapshotStore steps = some _ := rfl
  obtain ⟨hsh, hpu⟩ := snapshot_current hru rfl rfl rfl
  exact ⟨_, hru, rfl, hpu rfl, hsh⟩

end Periapsis.Node
