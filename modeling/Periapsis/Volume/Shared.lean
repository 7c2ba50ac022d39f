import Periapsis.Transition.System
import Periapsis.Volume.CSI

/-!
# CSI volumes that pods share

Pods on a host resolve claims and are torn down in any order, and a teardown cleans up volumes
whoever else uses them.
-/

namespace Periapsis.Volume

open Transition List Option

variable {cluster : Cluster} {r : Resolver} {pod other : VolumePod} {pvName pvName' : String}

def cleanable (cluster : Cluster) (pod : VolumePod) (claimName : String) : Option String := do
  let pvc ← cluster.claims pod.podNamespace claimName
  let pv ← cluster.volumes pvc.volumeName
  if pv.csi.isSome then some pv.name else none

def resolvable (cluster : Cluster) (pod : VolumePod) (claimName : String) : Option String := do
  let pvc ← cluster.claims pod.podNamespace claimName
  let pv ← cluster.volumes pvc.volumeName
  if pvc.phase = .bound ∧ pv.hostPath = none ∧ pv.localPath = none ∧ pv.csi.isSome then
    some pvc.volumeName
  else none

def CSIEffect.Harms (r : Resolver) (pvName : String) : CSIEffect → Prop
  | .nodeUnstageVolume _ path => path = stagingPath pvName
  | .removeAll path => path <+: stagingPath pvName
  | .deleteAttachment name => name = r.vaName pvName
  | _ => False

theorem vaName_eq_of_harms {o : CleanupOutcome} {source : CSISource} {e : CSIEffect}
    (he : e ∈ cleanupCSIVolume r pod o pvName source) (hh : e.Harms r pvName') :
  r.vaName pvName = r.vaName pvName'
  := by
  have hca : e = .nodeUnpublishVolume source (r.targetPath pod pvName)
      ∨ e = .nodeUnstageVolume source (stagingPath pvName)
      ∨ e = .removeAll (stagingPath pvName) ∨ e = .removeAll (r.targetPath pod pvName)
      ∨ e = .deleteAttachment (r.vaName pvName) := by
    unfold cleanupCSIVolume at he
    split_ifs at he
    all_goals
      simp only [nil_append, append_nil, cons_append, mem_cons,
        not_mem_nil, or_false] at he
      tauto
  obtain rfl | rfl | rfl | rfl | rfl := hca
  · cases hh
  · have hp : stagingPath pvName = stagingPath pvName' := hh
    have hn : pvName = pvName' := stagingPath_above_iff.1 (hp ▸ prefix_rfl)
    rw [hn]
  · rw [stagingPath_above_iff.1 hh]
  · exact absurd hh targetPath_not_above
  · exact hh

theorem podDir_harmless {names : HostPath} :
  ¬ (CSIEffect.removeAll (r.podDir pod ++ names)).Harms r pvName
  := podDir_not_above

/-- What is done for the pods on a host. -/
inductive VolumeAction where
  | resolve (pod : VolumePod) (claimName : String) (o : ResolveOutcome)
  | teardown (pod : VolumePod) (outcome : Nat → CleanupOutcome)

def VolumeAction.podOf : VolumeAction → VolumePod
  | resolve pod _ _ => pod
  | teardown pod _ => pod

def volumeUsers (cluster : Cluster) (r : Resolver) :
    System (List (VolumePod × String)) VolumeAction where
  step users
    | .resolve pod claimName o =>
      if claimName ∈ pod.claims then
        match (resolvePVC cluster r o pod.podNamespace claimName).1,
          resolvable cluster pod claimName with
        | .ok _, some pvName => some (users ++ [(pod, pvName)])
        | _, _ => some users
      else none
    | .teardown pod _ => some (users.filter fun user => user.1 ≠ pod)

theorem exists_cleanable_of_mem_attempts {outcome : Nat → CleanupOutcome} {a : Attempt}
    (ha : a ∈ attempts cluster pod outcome) :
  ∃ claimName ∈ pod.claims, cleanable cluster pod claimName = some a.pvName
  := by
  obtain ⟨⟨claimName, i⟩, hc, ha⟩ := mem_filterMap.1 ha
  simp only [attempt, bind_eq_bind, bind_eq_some_iff, answer_eq_some,
    Option.pure_def, Option.some.injEq] at ha
  obtain ⟨pvc, ⟨-, hpc⟩, pv, ⟨-, hpv⟩, source, hs, rfl⟩ := ha
  use claimName, fst_mem_of_mem_zipIdx hc
  simp [cleanable, hpc, hpv, hs]

variable {claimName : String}

theorem deleteAttachment_mem_cleanupCSI (hc : claimName ∈ pod.claims)
    (h : cleanable cluster pod claimName = some pvName) :
  .deleteAttachment (r.vaName pvName) ∈ cleanupCSI cluster r pod
    fun _ => ⟨true, true, true, true, true, true⟩
  := by
  obtain ⟨pvc, hpc, h⟩ := bind_eq_some_iff.1 h
  obtain ⟨pv, hpv, h⟩ := bind_eq_some_iff.1 h
  obtain ⟨hcs, h⟩ := ite_none_right_eq_some.1 h
  cases h
  obtain ⟨source, hs⟩ := isSome_iff_exists.1 hcs
  obtain ⟨i, hi, rfl⟩ := mem_iff_getElem.1 hc
  apply mem_flatMap.2
  refine ⟨⟨pv.name, source, ⟨true, true, true, true, true, true⟩⟩, ?_, by simp [cleanupCSIVolume]⟩
  apply mem_filterMap.2
  refine ⟨(pod.claims[i], i), mk_mem_zipIdx_iff_getElem?.mpr (by simp), ?_⟩
  simp [attempt, answer, hpc, hpv, hs]

theorem resolvePVC_ok (hhs : r.hostNodeName ≠ "")
    (h : resolvable cluster pod claimName = some pvName) :
  (resolvePVC cluster r ⟨true, true, true, true, true, true, true, true⟩ pod.podNamespace
    claimName).1 = .ok (stagingPath pvName)
  := by
  obtain ⟨pvc, hpc, h⟩ := bind_eq_some_iff.1 h
  obtain ⟨pv, hpv, h⟩ := bind_eq_some_iff.1 h
  obtain ⟨⟨hb, hho, hl, hcs⟩, h⟩ := ite_none_right_eq_some.1 h
  cases h
  obtain ⟨source, hs⟩ := isSome_iff_exists.1 hcs
  simp [resolvePVC, resolveCSI, answer, hpc, hpv, hb, hho, hl, hs, hhs]

theorem hostNodeName_of_resolvePVC {o : ResolveOutcome} {path : HostPath}
    (hr : (resolvePVC cluster r o pod.podNamespace claimName).1 = .ok path)
    (h : resolvable cluster pod claimName = some pvName) :
  r.hostNodeName ≠ ""
  := by
  obtain ⟨pvc, hpc, h⟩ := bind_eq_some_iff.1 h
  obtain ⟨pv, hpv, h⟩ := bind_eq_some_iff.1 h
  obtain ⟨⟨hb, hho, hl, hcs⟩, h⟩ := ite_none_right_eq_some.1 h
  obtain ⟨source, hs⟩ := isSome_iff_exists.1 hcs
  intro hhs
  cases hg : o.getPVC with
  | false => simp [resolvePVC, answer, hg] at hr
  | true =>
    cases hge : o.getPV with
    | false => simp [resolvePVC, answer, hg, hge, hpc, hb] at hr
    | true =>
      simp [resolvePVC, resolveCSI, answer, hg, hge, hpc, hpv, hb, hho, hl, hs, hhs] at hr

/-- The volumes that pods of the host have resolved. -/
def UsersOf (cluster : Cluster) (r : Resolver) (pods : Set VolumePod)
    (users : List (VolumePod × String)) : Prop :=
  ∀ user ∈ users, user.1 ∈ pods ∧ r.hostNodeName ≠ ""
    ∧ ∃ claimName ∈ user.1.claims, resolvable cluster user.1 claimName = some user.2

theorem UsersOf.step {pods : Set VolumePod} {users users' : List (VolumePod × String)}
    {a : VolumeAction} (h : UsersOf cluster r pods users) (ha : a.podOf ∈ pods)
    (hst : (volumeUsers cluster r).step users a = some users') :
  UsersOf cluster r pods users'
  := by
  cases a with
  | resolve pod claimName o =>
    obtain ⟨hc, hst⟩ := ite_none_right_eq_some.1 hst
    split at hst
    next path pvName hr hre =>
      cases hst
      intro user hus
      rcases mem_append.1 hus with hus | hus
      · exact h user hus
      · obtain rfl := mem_singleton.1 hus
        exact ⟨ha, hostNodeName_of_resolvePVC hr hre, claimName, hc, hre⟩
    · cases hst
      exact h
  | teardown pod outcome =>
    cases hst
    intro user hus
    exact h user (mem_filter.1 hus).1

/-- Teardowns do no harm to volumes that other pods have resolved if and only if no two pods have
claims for volumes whose attachments have the same name. -/
theorem teardowns_harmless_iff (cluster : Cluster) (r : Resolver) (pods : Set VolumePod) :
  (∀ actions users, (∀ a ∈ actions, a.podOf ∈ pods)
      → (volumeUsers cluster r).run [] actions = some users
      → ∀ pod ∈ pods, ∀ outcome, ∀ e ∈ scrubWorkspace cluster r pod outcome,
        ∀ user ∈ users, user.1 ≠ pod → ¬ e.Harms r user.2)
    ↔ r.hostNodeName ≠ "" → ∀ pod ∈ pods, ∀ other ∈ pods, other ≠ pod
      → ∀ claimName ∈ pod.claims, ∀ pvName ∈ cleanable cluster pod claimName,
        ∀ claimName' ∈ other.claims, ∀ pvName' ∈ resolvable cluster other claimName',
          r.vaName pvName ≠ r.vaName pvName'
  := by
  constructor
  · intro h hhs pod hpd other ho hne claimName hc pvName hpv claimName' hcl pvName'
      hp hva
    have hru : (volumeUsers cluster r).run []
        [.resolve other claimName' ⟨true, true, true, true, true, true, true, true⟩]
        = some [(other, pvName')] := by
      simp [System.run, volumeUsers, hcl, resolvePVC_ok hhs hp, mem_def.mp hp]
    exact h _ _ (by simpa [VolumeAction.podOf] using ho) hru pod hpd _ _
      (mem_append_left _ (deleteAttachment_mem_cleanupCSI hc hpv)) _
      (mem_singleton_self _) hne hva
  · intro h actions users hpo hru pod hpd outcome e he user hus hne hh
    have hsa : UsersOf cluster r pods [] := by
      intro user hus
      cases hus
    have hue : UsersOf cluster r pods users :=
      System.run_induction _ (C := fun _ a => a.podOf ∈ pods) hsa
        (fun u a v hu ha hv => hu.step ha hv)
        (System.meets_of_forall _ (fun a ha _ => hpo a ha) _) hru
    obtain ⟨ho, hhs, claimName', hcl, hp⟩ := hue user hus
    rcases mem_append.mp he with he | he
    · obtain ⟨a, ha, he⟩ := mem_flatMap.mp he
      obtain ⟨claimName, hc, hpv⟩ := exists_cleanable_of_mem_attempts ha
      exact h hhs pod hpd user.1 ho hne claimName hc _ hpv claimName' hcl _ hp
        (vaName_eq_of_harms he hh)
    · have hd : ∃ names, e = .removeAll (r.podDir pod ++ names) := by
        rcases mem_pair.mp he with rfl | rfl
        · exact ⟨_, rfl⟩
        · exact ⟨[], by rw [append_nil]⟩
      obtain ⟨names, rfl⟩ := hd
      exact podDir_harmless hh

def sharedClaim : Cluster where
  claims podNamespace name :=
    if podNamespace = "default" ∧ name = "data" then some ⟨.bound, "pv-1"⟩ else none
  volumes name :=
    if name = "pv-1" then some { name := "pv-1", csi := some ⟨"csi.example", "vol-1"⟩ } else none
  named name pv h := by
    obtain ⟨rfl, h⟩ := Option.ite_none_right_eq_some.mp h
    cases h
    rfl

def plainResolver : Resolver where
  baseDir := ["var", "lib", "apsis"]
  hostNodeName := "node-1"
  sha256Hash := id

def dataPod (uid pawnName : String) : VolumePod where
  uid := uid
  pawnName := pawnName
  podNamespace := "default"
  claims := ["data"]

theorem unstaged_by_other :
  (volumeUsers sharedClaim plainResolver).run []
      [.resolve (dataPod "a" "pawn-0") "data" ⟨true, true, true, true, true, true, true, true⟩,
        .resolve (dataPod "b" "pawn-1") "data" ⟨true, true, true, true, true, true, true, true⟩]
    = some [(dataPod "a" "pawn-0", "pv-1"), (dataPod "b" "pawn-1", "pv-1")]
    ∧ .nodeUnstageVolume ⟨"csi.example", "vol-1"⟩ (stagingPath "pv-1")
      ∈ scrubWorkspace sharedClaim plainResolver (dataPod "b" "pawn-1")
        fun _ => ⟨true, true, true, true, true, true⟩
  := by decide +kernel

end Periapsis.Volume
