import Periapsis.Volume.Shared

/-!
# What is kept of CSI volumes

The staging directory of a volume shows what is stored in it, and to remove the directory is to
delete that.
-/

namespace Periapsis.Volume

open Transition List

variable {cluster : Cluster} {r : Resolver} {pod : VolumePod} {pvName : String}

structure StagedHost where
  mounts : List (HostPath × CSISource)
  files : CSISource → List String

def StagedHost.apply (s : StagedHost) : CSIEffect → StagedHost
  | .nodeStageVolume source path => { s with mounts := (path, source) :: s.mounts }
  | .nodeUnstageVolume _ path => { s with mounts := s.mounts.filter fun m => m.1 ≠ path }
  | .removeAll path =>
    { s with
      files := fun source =>
        if ∃ m ∈ s.mounts, path <+: m.1 ∧ m.2 = source then [] else s.files source }
  | _ => s

def StagedHost.applyAll (s : StagedHost) (effects : List CSIEffect) : StagedHost :=
  effects.foldl StagedHost.apply s

inductive HostAction where
  | volume (a : VolumeAction)
  | write (source : CSISource) (files : List String)

def volumeHost (cluster : Cluster) (r : Resolver) : System StagedHost HostAction where
  step s
    | .volume (.resolve pod claimName o) =>
      if claimName ∈ pod.claims then
        some (s.applyAll (resolvePVC cluster r o pod.podNamespace claimName).2)
      else none
    | .volume (.teardown pod outcome) => some (s.applyAll (scrubWorkspace cluster r pod outcome))
    | .write source files => some { s with files := Function.update s.files source files }

/-- Volumes are mounted at their staging paths only. -/
def StagedHost.AtStaging (s : StagedHost) : Prop :=
  ∀ m ∈ s.mounts, ∃ pvName, m.1 = stagingPath pvName

section Mounts

variable {s : StagedHost}

def CSIEffect.StagesAt (e : CSIEffect) : Prop :=
  ∀ source path, e = .nodeStageVolume source path → ∃ pvName, path = stagingPath pvName

variable {e : CSIEffect}

theorem StagedHost.AtStaging.apply (h : s.AtStaging) (he : e.StagesAt) :
  (s.apply e).AtStaging
  := by
  intro m hm
  cases e with
  | nodeStageVolume source path =>
    rcases mem_cons.1 hm with rfl | hm
    · exact he source path rfl
    · exact h m hm
  | nodeUnstageVolume source path => exact h m (mem_filter.1 hm).1
  | _ => exact h m hm

theorem StagedHost.AtStaging.applyAll {effects : List CSIEffect} (h : s.AtStaging)
    (hef : ∀ e ∈ effects, e.StagesAt) :
  (s.applyAll effects).AtStaging
  := by
  induction effects generalizing s with
  | nil => exact h
  | cons e effects ih =>
    apply ih (h.apply (hef e mem_cons_self))
    intro e' he'
    exact hef e' (mem_cons_of_mem e he')

theorem stagesAt_of_mem_resolveCSI (he : e ∈ (resolveCSI r o pvName source).2) :
  e.StagesAt
  := by
  have hc : e = .createAttachment (r.vaName pvName) ∨ e = .mkdirAll (stagingPath pvName)
      ∨ e = .nodeStageVolume source (stagingPath pvName) := by
    unfold resolveCSI at he
    split_ifs at he
    all_goals
      simp only [cons_append, nil_append, mem_cons, not_mem_nil, or_false] at he
    all_goals tauto
  rintro source' path rfl
  simp only [reduceCtorEq, false_or, CSIEffect.nodeStageVolume.injEq] at hc
  exact ⟨pvName, hc.2⟩

theorem stagesAt_of_mem_resolvePVC
    (he : e ∈ (resolvePVC cluster r o pod.podNamespace claimName).2) :
  e.StagesAt
  := by
  unfold resolvePVC at he
  split at he
  · cases he
  · split_ifs at he
    · cases he
    · split at he
      · cases he
      · split at he
        · cases he
        · cases he
        · exact stagesAt_of_mem_resolveCSI he
        · cases he

theorem stagesAt_of_mem_scrubWorkspace {outcome : Nat → CleanupOutcome}
    (he : e ∈ scrubWorkspace cluster r pod outcome) :
  e.StagesAt
  := by
  rintro source path rfl
  rcases mem_append.1 he with he | he
  · obtain ⟨a, -, he⟩ := mem_flatMap.1 he
    unfold cleanupCSIVolume at he
    split_ifs at he
    all_goals simp at he
  · simp at he

theorem StagedHost.AtStaging.run (h : s.AtStaging)
    (hru : (volumeHost cluster r).run s actions = some s') :
  s'.AtStaging
  := by
  refine System.run_induction _ (C := fun _ _ => True) h ?_ (System.meets_true _ _ _) hru
  intro s a s' h _ hs
  cases a with
  | volume a =>
    cases a with
    | resolve pod claimName o =>
      obtain ⟨-, hs⟩ := Option.ite_none_right_eq_some.1 hs
      cases hs
      exact h.applyAll fun e he => stagesAt_of_mem_resolvePVC he
    | teardown pod outcome =>
      cases hs
      exact h.applyAll fun e he => stagesAt_of_mem_scrubWorkspace he
  | write source files =>
    cases hs
    exact h

end Mounts

/-- The clean-up reaches the driver, which unstages the volume. -/
def CleanupOutcome.unstages (o : CleanupOutcome) : Bool :=
  o.newCSIClient && o.nodeUnstageVolume

section OneVolume

variable {s : StagedHost} {o : CleanupOutcome} {source : CSISource}

def StagedHost.unmount (s : StagedHost) (pvName : String) : StagedHost :=
  { s with mounts := s.mounts.filter fun m => m.1 ≠ stagingPath pvName }

def StagedHost.wipe (s : StagedHost) (pvName : String) : StagedHost :=
  { s with
    files := fun source => if (stagingPath pvName, source) ∈ s.mounts then [] else s.files source }

theorem StagedHost.AtStaging.apply_removeAll (h : s.AtStaging) :
  s.apply (.removeAll (stagingPath pvName)) = s.wipe pvName
  := by
  have hsh (source : CSISource) :
      (∃ m ∈ s.mounts, stagingPath pvName <+: m.1 ∧ m.2 = source)
        ↔ (stagingPath pvName, source) ∈ s.mounts := by
    constructor
    · rintro ⟨⟨path, source'⟩, hm, hab, rfl⟩
      obtain ⟨pvName', hp⟩ := h _ hm
      obtain rfl : path = stagingPath pvName' := hp
      rwa [stagingPath_above_iff.1 hab]
    · intro hm
      exact ⟨_, hm, prefix_rfl, rfl⟩
  simp only [StagedHost.apply, StagedHost.wipe, hsh]

theorem StagedHost.AtStaging.apply_removeAll_target (h : s.AtStaging) :
  s.apply (.removeAll (r.targetPath pod pvName)) = s
  := by
  have hsh (source : CSISource) :
      ¬ ∃ m ∈ s.mounts, r.targetPath pod pvName <+: m.1 ∧ m.2 = source := by
    rintro ⟨m, hm, hab, -⟩
    obtain ⟨pvName', hp⟩ := h m hm
    exact targetPath_not_above (hp ▸ hab)
  simp only [StagedHost.apply, hsh, if_false]

theorem StagedHost.wipe_unmount :
  (s.unmount pvName).wipe pvName = s.unmount pvName
  := by
  simp [StagedHost.unmount, StagedHost.wipe]

theorem StagedHost.AtStaging.unmount (h : s.AtStaging) (pvName : String) :
  (s.unmount pvName).AtStaging
  := by
  intro m hm
  exact h m (mem_filter.1 hm).1

theorem StagedHost.AtStaging.applyAll_removed (h : s.AtStaging) (r : Resolver) (pod : VolumePod)
    (pvName : String) :
  s.applyAll [.removeAll (stagingPath pvName), .removeAll (r.targetPath pod pvName)]
    = s.wipe pvName
  := by
  have hw : (s.wipe pvName).AtStaging := h
  rw [StagedHost.applyAll, foldl_cons, h.apply_removeAll, foldl_cons,
    hw.apply_removeAll_target, foldl_nil]

theorem StagedHost.AtStaging.applyAll_cleanup (h : s.AtStaging) :
  s.applyAll (cleanupCSIVolume r pod o pvName source)
    = if o.unstages then s.unmount pvName else s.wipe pvName
  := by
  have hr := h.applyAll_removed r pod pvName
  have hu := (h.unmount pvName).applyAll_removed r pod pvName
  rw [StagedHost.wipe_unmount] at hu
  obtain ⟨getPVC, getPV, newCSIClient, unpublish, unstage, delete⟩ := o
  cases newCSIClient with
  | false => exact hr
  | true =>
    cases unstage with
    | false => cases unpublish <;> cases delete <;> exact hr
    | true => cases unpublish <;> cases delete <;> exact hu

end OneVolume

/-- The attempts at the volumes, one after the other. -/
def StagedHost.cleanAll (s : StagedHost) (as : List Attempt) : StagedHost :=
  as.foldl (fun s a => if a.outcome.unstages then s.unmount a.pvName else s.wipe a.pvName) s

section AllVolumes

variable {s : StagedHost} {as : List Attempt}

theorem StagedHost.AtStaging.applyAll_flatMap (h : s.AtStaging) :
  s.applyAll (as.flatMap fun a => cleanupCSIVolume r pod a.outcome a.pvName a.source)
    = s.cleanAll as
  := by
  induction as generalizing s with
  | nil => rfl
  | cons a as ih =>
    rw [flatMap_cons, StagedHost.applyAll, foldl_append]
    change (s.applyAll _).applyAll _ = _
    rw [h.applyAll_cleanup, StagedHost.cleanAll, foldl_cons]
    apply ih
    split
    · exact h.unmount a.pvName
    · exact h

theorem StagedHost.cleanAll_eq_nil {source : CSISource} (h : s.files source = []) :
  (s.cleanAll as).files source = []
  := by
  induction as generalizing s with
  | nil => exact h
  | cons a as ih =>
    rw [StagedHost.cleanAll, foldl_cons]
    apply ih
    split
    · exact h
    · simp [StagedHost.wipe, h]

def StagedHost.Bare (s : StagedHost) (pvName : String) : Prop :=
  ∀ source, (stagingPath pvName, source) ∈ s.mounts → s.files source = []

theorem StagedHost.Bare.wipe (h : s.Bare pvName) :
  s.wipe pvName = s
  := by
  have hf : (s.wipe pvName).files = s.files := by
    funext source
    by_cases hm : (stagingPath pvName, source) ∈ s.mounts
    · simp [StagedHost.wipe, hm, h source hm]
    · simp [StagedHost.wipe, hm]
  change { s with files := (s.wipe pvName).files } = s
  rw [hf]

def StagedHost.Unstaged (s : StagedHost) (as : List Attempt) : Prop :=
  ∀ pvName source, (stagingPath pvName, source) ∈ s.mounts → s.files source ≠ []
    → ∀ a ∈ as.find? fun a => a.pvName = pvName, a.outcome.unstages = true

variable {a : Attempt}

theorem StagedHost.unstaged_cons_of_unstages (ha : a.outcome.unstages) :
  s.Unstaged (a :: as) ↔ (s.unmount a.pvName).Unstaged as
  := by
  constructor
  · intro h pvName source hm hf b hb
    obtain ⟨hm, hne⟩ := mem_filter.1 hm
    have hn : a.pvName ≠ pvName := by
      rintro rfl
      simp at hne
    apply h pvName source hm hf b
    simpa [find?_cons, hn] using hb
  · intro h pvName source hm hf b hb
    by_cases hn : a.pvName = pvName
    · obtain rfl : a = b := by simpa [find?_cons, hn] using hb
      exact ha
    · refine h pvName source (mem_filter.2 ⟨hm, ?_⟩) hf b ?_
      · have hp : stagingPath pvName ≠ stagingPath a.pvName := by
          intro heq
          exact hn (stagingPath_above_iff.1 (heq ▸ prefix_rfl)).symm
        simpa using hp
      · simpa [find?_cons, hn] using hb

theorem StagedHost.unstaged_cons_of_not_unstages (ha : ¬ a.outcome.unstages) :
  s.Unstaged (a :: as) ↔ s.Bare a.pvName ∧ s.Unstaged as
  := by
  constructor
  · intro h
    have hba : s.Bare a.pvName := by
      intro source hm
      by_contra hf
      exact ha (h a.pvName source hm hf a (by simp))
    refine ⟨hba, ?_⟩
    intro pvName source hm hf b hb
    have hn : a.pvName ≠ pvName := by
      rintro rfl
      exact hf (hba source hm)
    apply h pvName source hm hf b
    simpa [find?_cons, hn] using hb
  · rintro ⟨hba, h⟩ pvName source hm hf b hb
    have hn : a.pvName ≠ pvName := by
      rintro rfl
      exact hf (hba source hm)
    apply h pvName source hm hf b
    simpa [find?_cons, hn] using hb

theorem StagedHost.cleanAll_keeps_iff :
  (s.cleanAll as).files = s.files ↔ s.Unstaged as
  := by
  induction as generalizing s with
  | nil => simp [StagedHost.cleanAll, StagedHost.Unstaged]
  | cons a as ih =>
    by_cases ha : a.outcome.unstages
    · have hco : s.cleanAll (a :: as) = (s.unmount a.pvName).cleanAll as := by
        simp [StagedHost.cleanAll, ha]
      rw [hco, unstaged_cons_of_unstages ha, ← ih]
      rfl
    · have hco : s.cleanAll (a :: as) = (s.wipe a.pvName).cleanAll as := by
        simp [StagedHost.cleanAll, ha]
      rw [hco, unstaged_cons_of_not_unstages ha]
      by_cases hba : s.Bare a.pvName
      · rw [hba.wipe, ih, and_iff_right hba]
      · refine iff_of_false ?_ (fun h => hba h.1)
        intro hk
        apply hba
        intro source hm
        rw [← hk]
        apply cleanAll_eq_nil
        simp [StagedHost.wipe, hm]

end AllVolumes

/-- The clean-up of a pod keeps the files in all volumes if and only if the first attempt at every
volume that is staged and not empty unstages it. -/
theorem cleanupCSI_keeps_iff (cluster : Cluster) (r : Resolver) (files : CSISource → List String)
    (actions : List HostAction) (s : StagedHost)
    (hrun : (volumeHost cluster r).run ⟨[], files⟩ actions = some s)
    (pod : VolumePod) (outcome : Nat → CleanupOutcome) :
  (s.applyAll (cleanupCSI cluster r pod outcome)).files = s.files
    ↔ ∀ pvName source, (stagingPath pvName, source) ∈ s.mounts → s.files source ≠ []
      → ∀ a ∈ (attempts cluster pod outcome).find? fun a => a.pvName = pvName,
        a.outcome.newCSIClient = true ∧ a.outcome.nodeUnstageVolume = true
  := by
  have hst : StagedHost.AtStaging ⟨[], files⟩ := by
    intro m hm
    cases hm
  rw [cleanupCSI, (hst.run hrun).applyAll_flatMap, StagedHost.cleanAll_keeps_iff]
  simp only [StagedHost.Unstaged, CleanupOutcome.unstages, Bool.and_eq_true]

def dataSource : CSISource := ⟨"csi.example", "vol-1"⟩

def dataActions : List HostAction :=
  [.volume (.resolve (dataPod "a" "pawn-0") "data"
      ⟨true, true, true, true, true, true, true, true⟩),
    .write dataSource ["table"]]

def dataHost : StagedHost where
  mounts := [(stagingPath "pv-1", dataSource)]
  files := Function.update (fun _ => []) dataSource ["table"]

theorem run_dataActions :
  (volumeHost sharedClaim plainResolver).run ⟨[], fun _ => []⟩ dataActions = some dataHost
  := by
  simp [dataActions, System.run, volumeHost, dataPod, resolvePVC, resolveCSI, answer, sharedClaim,
    plainResolver, StagedHost.applyAll, StagedHost.apply, dataHost, dataSource]

theorem cleanupCSI_keeps_unstaged :
  (dataHost.applyAll (cleanupCSI sharedClaim plainResolver (dataPod "a" "pawn-0")
    fun _ => ⟨true, true, true, false, true, false⟩)).files = dataHost.files
  := by
  apply (cleanupCSI_keeps_iff _ _ _ _ _ run_dataActions _ _).mpr
  intro pvName source _ _ a ha
  obtain ⟨claim, -, ha⟩ := mem_filterMap.mp (mem_of_find?_eq_some ha)
  simp only [attempt, Option.bind_eq_bind, Option.bind_eq_some_iff, Option.pure_def,
    Option.some.injEq] at ha
  obtain ⟨-, -, -, -, -, -, rfl⟩ := ha
  exact ⟨rfl, rfl⟩

theorem table_deleted :
  (volumeHost sharedClaim plainResolver).run ⟨[], fun _ => []⟩ dataActions = some dataHost
    ∧ dataHost.files dataSource = ["table"]
    ∧ (dataHost.applyAll (cleanupCSI sharedClaim plainResolver (dataPod "a" "pawn-0")
      fun _ => ⟨true, true, true, true, false, true⟩)).files dataSource = []
  := ⟨run_dataActions, by decide +kernel⟩

end Periapsis.Volume
