import Periapsis.Node.Paths
import Periapsis.Types.Corev1
import Periapsis.Transition.System

/-!
# The tracker of volumes

`VolumeTracker` has an index from ConfigMaps and Secrets to the volumes that are filled from them.
-/

namespace Periapsis.Node

open Corev1 List Function Prod

/-- A volume of a pod and the directory with its files. -/
structure VolumeMount where
  podUID : String
  hostDir : List String
  vol : Volume
  deriving DecidableEq

/-- The volumes that are filled from an object, by its key, and the keys of each pod. -/
structure VolumeTracker where
  volRefs : String → List VolumeMount
  volRefsByPod : String → List String
  baseDir : String
  pawnName : String

def newVolumeTracker (baseDir pawnName : String) : VolumeTracker where
  volRefs _ := []
  volRefsByPod _ := []
  baseDir := baseDir
  pawnName := pawnName

def volumeSource (vol : Volume) : Option (String × String) :=
  match vol.configMap, vol.secret with
  | some name, _ => some ("configmap", name)
  | none, some secretName => some ("secret", secretName)
  | none, none => none

namespace VolumeTracker

variable (vt : VolumeTracker)

def hostDir (uid kind : String) (vol : Volume) : List String :=
  join [] [vt.baseDir, "pawns", vt.pawnName, "pods", uid, "volumes", kind, vol.name]

def mounts (uid : String) (pod : ApiPod) : List (String × VolumeMount) :=
  pod.volumes.filterMap fun vol =>
    (volumeSource vol).map fun (kind, name) =>
      (kind ++ ":" ++ pod.podNamespace ++ "/" ++ name,
        { podUID := uid, hostDir := vt.hostDir uid kind vol, vol := vol })

def track (uid : String) (pod : ApiPod) : VolumeTracker :=
  let mounts := vt.mounts uid pod
  if mounts = [] then vt
  else
    { vt with
      volRefs := mounts.foldl
        (fun refs m => update refs m.1 (refs m.1 ++ [m.2])) vt.volRefs
      volRefsByPod := update vt.volRefsByPod uid (mounts.map fst) }

def untrack (uid : String) : VolumeTracker :=
  { vt with
    volRefs := (vt.volRefsByPod uid).foldl
      (fun refs key => update refs key ((refs key).filter fun m => m.podUID ≠ uid))
      vt.volRefs
    volRefsByPod := update vt.volRefsByPod uid [] }

def mountsOf (key uid : String) (pod : ApiPod) : List VolumeMount :=
  ((vt.mounts uid pod).filter fun m => m.1 = key).map snd

def listed (key uid : String) : List VolumeMount :=
  (vt.volRefs key).filter fun m => m.podUID = uid

def Indexed : Prop :=
  ∀ key, ∀ m ∈ vt.volRefs key, key ∈ vt.volRefsByPod m.podUID

variable {vt}

variable {uid uid' key : String} {pod pod' : ApiPod}

variable {m : VolumeMount}

/-- Under a key are the volumes of the pod that are filled from the object with this key. -/
theorem mem_mountsOf :
  m ∈ vt.mountsOf key uid pod
    ↔ ∃ vol ∈ pod.volumes, ∃ kind name, volumeSource vol = some (kind, name)
      ∧ key = kind ++ ":" ++ pod.podNamespace ++ "/" ++ name
      ∧ m = ⟨uid, vt.hostDir uid kind vol, vol⟩
  := by
  simp only [mountsOf, mounts, mem_map, mem_filter, mem_filterMap, Option.map_eq_some_iff]
  constructor
  · rintro ⟨_, ⟨⟨vol, hvo, ⟨kind, name⟩, hs, rfl⟩, hke⟩, rfl⟩
    exact ⟨vol, hvo, kind, name, hs, (of_decide_eq_true hke).symm, rfl⟩
  · rintro ⟨vol, hvo, kind, name, hs, rfl, rfl⟩
    exact ⟨_, ⟨⟨vol, hvo, _, hs, rfl⟩, decide_eq_true rfl⟩, rfl⟩

theorem podUID_of_mem_mountsOf (h : m ∈ vt.mountsOf key uid pod) :
  m.podUID = uid
  := by
  obtain ⟨vol, -, kind, name, -, -, rfl⟩ := mem_mountsOf.1 h
  rfl

theorem mem_mountsOf_of_mem {mount : String × VolumeMount} (h : mount ∈ vt.mounts uid pod) :
  mount.2 ∈ vt.mountsOf mount.1 uid pod
  := mem_map_of_mem (mem_filter.2 ⟨h, by simp⟩)

theorem mounts_eq_nil_iff :
  vt.mounts uid pod = [] ↔ ∀ key, vt.mountsOf key uid pod = []
  := by
  constructor
  · intro h key
    rw [mountsOf, h]
    rfl
  · intro h
    rw [eq_nil_iff_forall_not_mem]
    intro m hm
    have hke := mem_mountsOf_of_mem hm
    rw [h] at hke
    cases hke

theorem mountsOf_eq_nil_iff :
  (∀ key, vt.mountsOf key uid pod = []) ↔ ∀ vol ∈ pod.volumes, volumeSource vol = none
  := by
  rw [← mounts_eq_nil_iff, mounts, filterMap_eq_nil_iff]
  simp

theorem foldl_append (refs : String → List VolumeMount) (l : List (String × VolumeMount))
    (key : String) :
  l.foldl (fun (refs : String → List VolumeMount) m =>
      update refs m.1 (refs m.1 ++ [m.2])) refs key
    = refs key ++ (l.filter fun m => m.1 = key).map snd
  := by
  induction l generalizing refs with
  | nil => simp
  | cons m l ih =>
    rw [foldl_cons, ih]
    by_cases hke : m.1 = key
    · subst hke
      simp
    · rw [update_of_ne (Ne.symm hke), filter_cons_of_neg (by simpa using hke)]

theorem foldl_filter (p : VolumeMount → Bool) (refs : String → List VolumeMount)
    (keys : List String) (key : String) :
  keys.foldl (fun refs key => update refs key ((refs key).filter p)) refs key
    = if key ∈ keys then (refs key).filter p else refs key
  := by
  induction keys generalizing refs with
  | nil => simp
  | cons key' keys ih =>
    rw [foldl_cons, ih]
    by_cases hke : key = key'
    · subst hke
      simp
    · simp [hke]

@[simp]
theorem track_volRefs :
  (vt.track uid pod).volRefs key = vt.volRefs key ++ vt.mountsOf key uid pod
  := by
  unfold track
  dsimp only
  split
  next hni =>
    rw [mounts_eq_nil_iff.1 hni, append_nil]
  · apply foldl_append

theorem untrack_volRefs :
  (vt.untrack uid).volRefs key
    = if key ∈ vt.volRefsByPod uid then (vt.volRefs key).filter fun m => m.podUID ≠ uid
      else vt.volRefs key
  := foldl_filter _ _ _ _

theorem mountsOf_track :
  (vt.track uid' pod').mountsOf key uid pod = vt.mountsOf key uid pod
  := by
  unfold track
  dsimp only
  split
  all_goals rfl

theorem listed_track :
  (vt.track uid' pod).listed key uid
    = vt.listed key uid ++ if uid = uid' then vt.mountsOf key uid pod else []
  := by
  rw [listed, track_volRefs, filter_append, ← listed]
  congr 1
  split
  next heq =>
    subst heq
    rw [filter_eq_self]
    intro m hm
    simpa using podUID_of_mem_mountsOf hm
  next hne =>
    rw [filter_eq_nil_iff]
    intro m hm
    rw [podUID_of_mem_mountsOf hm]
    simpa using Ne.symm hne

theorem listed_eq_nil_iff :
  vt.listed key uid = [] ↔ ∀ m ∈ vt.volRefs key, m.podUID ≠ uid
  := by
  rw [listed, filter_eq_nil_iff]
  simp

theorem key_mem_of_mem_mountsOf (h : m ∈ vt.mountsOf key uid pod) :
  key ∈ (vt.mounts uid pod).map fst
  := by
  obtain ⟨mount, hmo, rfl⟩ := mem_map.1 h
  obtain ⟨hme, hke⟩ := mem_filter.1 hmo
  apply mem_map.2 ⟨mount, hme, by simpa using hke⟩

theorem Indexed.track (h : vt.Indexed)
    (hn : ∀ key, vt.listed key uid ≠ [] → key ∈ (vt.mounts uid pod).map fst) :
  (vt.track uid pod).Indexed
  := by
  intro key m hm
  have hk : (vt.track uid pod).volRefsByPod
      = if vt.mounts uid pod = [] then vt.volRefsByPod
        else update vt.volRefsByPod uid ((vt.mounts uid pod).map fst) := by
    unfold VolumeTracker.track
    dsimp only
    split
    all_goals rfl
  rw [hk]
  rw [track_volRefs, mem_append] at hm
  by_cases hu : m.podUID = uid
  · have hke : key ∈ (vt.mounts uid pod).map fst := by
      rcases hm with ho | hnw
      · apply hn key (ne_nil_of_mem (mem_filter.2 ⟨ho, by simpa using hu⟩))
      · apply key_mem_of_mem_mountsOf hnw
    rw [if_neg (by rintro he; simp [he] at hke), hu, update_self]
    exact hke
  · have ho := hm.resolve_right (fun hnw => hu (podUID_of_mem_mountsOf hnw))
    split
    · apply h key m ho
    · rw [update_of_ne hu]
      apply h key m ho

theorem Indexed.untrack_volRefs (h : vt.Indexed) :
  (vt.untrack uid).volRefs key = (vt.volRefs key).filter fun m => m.podUID ≠ uid
  := by
  rw [VolumeTracker.untrack_volRefs]
  split
  · rfl
  next hke =>
    rw [eq_comm, filter_eq_self]
    intro m hm
    rw [decide_eq_true_iff]
    rintro rfl
    exact hke (h key m hm)

theorem Indexed.untrack (h : vt.Indexed) :
  (vt.untrack uid).Indexed
  := by
  intro key m hm
  rw [h.untrack_volRefs] at hm
  obtain ⟨hm, hne⟩ := mem_filter.1 hm
  have hk : (vt.untrack uid).volRefsByPod m.podUID = vt.volRefsByPod m.podUID :=
    update_of_ne (by simpa using hne) _ _
  rw [hk]
  apply h key m hm

end VolumeTracker

/-! ### Tracking again -/

inductive TrackCall where
  | track (uid : String) (pod : ApiPod)
  | untrack (uid : String)

namespace VolumeTracker

def call (vt : VolumeTracker) : TrackCall → VolumeTracker
  | .track uid pod => vt.track uid pod
  | .untrack uid => vt.untrack uid

/-- All calls that track a uid do so with one namespace and the same volumes. -/
def SameVolumes (calls : List TrackCall) : Prop :=
  ∀ uid pod pod', .track uid pod ∈ calls → .track uid pod' ∈ calls
    → pod.podNamespace = pod'.podNamespace ∧ pod.volumes = pod'.volumes

def Consistent (calls : List TrackCall) (vt : VolumeTracker) : Prop :=
  vt.Indexed ∧ ∀ key uid, vt.listed key uid ≠ []
    → ∀ pod, .track uid pod ∈ calls → key ∈ (vt.mounts uid pod).map Prod.fst

variable {vt : VolumeTracker} {calls : List TrackCall} {c : TrackCall} {uid key : String}
  {pod : ApiPod}

theorem mounts_call :
  (vt.call c).mounts = vt.mounts
  := by
  cases c with
  | track uid pod =>
    unfold call track
    dsimp only
    split
    all_goals rfl
  | untrack uid => rfl

theorem SameVolumes.mounts (h : SameVolumes calls) (hc : .track uid pod ∈ calls)
    (hc' : .track uid pod' ∈ calls) :
  vt.mounts uid pod = vt.mounts uid pod'
  := by
  obtain ⟨hn, hv⟩ := h uid pod pod' hc hc'
  rw [VolumeTracker.mounts, hn, hv]
  rfl

theorem Consistent.call (h : vt.Consistent calls) (hs : SameVolumes calls) (hc : c ∈ calls) :
  (vt.call c).Consistent calls
  := by
  rw [Consistent, mounts_call]
  cases c with
  | track uid pod =>
    refine ⟨h.1.track (fun key hl => h.2 key uid hl pod hc), ?_⟩
    intro key uid' hl pod' hc'
    rw [call, listed_track, Ne, append_eq_nil_iff,
      not_and_or] at hl
    rcases hl with hl | hl
    · apply h.2 key uid' hl pod' hc'
    · split at hl
      next he =>
        subst he
        obtain ⟨m, hm⟩ := exists_mem_of_ne_nil _ hl
        rw [hs.mounts hc' hc]
        apply key_mem_of_mem_mountsOf hm
      · cases hl rfl
  | untrack uid =>
    refine ⟨h.1.untrack, fun key uid' hl => h.2 key uid' ?_⟩
    rintro he
    rw [listed_eq_nil_iff] at he
    rw [Ne, listed_eq_nil_iff] at hl
    apply hl
    intro m hm
    rw [call, h.1.untrack_volRefs] at hm
    apply he m (mem_filter.1 hm).1

theorem consistent_calls (hs : SameVolumes calls) (baseDir pawnName : String) :
  (calls.foldl call (newVolumeTracker baseDir pawnName)).Consistent calls
  := by
  apply foldlRecOn calls call
  · constructor
    · intro key m hm
      cases hm
    · intro key uid hl
      cases hl rfl
  · intro vt h c hc
    exact h.call hs hc

theorem mem_volRefs_calls (hm : m ∈ vt.volRefs key) (hc : .untrack m.podUID ∉ calls) :
  m ∈ (calls.foldl call vt).volRefs key
  := by
  induction calls generalizing vt with
  | nil => exact hm
  | cons c calls ih =>
    rw [mem_cons, not_or] at hc
    apply ih _ hc.2
    cases c with
    | track uid pod =>
      rw [call, track_volRefs]
      apply mem_append_left _ hm
    | untrack uid =>
      rw [call, untrack_volRefs]
      split
      · have hne : m.podUID ≠ uid := by
          rintro rfl
          exact hc.1 rfl
        apply mem_filter.2 ⟨hm, by simpa using hne⟩
      · exact hm

theorem mounts_calls :
  (calls.foldl call vt).mounts = vt.mounts
  := Transition.foldl_eq mounts (fun _ _ _ => mounts_call) vt

/-- After any calls, `Untrack` takes out what is listed of the uid and leaves the rest as it was,
and what was tracked and not untracked since is listed under its keys. -/
theorem untrack_calls (baseDir pawnName : String) (calls : List TrackCall)
    (hs : SameVolumes calls) :
  let vt := calls.foldl call (newVolumeTracker baseDir pawnName)
  (∀ uid key, (vt.untrack uid).volRefs key = (vt.volRefs key).filter fun m => m.podUID ≠ uid)
    ∧ (∀ uid key, (vt.untrack uid).listed key uid = [])
    ∧ ∀ uid pod before after, calls = before ++ .track uid pod :: after → .untrack uid ∉ after
      → ∀ m ∈ vt.mounts uid pod, m.2 ∈ vt.volRefs m.1
  := by
  intro vt
  have hi : vt.Indexed := (consistent_calls hs baseDir pawnName).1
  refine ⟨fun uid key => hi.untrack_volRefs, ?_, ?_⟩
  · intro uid key
    rw [listed, hi.untrack_volRefs, filter_filter]
    simp
  · rintro uid pod before after rfl hu m hm
    have hp := podUID_of_mem_mountsOf (mem_mountsOf_of_mem hm)
    simp only [vt, mounts_calls] at hm
    simp only [vt, List.foldl_append, List.foldl_cons]
    apply mem_volRefs_calls
    · rw [call, track_volRefs]
      apply mem_append_right
      apply mem_mountsOf_of_mem
      rw [mounts_calls]
      exact hm
    · rw [hp]
      exact hu

def trackedTwice : List TrackCall :=
  let pod : ApiPod := { spec := {}, volumes := [{ name := "a", configMap := some "c" },
    { name := "b", configMap := some "c" }] }
  [.track "u" pod, .track "u" pod]

theorem untrack_calls_twice :
  ((trackedTwice.foldl call (newVolumeTracker "" "")).volRefs "configmap:/c").length = 4
    ∧ ((trackedTwice.foldl call (newVolumeTracker "" "")).untrack "u").listed "configmap:/c" "u"
      = []
  := by
  refine ⟨by decide +kernel, (untrack_calls "" "" trackedTwice ?_).2.1 "u" _⟩
  intro uid pod₁ pod₂ h₁ h₂
  simp only [trackedTwice, mem_cons, TrackCall.track.injEq, not_mem_nil, or_false,
    or_self] at h₁ h₂
  simp [h₁.2, h₂.2]

end VolumeTracker

end Periapsis.Node
