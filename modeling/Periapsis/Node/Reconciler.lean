import Periapsis.Node.Paths
import Periapsis.Node.Startup
import Mathlib.Data.Finset.Sort

/-!
# The reconciler

A pass of the reconciler goes over three views of the pods.
-/

namespace Periapsis.Node

open Transition Text List

structure Layout where
  baseDir : List String
  pawnName : String

namespace Layout

variable (L : Layout)

def podsDir : List String :=
  join L.baseDir ["pawns", L.pawnName, "pods"]

def podDir (name : String) : List String :=
  L.podsDir ++ [name]

def overlayDir (name : String) : List String :=
  join L.baseDir ["pods"] ++ [name]

end Layout

structure Disk where
  podDirs : List String
  overlays : List String

def Disk.removeAll (disk : Disk) (L : Layout) (path : List String) : Disk where
  podDirs := disk.podDirs.filter fun name => ¬ path <+: L.podDir name
  overlays := disk.overlays.filter fun name => ¬ path <+: L.overlayDir name

structure MachineAnswers where
  podsListed : Bool := true
  unmounted : Bool := true
  volumesRemoved : Bool := true
  podDirRemoved : Bool := true

structure ReconcileReadings where
  machines : List (Systemd.PodMetadata × MachineAnswers)
  machinesListed : Bool := true
  hasLister : Bool := true
  k8sUIDs : List String
  hasSyncRequester : Bool := true
  podsListed : Bool := true
  dirsRead : Bool := true
  walk : Finset String → List String
  mem_walk : ∀ uids uid, uid ∈ walk uids ↔ uid ∈ uids

inductive ReconcileCall where
  | requestSync (podNamespace name : String)
  | stopMachine (uid containerName : String)
  | teardownNetwork (uid podNamespace name : String)
  | unmount (path : List String)
  | removeAll (path : List String)
  | evictGhost (uid : String)
  deriving DecidableEq

section Pass

variable (L : Layout) (r : ReconcileReadings)

variable (m : Systemd.PodMetadata)

def overlayPath : List String :=
  join L.baseDir ["pods", m.uid ++ "-" ++ m.containerName]

def volumesPath : List String :=
  join L.baseDir ["pawns", L.pawnName, "pods", m.uid, "volumes"]

def podPath : List String :=
  join L.baseDir ["pawns", L.pawnName, "pods", m.uid]

variable {m}

variable (s : PodStore)

def teardownCalls (m : Systemd.PodMetadata) : List ReconcileCall :=
  let (podNamespace, name) :=
    match s.pods.lookup m.uid with
    | none => (m.podNamespace, m.name)
    | some ps => (ps.pod.podNamespace, ps.pod.name)
  [ .stopMachine m.uid m.containerName,
    .teardownNetwork m.uid podNamespace name,
    .unmount (overlayPath L m),
    .removeAll (volumesPath L m),
    .removeAll (podPath L m) ]

def teardown (m : Systemd.PodMetadata) (answers : MachineAnswers) (disk : Disk) :
    Disk × List ReconcileCall :=
  let disk := if answers.unmounted then disk.removeAll L (overlayPath L m) else disk
  let disk := if answers.volumesRemoved then disk.removeAll L (volumesPath L m) else disk
  let disk := if answers.podDirRemoved then disk.removeAll L (podPath L m) else disk
  (disk, teardownCalls L s m)

def cleanOrphan (acc : Disk × List ReconcileCall)
    (m : Systemd.PodMetadata × MachineAnswers) : Disk × List ReconcileCall :=
  if s.isInFlight m.1.uid then acc
  else if s.hasPod m.1.uid then acc
  else if r.hasLister && m.2.podsListed && m.1.uid ∈ r.k8sUIDs then
    if r.hasSyncRequester then (acc.1, acc.2 ++ [.requestSync m.1.podNamespace m.1.name])
    else acc
  else
    let (disk, calls) := teardown L s m.1 m.2 acc.1
    (disk, acc.2 ++ calls)

def cleanOrphans (disk : Disk) : Disk × List ReconcileCall :=
  if r.machinesListed then r.machines.foldl (cleanOrphan L r s) (disk, []) else (disk, [])

def splitNsName (nsName : String) : String × String :=
  match cut '/' nsName.toList with
  | some (podNamespace, name) => (String.ofList podNamespace, String.ofList name)
  | none => ("", nsName)

def PodStore.podUIDs (uid : String) : String :=
  match s.pods.lookup uid with
  | none => ""
  | some ps => ps.pod.podNamespace ++ "/" ++ ps.pod.name

def cleanGhost (podUIDs : String → String) (acc : PodStore × List ReconcileCall) (uid : String) :
    PodStore × List ReconcileCall :=
  if acc.1.isInFlight uid then acc
  else if uid ∈ r.k8sUIDs then acc
  else
    let (podNamespace, name) := splitNsName (podUIDs uid)
    (acc.1.evictGhost uid, acc.2 ++ [.teardownNetwork uid podNamespace name, .evictGhost uid])

def cleanGhosts : PodStore × List ReconcileCall :=
  if r.hasLister && r.podsListed then
    (r.walk s.pods.keys).foldl (cleanGhost r s.podUIDs) (s, [])
  else (s, [])

def cleanStaleDirs (disk : Disk) : List ReconcileCall :=
  if r.dirsRead then
    disk.podDirs.filterMap fun name =>
      if s.hasPod (dirUID name) then none
      else if s.isInFlight (dirUID name) then none
      else some (.removeAll (L.podDir name))
  else []

def reconcile (disk : Disk) : PodStore × List ReconcileCall :=
  let (disk, orphanCalls) := cleanOrphans L r s disk
  let (s, ghostCalls) := cleanGhosts r s
  (s, orphanCalls ++ ghostCalls ++ cleanStaleDirs L r s disk)

end Pass

/-- The directory is one of the pod's on the disk. -/
def Disk.Holds (disk : Disk) (L : Layout) (uid : String) (dir : List String) : Prop :=
  (∃ name ∈ disk.podDirs, BelongsTo uid name ∧ dir = L.podDir name)
    ∨ ∃ name ∈ disk.overlays, BelongsTo uid name ∧ dir = L.overlayDir name

def Disk.Hits (disk : Disk) (L : Layout) (uid : String) (path : List String) : Prop :=
  ∃ dir, disk.Holds L uid dir ∧ (path <+: dir ∨ dir <+: path)

def ReconcileCall.Harms (L : Layout) (disk : Disk) (uid : String) : ReconcileCall → Prop
  | .stopMachine uid' _ => uid' = uid
  | .teardownNetwork uid' _ _ => uid' = uid
  | .unmount path => disk.Hits L uid path
  | .removeAll path => disk.Hits L uid path
  | .requestSync .. => False
  | .evictGhost _ => False

namespace Reconciler

def Live (r : ReconcileReadings) (uid : String) : Prop :=
  (∃ m ∈ r.machines, m.1.uid = uid ∧ m.1.state = .running) ∧ uid ∈ r.k8sUIDs

def SparesLive (L : Layout) (r : ReconcileReadings) (s : PodStore) (disk : Disk) : Prop :=
  ∀ uid, Live r uid → ∀ call ∈ (reconcile L r s disk).2, ¬ call.Harms L disk uid

def Orphan (r : ReconcileReadings) (s : PodStore) (m : Systemd.PodMetadata × MachineAnswers) :
    Prop :=
  s.hasPod m.1.uid = false
    ∧ ¬ (r.hasLister = true ∧ m.2.podsListed = true ∧ m.1.uid ∈ r.k8sUIDs)

def Stays (r : ReconcileReadings) (s : PodStore) (uid : String) : Prop :=
  s.hasPod uid = true
    ∧ (s.isInFlight uid = true ∨ uid ∈ r.k8sUIDs ∨ r.hasLister = false ∨ r.podsListed = false)

def teardownPaths (L : Layout) (m : Systemd.PodMetadata) : List (List String) :=
  [overlayPath L m, volumesPath L m, podPath L m]

/-- A pass has no reason to harm the pod: no machine of it and nothing in its directories is an
orphan, and every pod whose directories hold its own stays. -/
structure Spared (L : Layout) (r : ReconcileReadings) (s : PodStore) (disk : Disk)
    (uid : String) : Prop where
  machines : r.machinesListed = true → ∀ m ∈ r.machines, Orphan r s m →
    m.1.uid ≠ uid ∧ ∀ path ∈ teardownPaths L m.1, ¬ disk.Hits L uid path
  dirs : r.dirsRead = true → ∀ name ∈ disk.podDirs, disk.Hits L uid (L.podDir name) →
    Stays r s (dirUID name)

/-! ### Orphans -/

theorem hasPod_of_isInFlight {s : PodStore} {uid : String} (h : s.isInFlight uid) :
  s.hasPod uid
  := by
  rw [PodStore.isInFlight] at h
  rw [PodStore.hasPod]
  split at h
  · cases h
  next ps hps =>
    rw [hps]
    rfl

variable {L : Layout} {r : ReconcileReadings} {s : PodStore} {disk : Disk} {uid : String}

theorem cleanOrphan_cases (acc : Disk × List ReconcileCall)
    (m : Systemd.PodMetadata × MachineAnswers) :
  (¬ Orphan r s m ∧ (cleanOrphan L r s acc m = acc
      ∨ cleanOrphan L r s acc m = (acc.1, acc.2 ++ [.requestSync m.1.podNamespace m.1.name])))
    ∨ Orphan r s m ∧ cleanOrphan L r s acc m
      = ((teardown L s m.1 m.2 acc.1).1, acc.2 ++ teardownCalls L s m.1)
  := by
  rw [cleanOrphan, Orphan]
  split_ifs with hf hpo hse
  · left
    simp [hasPod_of_isInFlight hf]
  · left
    simp [hpo]
  · left
    simp only [Bool.and_eq_true, decide_eq_true_eq, and_assoc] at hse
    simp [hse]
  · left
    simp only [Bool.and_eq_true, decide_eq_true_eq, and_assoc] at hse
    simp [hse]
  · right
    simp only [Bool.and_eq_true, decide_eq_true_eq, and_assoc] at hse
    refine ⟨⟨by simpa using hpo, hse⟩, rfl⟩

theorem harms_teardown :
  (∃ call ∈ teardownCalls L s m, call.Harms L disk uid)
    ↔ m.uid = uid ∨ ∃ path ∈ teardownPaths L m, disk.Hits L uid path
  := by
  simp [teardownCalls, teardownPaths, ReconcileCall.Harms]

theorem harms_cleanOrphan (acc : Disk × List ReconcileCall)
    (m : Systemd.PodMetadata × MachineAnswers) :
  (∃ call ∈ (cleanOrphan L r s acc m).2, call.Harms L disk uid)
    ↔ (∃ call ∈ acc.2, call.Harms L disk uid) ∨ Orphan r s m
        ∧ (m.1.uid = uid ∨ ∃ path ∈ teardownPaths L m.1, disk.Hits L uid path)
  := by
  rcases cleanOrphan_cases (L := L) (r := r) (s := s) acc m
    with ⟨ho, heq | heq⟩ | ⟨ho, heq⟩
  · simp [heq, ho]
  · simp [heq, ho, ReconcileCall.Harms, or_and_right, exists_or]
  · rw [heq]
    simp only [ho, true_and, ← harms_teardown (s := s)]
    simp [or_and_right, exists_or]

theorem harms_cleanOrphans :
  (∃ call ∈ (cleanOrphans L r s disk').2, call.Harms L disk uid)
    ↔ r.machinesListed ∧ ∃ m ∈ r.machines, Orphan r s m
        ∧ (m.1.uid = uid ∨ ∃ path ∈ teardownPaths L m.1, disk.Hits L uid path)
  := by
  rw [cleanOrphans]
  split_ifs with hl
  · rw [and_iff_right hl]
    apply (foldl_iff (P := fun acc : Disk × List ReconcileCall =>
      ∃ call ∈ acc.2, call.Harms L disk uid) harms_cleanOrphan r.machines (disk', [])).trans
    simp
  · simp [hl]

def removedPaths (L : Layout) (m : Systemd.PodMetadata × MachineAnswers) : List (List String) :=
  (if m.2.unmounted then [overlayPath L m.1] else [])
    ++ (if m.2.volumesRemoved then [volumesPath L m.1] else [])
    ++ if m.2.podDirRemoved then [podPath L m.1] else []

theorem removedPaths_subset (m : Systemd.PodMetadata × MachineAnswers) :
  removedPaths L m ⊆ teardownPaths L m.1
  := by
  intro path hp
  simp only [removedPaths, mem_append, mem_ite_nil_right, mem_singleton] at hp
  simp only [teardownPaths, mem_cons, not_mem_nil, or_false]
  tauto

variable {name : String}

theorem mem_podDirs_teardown {m : Systemd.PodMetadata × MachineAnswers} :
  name ∈ (teardown L s m.1 m.2 disk).1.podDirs
    ↔ name ∈ disk.podDirs ∧ ∀ path ∈ removedPaths L m, ¬ path <+: L.podDir name
  := by
  have hrm (answered : Bool) (disk : Disk) (path : List String) :
      name ∈ (if answered then disk.removeAll L path else disk).podDirs
        ↔ name ∈ disk.podDirs
          ∧ ∀ path' ∈ (if answered then [path] else []), ¬ path' <+: L.podDir name := by
    cases answered with
    | false => simp
    | true => simp [Disk.removeAll]
  simp only [teardown, hrm, removedPaths, forall_mem_append, and_assoc]

theorem not_mem_podDirs_cleanOrphans :
  name ∉ (cleanOrphans L r s disk).1.podDirs
    ↔ name ∉ disk.podDirs ∨ r.machinesListed ∧ ∃ m ∈ r.machines, Orphan r s m
        ∧ ∃ path ∈ removedPaths L m, path <+: L.podDir name
  := by
  rw [cleanOrphans]
  split_ifs with hl
  · rw [and_iff_right hl]
    apply foldl_iff (P := fun acc : Disk × List ReconcileCall => name ∉ acc.1.podDirs)
    intro acc m
    rcases cleanOrphan_cases (L := L) (r := r) (s := s) acc m
      with ⟨ho, heq | heq⟩ | ⟨ho, heq⟩
    · simp [heq, ho]
    · simp [heq, ho]
    · rw [heq, mem_podDirs_teardown]
      simp [ho, imp_iff_not_or]
  · simp [hl]

/-! ### Ghosts -/

theorem not_harms_cleanGhosts (hui : uid ∈ r.k8sUIDs) :
  ¬ ∃ call ∈ (cleanGhosts r s).2, call.Harms L disk uid
  := by
  rw [cleanGhosts]
  split_ifs
  · rw [foldl_iff (P := fun acc : PodStore × List ReconcileCall =>
      ∃ call ∈ acc.2, call.Harms L disk uid) (Q := fun _ => False)]
    · simp
    · intro acc ghost
      rw [cleanGhost]
      split_ifs with hf hk
      · simp
      · simp
      · have hne : ghost ≠ uid := by
          rintro rfl
          exact hk hui
        simp [ReconcileCall.Harms, hne, or_and_right, exists_or]
  · simp

def Evicted (r : ReconcileReadings) (s : PodStore) (uid : String) : Prop :=
  s.isInFlight uid = false ∧ uid ∉ r.k8sUIDs

theorem Evicted.congr {s' : PodStore} (h : s'.pods.lookup uid = s.pods.lookup uid) :
  Evicted r s' uid ↔ Evicted r s uid
  := by
  rw [Evicted, Evicted, PodStore.isInFlight, PodStore.isInFlight, h]

theorem lookup_cleanGhost (r : ReconcileReadings) (podUIDs : String → String)
    (acc : PodStore × List ReconcileCall) (ghost uid : String) :
  (ghost = uid ∧ Evicted r acc.1 uid)
      ∧ (cleanGhost r podUIDs acc ghost).1.pods.lookup uid = none
    ∨ ¬ (ghost = uid ∧ Evicted r acc.1 uid)
      ∧ (cleanGhost r podUIDs acc ghost).1.pods.lookup uid = acc.1.pods.lookup uid
  := by
  rw [cleanGhost, Evicted]
  split_ifs with hf hk
  · right
    refine ⟨?_, rfl⟩
    rintro ⟨rfl, hi, -⟩
    rw [hi] at hf
    cases hf
  · right
    refine ⟨?_, rfl⟩
    rintro ⟨rfl, -, hun⟩
    exact hun hk
  · rw [PodStore.lookup_evictGhost]
    by_cases heq : ghost = uid
    · left
      rw [if_pos heq.symm]
      exact ⟨⟨heq, by simpa [heq] using hf, heq ▸ hk⟩, rfl⟩
    · right
      rw [if_neg (Ne.symm heq)]
      exact ⟨fun h => heq h.1, rfl⟩

theorem lookup_foldl_cleanGhost (r : ReconcileReadings) (podUIDs : String → String)
    (uids : List String) (acc : PodStore × List ReconcileCall) (uid : String) :
  (uid ∈ uids ∧ Evicted r acc.1 uid)
      ∧ (uids.foldl (cleanGhost r podUIDs) acc).1.pods.lookup uid = none
    ∨ ¬ (uid ∈ uids ∧ Evicted r acc.1 uid)
      ∧ (uids.foldl (cleanGhost r podUIDs) acc).1.pods.lookup uid = acc.1.pods.lookup uid
  := by
  induction uids generalizing acc with
  | nil =>
    right
    refine ⟨?_, rfl⟩
    simp
  | cons ghost uids ih =>
    rw [foldl_cons]
    have hr := ih (cleanGhost r podUIDs acc ghost)
    rcases lookup_cleanGhost r podUIDs acc ghost uid with
      ⟨⟨rfl, hev⟩, hno⟩ | ⟨hnt, hsa⟩
    · left
      refine ⟨⟨mem_cons_self, hev⟩, ?_⟩
      rcases hr with ⟨-, hr⟩ | ⟨-, hr⟩
      · exact hr
      · rw [hr, hno]
    · rw [Evicted.congr hsa, hsa] at hr
      have hme : uid ∈ ghost :: uids ∧ Evicted r acc.1 uid ↔ uid ∈ uids ∧ Evicted r acc.1 uid := by
        rw [mem_cons]
        constructor
        · rintro ⟨rfl | hui, hev⟩
          · exact absurd ⟨rfl, hev⟩ hnt
          · exact ⟨hui, hev⟩
        · rintro ⟨hui, hev⟩
          exact ⟨.inr hui, hev⟩
      rw [hme]
      exact hr

theorem hasPod_cleanGhosts :
  (cleanGhosts r s).1.hasPod uid ↔ Stays r s uid
  := by
  have hme : uid ∈ r.walk s.pods.keys ↔ s.hasPod uid := by
    rw [r.mem_walk, Finmap.mem_keys, ← Finmap.lookup_isSome]
    rfl
  rw [cleanGhosts, Stays]
  split_ifs with hli
  · rw [Bool.and_eq_true] at hli
    have hs : (s.isInFlight uid ∨ uid ∈ r.k8sUIDs ∨ r.hasLister = false
        ∨ r.podsListed = false) ↔ ¬ Evicted r s uid := by
      rw [Evicted, not_and_or, Bool.not_eq_false, not_not]
      simp [hli]
    rw [hs]
    rcases lookup_foldl_cleanGhost r s.podUIDs (r.walk s.pods.keys) (s, []) uid with
      ⟨⟨-, hev⟩, hno⟩ | ⟨hnt, hsa⟩
    · simp [PodStore.hasPod, hno, hev]
    · rw [hme] at hnt
      rw [PodStore.hasPod, hsa]
      constructor
      · intro hpo
        exact ⟨hpo, fun hev => hnt ⟨hpo, hev⟩⟩
      · intro hpo
        exact hpo.1
  · rw [Bool.and_eq_true, not_and_or, Bool.not_eq_true, Bool.not_eq_true] at hli
    constructor
    · intro hpo
      exact ⟨hpo, .inr (.inr hli)⟩
    · intro hpo
      exact hpo.1

theorem harms_cleanStaleDirs :
  (∃ call ∈ cleanStaleDirs L r s disk', call.Harms L disk uid)
    ↔ r.dirsRead ∧ ∃ name ∈ disk'.podDirs, s.hasPod (dirUID name) ≠ true
        ∧ disk.Hits L uid (L.podDir name)
  := by
  rw [cleanStaleDirs]
  split_ifs with hre
  · rw [and_iff_right hre]
    simp only [mem_filterMap]
    constructor
    · rintro ⟨call, ⟨name, hn, heq⟩, hha⟩
      split_ifs at heq with hpo
      cases heq
      exact ⟨name, hn, hpo, hha⟩
    · rintro ⟨name, hn, hpo, hh⟩
      refine ⟨.removeAll (L.podDir name), ⟨name, hn, ?_⟩, hh⟩
      rw [if_neg hpo, if_neg fun hf => hpo (hasPod_of_isInFlight hf)]
  · simp [hre]

theorem hits_above {path dir : List String} (h : disk.Hits L uid dir) (hp : path <+: dir) :
  disk.Hits L uid path
  := by
  obtain ⟨own, how, hdi | hdi⟩ := h
  · exact ⟨own, how, .inl (hp.trans hdi)⟩
  · exact ⟨own, how, prefix_or_prefix_of_prefix hp hdi⟩

theorem harms_reconcile (hui : uid ∈ r.k8sUIDs) :
  (∃ call ∈ (reconcile L r s disk).2, call.Harms L disk uid)
    ↔ (r.machinesListed ∧ ∃ m ∈ r.machines, Orphan r s m
        ∧ (m.1.uid = uid ∨ ∃ path ∈ teardownPaths L m.1, disk.Hits L uid path))
      ∨ r.dirsRead ∧ ∃ name ∈ (cleanOrphans L r s disk).1.podDirs,
          ¬ Stays r s (dirUID name) ∧ disk.Hits L uid (L.podDir name)
  := by
  have hg : ¬ ∃ call ∈ (cleanGhosts r s).2, call.Harms L disk uid := not_harms_cleanGhosts hui
  simp only [reconcile, mem_append, or_and_right, exists_or, hg, or_false,
    harms_cleanOrphans, harms_cleanStaleDirs, ne_eq, hasPod_cleanGhosts]

/-- A pass harms no live pod exactly if it has no reason to. -/
theorem sparesLive_iff (L : Layout) (r : ReconcileReadings) (s : PodStore) (disk : Disk) :
  SparesLive L r s disk ↔ ∀ uid, Live r uid → Spared L r s disk uid
  := by
  apply forall_congr'
  intro uid
  apply imp_congr_right
  rintro ⟨-, hui⟩
  constructor
  · intro hsr
    have hu : ¬ ∃ call ∈ (reconcile L r s disk).2, call.Harms L disk uid := by
      rintro ⟨call, hc, hha⟩
      exact hsr call hc hha
    rw [harms_reconcile hui, not_or] at hu
    obtain ⟨hor, hd⟩ := hu
    have hma : r.machinesListed = true → ∀ m ∈ r.machines, Orphan r s m →
        m.1.uid ≠ uid ∧ ∀ path ∈ teardownPaths L m.1, ¬ disk.Hits L uid path := by
      intro hl m hm ho
      constructor
      · intro heq
        exact hor ⟨hl, m, hm, ho, .inl heq⟩
      · intro path hp hh
        exact hor ⟨hl, m, hm, ho, .inr ⟨path, hp, hh⟩⟩
    refine ⟨hma, ?_⟩
    intro hre name hn hh
    by_contra hs
    apply hd ⟨hre, name, _, hs, hh⟩
    by_contra hmi
    rcases not_mem_podDirs_cleanOrphans.mp hmi with
      hno | ⟨hl, m, hm, ho, path, hp, ha⟩
    · exact hno hn
    · exact (hma hl m hm ho).2 path (removedPaths_subset m hp)
        (hits_above hh ha)
  · intro hsp call hc hha
    rcases (harms_reconcile hui).mp ⟨call, hc, hha⟩ with
      ⟨hl, m, hm, ho, hhr⟩ | ⟨hre, name, hn, hs, hh⟩
    · obtain ⟨hui, hpa⟩ := hsp.machines hl m hm ho
      rcases hhr with heq | ⟨path, hp, hh⟩
      · exact hui heq
      · exact hpa path hp hh
    · apply hs (hsp.dirs hre name _ hh)
      by_contra hmi
      exact not_mem_podDirs_cleanOrphans.mpr (.inl hmi) hn

/-- A pass in which every call succeeds, with a pod that runs, that the API server knows, and that
is not registered. -/
def lostPod : ReconcileReadings where
  machines :=
    [ ( { uid := "u"
          name := "web-0"
          podNamespace := "default"
          nodeName := "a"
          podIP := ""
          containerName := "web"
          startedAt := none
          state := .running
          exitCode := 0 },
        {} ) ]
  k8sUIDs := ["u"]
  walk uids := uids.sort
  mem_walk uids uid := Finset.mem_sort _

theorem removed_after_requestSync :
  let L : Layout := ⟨["var", "lib"], "a"⟩
  let disk : Disk := ⟨["u"], []⟩
  Live lostPod "u"
    ∧ (reconcile L lostPod newPodStore disk).2
      = [.requestSync "default" "web-0", .removeAll (L.podDir "u")]
    ∧ (ReconcileCall.removeAll (L.podDir "u")).Harms L disk "u"
  := by
  intro L disk
  have hw : lostPod.walk newPodStore.pods.keys = [] := by
    apply eq_nil_iff_forall_not_mem.mpr
    intro uid hui
    rw [lostPod.mem_walk] at hui
    cases hui
  have hg : cleanGhosts lostPod newPodStore = (newPodStore, []) := by
    rw [cleanGhosts, hw]
    rfl
  refine ⟨⟨⟨_, mem_cons_self, rfl, rfl⟩, mem_cons_self⟩, ?_, ?_⟩
  · rw [reconcile, hg]
    rfl
  · exact ⟨_, .inl ⟨"u", mem_cons_self, .inl rfl, rfl⟩, .inl (prefix_refl _)⟩

end Reconciler

end Periapsis.Node
