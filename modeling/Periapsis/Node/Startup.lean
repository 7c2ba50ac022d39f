import Periapsis.Node.Gambit
import Periapsis.Systemd.Listing

/-!
# The start of the node agent

The node agent starts by registering the pods whose state files it can read, and those of the
machines it lists.
-/

namespace Periapsis.Node

open Transition Text Systemd List

def PodStore.hydratedUIDs (s : PodStore) (uid : String) : Bool :=
  ((s.pods.lookup uid).map PodState.hydrated).getD false

/-- An entry of the directory of pods, with the state file that is in it. -/
structure DirEntry where
  name : String
  isDir : Bool := true
  podState : Option PersistedPodState := none

def loadAllPodStates (entries : Option (List DirEntry)) : List PersistedPodState :=
  (entries.getD []).filterMap fun e => if e.isDir then e.podState else none

def isOverlay (name : String) : Bool :=
  decide (36 < name.length ∧ name.toList[36]? = some '-')

def dirUID (name : String) : String :=
  if isOverlay name then String.ofList (name.toList.take 36) else name

inductive Cleaning where
  | unmount (dir : String)
  | removeAll (dir : String)
  deriving DecidableEq

def Cleaning.dir : Cleaning → String
  | .unmount dir => dir
  | .removeAll dir => dir

def sweep (hydratedUIDs : String → Bool) (entries : Option (List DirEntry)) : List Cleaning :=
  (entries.getD []).filterMap fun e =>
    if e.isDir = false then none
    else if hydratedUIDs (dirUID e.name) then none
    else if isOverlay e.name then some (.unmount e.name)
    else some (.removeAll e.name)

structure StartupReadings where
  disk : List DirEntry
  units : List (SystemdUnit × Answers)
  loaded : Bool := true
  listError : Option String := none
  swept : Bool := true

def managedMachine (m : Systemd.PodMetadata) : ManagedMachine where
  uid := m.uid
  podNamespace := m.podNamespace
  name := m.name
  podIP := m.podIP

def StartupReadings.machines (r : StartupReadings) (b : Brackets) (pawnName : String) :
    List Systemd.PodMetadata :=
  let listed : Except String (List (SystemdUnit × Answers)) :=
    match r.listError with
    | some e => .error e
    | none => .ok r.units
  (listManagedMachines b pawnName listed).toOption.getD []

def startup (b : Brackets) (pawnName : String) (clock : Nat → Time) (r : StartupReadings) :
    Gambit × List Cleaning :=
  let states := loadAllPodStates (property r.loaded r.disk)
  let machines := (r.machines b pawnName).map managedMachine
  let g := Gambit.hydrateFromRuntime clock states machines
  (g, sweep g.store.hydratedUIDs (property r.swept r.disk))

namespace PodStore

variable {s : PodStore} {uid uid' : String}

theorem hydratedUIDs_put :
  (s.put uid' (hydratedState pod ip)).hydratedUIDs uid
    ↔ s.hydratedUIDs uid ∨ uid' = uid
  := by
  by_cases heq : uid' = uid
  · subst heq
    simp [hydratedUIDs, put, Finmap.lookup_insert, hydratedState]
  · rw [hydratedUIDs, lookup_put_of_ne _ _ _ (Ne.symm heq)]
    simp [hydratedUIDs, heq]

theorem hydratedUIDs_update {f : PodState → PodState} (hf : ∀ ps, (f ps).hydrated = ps.hydrated) :
  (s.update uid' f).hydratedUIDs uid = s.hydratedUIDs uid
  := by
  rw [hydratedUIDs, lookup_update]
  split
  · rw [Option.map_map, hydratedUIDs]
    congr 2
    funext ps
    apply hf
  · rfl

theorem hydratedUIDs_registerHydratedBatch :
  (s.registerHydratedBatch entries).hydratedUIDs uid
    ↔ s.hydratedUIDs uid ∨ ∃ e ∈ entries, e.uid = uid
  := by
  apply foldl_iff (f := hydrateEntry) (P := fun acc => acc.1.hydratedUIDs uid)
    (Q := fun e => e.uid = uid)
  intro acc e
  apply hydratedUIDs_put

theorem hydratedUIDs_foldl {α : Type} {f : PodStore → α → PodStore}
    (hf : ∀ s a, (f s a).hydratedUIDs uid = s.hydratedUIDs uid) (l : List α) :
  (l.foldl f s).hydratedUIDs uid = s.hydratedUIDs uid
  := foldl_eq (fun s => s.hydratedUIDs uid) (fun a _ s => hf s a) s

end PodStore

namespace Gambit

open PodStore

variable {clock : Nat → Time} {uid : String}

theorem hydratedUIDs_restoreRestarts (store : PodStore) :
  (restoreRestarts clock store state).hydratedUIDs uid = store.hydratedUIDs uid
  := by
  have hr (s : PodStore) (name : String)
      (f : ContainerRestartState → ContainerRestartState) :
      (s.updateRestartState state.pod.uid name f).hydratedUIDs uid = s.hydratedUIDs uid := by
    apply hydratedUIDs_update
    intro ps
    rfl
  rw [restoreRestarts, hydratedUIDs_foldl, hydratedUIDs_foldl]
  · apply hydratedUIDs_update
    intro ps
    rfl
  all_goals
    intro s name
    split
    · rfl
    · apply hr

theorem hydratedUIDs_adoptMachine (clock : Nat → Time) (diskUIDs : List String)
    (store : PodStore) (m : ManagedMachine) (uid : String) :
  (adoptMachine clock diskUIDs store m).hydratedUIDs uid
    ↔ store.hydratedUIDs uid
      ∨ ¬ (m.uid = "" ∨ m.uid ∈ diskUIDs ∨ m.name = "" ∨ m.podNamespace = "") ∧ m.uid = uid
  := by
  rw [adoptMachine]
  split
  next hsk =>
    simp [hsk]
  next had =>
    rw [initRestartState, initRestartStateFrom, hydratedUIDs_update]
    · simp only [had, not_false_eq_true, true_and]
      apply hydratedUIDs_put
    · intro ps
      rfl

theorem hydratedUIDs_hydrateFromRuntime (states : List PersistedPodState) :
  (hydrateFromRuntime clock states machines).store.hydratedUIDs uid
    ↔ (∃ state ∈ states, ¬ state.phase.terminal ∧ state.pod.uid = uid)
      ∨ ∃ m ∈ machines, m.uid ≠ "" ∧ m.name ≠ "" ∧ m.podNamespace ≠ "" ∧ m.uid = uid
  := by
  let restored := states.filter fun state => ¬ state.phase.terminal
  let batch := newPodStore.registerHydratedBatch
    (restored.map fun state => ⟨state.pod.uid, state.pod, state.podIP⟩)
  have hba : batch.hydratedUIDs uid ↔ ∃ state ∈ restored, state.pod.uid = uid := by
    rw [hydratedUIDs_registerHydratedBatch]
    simp [hydratedUIDs, newPodStore]
  have hrs : (restored.foldl (restoreRestarts clock) batch).hydratedUIDs uid
      = batch.hydratedUIDs uid := by
    apply hydratedUIDs_foldl
    intro s state
    apply hydratedUIDs_restoreRestarts
  have had := foldl_iff (P := fun s : PodStore => s.hydratedUIDs uid)
    (fun s m => hydratedUIDs_adoptMachine clock (restored.map (·.pod.uid)) s m uid) machines
    (restored.foldl (restoreRestarts clock) batch)
  rw [hrs, hba] at had
  apply had.trans
  have hre : (∃ state ∈ restored, state.pod.uid = uid)
      ↔ ∃ state ∈ states, ¬ state.phase.terminal ∧ state.pod.uid = uid := by
    simp [restored, and_assoc]
  rw [← hre]
  constructor
  · rintro (hd | ⟨m, hm, hsk, hui⟩)
    · left
      exact hd
    · right
      simp only [not_or] at hsk
      exact ⟨m, hm, hsk.1, hsk.2.2.1, hsk.2.2.2, hui⟩
  · rintro (hd | ⟨m, hm, hem, hna, hn, rfl⟩)
    · left
      exact hd
    · by_cases hkn : m.uid ∈ restored.map (·.pod.uid)
      · left
        simpa using hkn
      · right
        refine ⟨m, hm, ?_, rfl⟩
        simp only [not_or]
        exact ⟨hem, hkn, hna, hn⟩

end Gambit

/-- The directory has the name of the pod or of one of its containers. -/
def BelongsTo (uid dir : String) : Prop :=
  dir = uid ∨ ∃ containerName, dir = uid ++ "-" ++ containerName

def HasActiveUnit (pawnName : String) (r : StartupReadings) (uid : String) : Prop :=
  ∃ u ∈ r.units, ∃ containerName, u.1.name = wrapperUnitName pawnName uid containerName
    ∧ mapActiveState u.1.activeState = .running

def KeepsActive (b : Brackets) (pawnName : String) (clock : Nat → Time) (r : StartupReadings) :
    Prop :=
  ∀ uid, HasActiveUnit pawnName r uid →
    ∀ cleaning ∈ (startup b pawnName clock r).2, ¬ BelongsTo uid cleaning.dir

def FoundOnDisk (r : StartupReadings) (uid : String) : Prop :=
  r.loaded = true ∧ ∃ e ∈ r.disk, e.isDir = true
    ∧ ∃ state, e.podState = some state ∧ ¬ state.phase.terminal ∧ state.pod.uid = uid

def FoundListed (b : Brackets) (pawnName : String) (r : StartupReadings) (uid : String) : Prop :=
  r.listError = none ∧ uid ≠ "" ∧ ∃ u ∈ r.units, Systemd.Listed b pawnName u.1.name
    ∧ (metadata pawnName u.1 u.2).uid = uid ∧ (metadata pawnName u.1 u.2).name ≠ ""
    ∧ (metadata pawnName u.1 u.2).podNamespace ≠ ""

theorem mem_property {α : Type} {answered : Bool} {l : List α} {a : α} :
  a ∈ (property answered l).getD [] ↔ answered ∧ a ∈ l
  := by
  cases answered with
  | _ => simp [property]

variable {entries : Option (List DirEntry)}

theorem mem_loadAllPodStates {state : PersistedPodState} :
  state ∈ loadAllPodStates entries
    ↔ ∃ e ∈ entries.getD [], e.isDir ∧ e.podState = some state
  := by
  simp [loadAllPodStates]

theorem mem_machines {r : StartupReadings} {b : Brackets} {pawnName : String}
    {m : Systemd.PodMetadata} :
  m ∈ r.machines b pawnName
    ↔ r.listError = none
      ∧ ∃ u ∈ r.units, Systemd.Listed b pawnName u.1.name ∧ metadata pawnName u.1 u.2 = m
  := by
  rw [StartupReadings.machines]
  cases r.listError with
  | some e => simp [listManagedMachines, Except.toOption]
  | none =>
    rw [and_iff_right rfl]
    exact mem_listManagedMachines rfl

theorem exists_mem_sweep {hydratedUIDs : String → Bool} {P : String → Prop} :
  (∃ cleaning ∈ sweep hydratedUIDs entries, P cleaning.dir)
    ↔ ∃ e ∈ entries.getD [], e.isDir ∧ P e.name ∧ hydratedUIDs (dirUID e.name) ≠ true
  := by
  simp only [sweep, mem_filterMap]
  constructor
  · rintro ⟨cleaning, ⟨e, he, heq⟩, hP⟩
    split_ifs at heq with hdi hh ho
    all_goals
      cases heq
      exact ⟨e, he, by simpa using hdi, hP, hh⟩
  · rintro ⟨e, he, hdi, hP, hh⟩
    cases ho : isOverlay e.name with
    | false => exact ⟨.removeAll e.name, ⟨e, he, by simp [hdi, hh, ho]⟩, hP⟩
    | true => exact ⟨.unmount e.name, ⟨e, he, by simp [hdi, hh, ho]⟩, hP⟩

theorem hydratedUIDs_startup (b : Brackets) (pawnName : String) (clock : Nat → Time) :
  (startup b pawnName clock r).1.store.hydratedUIDs uid
    ↔ FoundOnDisk r uid ∨ FoundListed b pawnName r uid
  := by
  rw [startup, Gambit.hydratedUIDs_hydrateFromRuntime]
  apply or_congr
  · simp only [mem_loadAllPodStates, mem_property, FoundOnDisk]
    constructor
    · rintro ⟨state, ⟨e, ⟨hlo, he⟩, hdi, hst⟩, hp, hui⟩
      exact ⟨hlo, e, he, hdi, state, hst, hp, hui⟩
    · rintro ⟨hlo, e, he, hdi, state, hst, hp, hui⟩
      exact ⟨state, ⟨e, ⟨hlo, he⟩, hdi, hst⟩, hp, hui⟩
  · simp only [mem_map, mem_machines, FoundListed]
    constructor
    · rintro ⟨_, ⟨_, ⟨hli, u, hu, hl, rfl⟩, rfl⟩, hem, hna, hn, rfl⟩
      exact ⟨hli, hem, u, hu, hl, rfl, hna, hn⟩
    · rintro ⟨hli, hem, u, hu, hl, rfl, hna, hn⟩
      exact ⟨_, ⟨_, ⟨hli, u, hu, hl, rfl⟩, rfl⟩, hem, hna, hn, rfl⟩

/-- The start spares the directories of the pods with an active unit exactly if it does not get to
sweeping, or the pod named by each of them is found. -/
theorem keepsActive_iff (b : Brackets) (pawnName : String) (clock : Nat → Time)
    (r : StartupReadings) :
  KeepsActive b pawnName clock r
    ↔ r.swept = false ∨ ∀ uid, HasActiveUnit pawnName r uid →
        ∀ e ∈ r.disk, e.isDir = true → BelongsTo uid e.name →
          FoundOnDisk r (dirUID e.name) ∨ FoundListed b pawnName r (dirUID e.name)
  := by
  simp only [← hydratedUIDs_startup b pawnName clock]
  constructor
  · intro hk
    rcases Bool.eq_false_or_eq_true r.swept with hs | hs
    · right
      intro uid ha e he hdi hb
      by_contra hno
      obtain ⟨cleaning, hc, hb⟩ :=
        exists_mem_sweep.mpr ⟨e, mem_property.mpr ⟨hs, he⟩, hdi, hb, hno⟩
      exact hk uid ha cleaning hc hb
    · left
      exact hs
  · rintro hk uid ha cleaning hc hb
    obtain ⟨e, he, hdi, hb, hno⟩ := exists_mem_sweep.mp ⟨cleaning, hc, hb⟩
    obtain ⟨hs, he⟩ := mem_property.mp he
    rcases hk with hun | hfo
    · rw [hun] at hs
      cases hs
    · exact hno (hfo uid ha e he hdi hb)

def unlistedAtStart : StartupReadings where
  disk :=
    [ { name := "123e4567-e89b-12d3-a456-426614174000" },
      { name := "123e4567-e89b-12d3-a456-426614174000-web" } ]
  units :=
    [ ( { name := wrapperUnitName "a" "123e4567-e89b-12d3-a456-426614174000" "web"
          environment := []
          activeState := "active"
          execMainStatus := 0
          activeEnterTimestamp := 1 },
        {} ) ]
  listError := some "connection closed"

theorem cleaned_while_active :
  HasActiveUnit "a" unlistedAtStart "123e4567-e89b-12d3-a456-426614174000"
    ∧ (startup noBrackets "a" (fun _ => 0) unlistedAtStart).2
      = [ .removeAll "123e4567-e89b-12d3-a456-426614174000",
          .unmount "123e4567-e89b-12d3-a456-426614174000-web" ]
  := ⟨⟨_, mem_cons_self, "web", rfl, rfl⟩, by decide⟩

end Periapsis.Node
