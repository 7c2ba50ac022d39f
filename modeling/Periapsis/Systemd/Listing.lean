import Periapsis.Systemd.UnitName
import Periapsis.Types.Messages

/-!
# The listing of machines

The runtime puts what has to be known of a pod into the environment of the units of its containers.
-/

namespace Periapsis.Systemd

open Perigeos Text List Function String

structure TransientUnit where
  name : String
  environment : List String
  deriving DecidableEq

structure SystemdUnit extends TransientUnit where
  activeState : String
  execMainStatus : Int32
  activeEnterTimestamp : UInt64
  deriving DecidableEq

structure Answers where
  environment : Bool := true
  execMainStatus : Bool := true
  activeEnterTimestamp : Bool := true
  deriving DecidableEq

def property {α : Type} (answered : Bool) (value : α) : Option α :=
  if answered then some value else none

structure PodConfig where
  name : String := ""
  podNamespace : String := ""
  containerName : String := ""
  container : String := ""
  pawnName : String := ""
  netNSPath : String := ""
  hostNetwork : Bool := false
  hostPID : Bool := false
  environment : List String := []
  podIP : String := ""
  deriving DecidableEq

def PodConfig.effectiveName (cfg : PodConfig) : String :=
  if cfg.containerName = "" then cfg.container else cfg.containerName

def assignment (key value : String) : String :=
  key ++ "=" ++ value

def metaEnv (podUID : String) (cfg : PodConfig) : List String :=
  [ assignment "PERIGEOS_META_UID" podUID,
    assignment "PERIGEOS_META_NAME" cfg.name,
    assignment "PERIGEOS_META_NAMESPACE" cfg.podNamespace,
    assignment "PERIGEOS_META_NODENAME" cfg.pawnName,
    assignment "PERIGEOS_META_IP" cfg.podIP,
    assignment "PERIGEOS_META_CONTAINER" cfg.effectiveName ]

def runProgram (pawnName podUID : String) (cfg : PodConfig) : TransientUnit where
  name := wrapperUnitName pawnName podUID cfg.effectiveName
  environment :=
    cfg.environment
      ++ [assignment "PERIGEOS_PAWN" pawnName, assignment "PERIGEOS_UID" podUID]
      ++ metaEnv podUID cfg

def runMachine (pawnName podUID : String) (cfg : PodConfig) : Except String TransientUnit :=
  if cfg.hostNetwork = false ∧ cfg.netNSPath = "" then
    .error ("NetNSPath is required for machine " ++ podUID)
  else if cfg.hostPID then .ok (runProgram pawnName podUID cfg)
  else
    .ok
      { name := wrapperUnitName pawnName podUID cfg.effectiveName
        environment := metaEnv podUID cfg }

/-- What is listed of a machine. -/
structure PodMetadata where
  uid : String
  name : String
  podNamespace : String
  nodeName : String
  podIP : String
  containerName : String
  startedAt : Option Int64
  state : MachineState
  exitCode : Int32
  deriving DecidableEq

def mapActiveState : String → MachineState
  | "active" | "reloading" => .running
  | "activating" => .creating
  | "failed" => .failed
  | _ => .exited

def readExitCode (status : Option Int32) : Int32 :=
  status.getD 0

def setEnv (env : String → String) (entry : String) : String → String :=
  match cut '=' entry.toList with
  | none => env
  | some (key, value) => Function.update env (ofList key) (ofList value)

def readUnitEnv (entries : Option (List String)) : String → String :=
  (entries.getD []).foldl setEnv fun _ => ""

def readUnitStartTime (usec : Option UInt64) : Option Int64 :=
  match usec with
  | none => none
  | some usec => if usec = 0 then none else some (usec.toInt64 * 1000)

def legacyUID (pawnName unitName : String) : String :=
  ofList
    (trimSuffix ".service".toList (trimPrefix (unitPrefix pawnName).toList unitName.toList))

def metadata (pawnName : String) (unit : SystemdUnit) (answers : Answers) : PodMetadata :=
  let state := mapActiveState unit.activeState
  let exitCode := readExitCode (property answers.execMainStatus unit.execMainStatus)
  let state := if state = .exited ∧ exitCode ≠ 0 then .failed else state
  let env := readUnitEnv (property answers.environment unit.environment)
  let uid := env "PERIGEOS_META_UID"
  let uid := if uid = "" then legacyUID pawnName unit.name else uid
  { uid := uid
    name := env "PERIGEOS_META_NAME"
    podNamespace := env "PERIGEOS_META_NAMESPACE"
    nodeName := env "PERIGEOS_META_NODENAME"
    podIP := env "PERIGEOS_META_IP"
    containerName := env "PERIGEOS_META_CONTAINER"
    startedAt :=
      readUnitStartTime (property answers.activeEnterTimestamp unit.activeEnterTimestamp)
    state := state
    exitCode := exitCode }

def listManagedMachines (b : Brackets) (pawnName : String)
    (units : Except String (List (SystemdUnit × Answers))) : Except String (List PodMetadata) :=
  match units with
  | .error e => .error ("failed to list units: " ++ e)
  | .ok units =>
    .ok ((units.filter fun u => b.glob (listingPattern pawnName).toList u.1.name.toList).map
      fun u => metadata pawnName u.1 u.2)

variable {pawnName : String} {cfg : PodConfig}

theorem mem_listManagedMachines {machines : List PodMetadata}
    (h : listManagedMachines b pawnName (.ok units) = .ok machines) :
  m ∈ machines
    ↔ ∃ u ∈ units, Listed b pawnName u.1.name ∧ metadata pawnName u.1 u.2 = m
  := by
  cases h
  simp only [mem_map, mem_filter, Listed, and_assoc]

theorem setEnv_assignment {key : String} (hk : '=' ∉ key.toList) :
  setEnv env (assignment key value) = update env key value
  := by
  have hcu : cut '=' (assignment key value).toList = some (key.toList, value.toList) := by
    have het : (assignment key value).toList = key.toList ++ '=' :: value.toList := by
      simp [assignment]
    rw [het, cut_append hk]
  rw [setEnv, hcu]
  simp

theorem readUnitEnv_metaEnv (entries : List String) (podUID : String) (cfg : PodConfig) :
  let env := readUnitEnv (some (entries ++ metaEnv podUID cfg))
  env "PERIGEOS_META_UID" = podUID ∧ env "PERIGEOS_META_NAME" = cfg.name
    ∧ env "PERIGEOS_META_NAMESPACE" = cfg.podNamespace
    ∧ env "PERIGEOS_META_NODENAME" = cfg.pawnName ∧ env "PERIGEOS_META_IP" = cfg.podIP
    ∧ env "PERIGEOS_META_CONTAINER" = cfg.effectiveName
  := by
  simp only [readUnitEnv, Option.getD_some, foldl_append, metaEnv, foldl_cons,
    foldl_nil]
  simp (disch := decide) only [setEnv_assignment]
  simp [update]

theorem legacyUID_wrapperUnitName (pawnName podUID containerName : String) :
  legacyUID pawnName (wrapperUnitName pawnName podUID containerName)
    = podUID ++ "-" ++ containerName
  := by
  have hn : (wrapperUnitName pawnName podUID containerName).toList
      = (unitPrefix pawnName).toList
        ++ ((podUID ++ "-" ++ containerName).toList ++ ".service".toList) := by
    simp [unitPrefix]
  rw [legacyUID, hn, trimPrefix_append, trimSuffix_append, ofList_toList]

structure Identifies (podUID : String) (cfg : PodConfig) (m : PodMetadata) : Prop where
  uid : m.uid = podUID
  name : m.name = cfg.name
  podNamespace : m.podNamespace = cfg.podNamespace
  podIP : m.podIP = cfg.podIP
  containerName : m.containerName = cfg.effectiveName

variable {unit : TransientUnit}

theorem environment_of_runMachine (h : runMachine pawnName podUID cfg = .ok unit) :
  unit.name = wrapperUnitName pawnName podUID cfg.effectiveName
    ∧ ∃ entries, unit.environment = entries ++ metaEnv podUID cfg
  := by
  rw [runMachine] at h
  split at h
  · cases h
  split at h
  · cases h
    exact ⟨rfl, _, rfl⟩
  · cases h
    exact ⟨rfl, [], rfl⟩

theorem readUnitEnv_of_runMachine (h : runMachine pawnName podUID cfg = .ok unit)
    (han : answered = true) :
  ∃ entries, readUnitEnv (property answered unit.environment)
    = readUnitEnv (some (entries ++ metaEnv podUID cfg))
  := by
  obtain ⟨-, entries, hen⟩ := environment_of_runMachine h
  use entries
  rw [han, hen]
  rfl

theorem uid_of_runMachine {unit : SystemdUnit}
    (h : runMachine pawnName podUID cfg = .ok unit.toTransientUnit) {answers : Answers}
    (ha : answers.environment = true) :
  (metadata pawnName unit answers).uid
    = if podUID = "" then podUID ++ "-" ++ cfg.effectiveName else podUID
  := by
  obtain ⟨hn, -⟩ := environment_of_runMachine h
  obtain ⟨entries, hr⟩ := readUnitEnv_of_runMachine h ha
  obtain ⟨hui, -⟩ := readUnitEnv_metaEnv entries podUID cfg
  simp only [metadata, hr, hui, hn, legacyUID_wrapperUnitName]

/-- What a container is started with is read back from its unit, for every environment of the
container, exactly if the UID is not empty. -/
theorem identifies_iff {pawnName podUID : String} {cfg : PodConfig} {unit : SystemdUnit}
    (h : runMachine pawnName podUID cfg = .ok unit.toTransientUnit) {answers : Answers}
    (hanswers : answers.environment = true) :
  Identifies podUID cfg (metadata pawnName unit answers) ↔ podUID ≠ ""
  := by
  obtain ⟨entries, hr⟩ := readUnitEnv_of_runMachine h hanswers
  obtain ⟨-, hp, hna, -, hip, hco⟩ := readUnitEnv_metaEnv entries podUID cfg
  have hui := uid_of_runMachine h hanswers
  constructor
  · rintro hi rfl
    rw [hi.uid, if_pos rfl] at hui
    simp at hui
  · intro hem
    constructor
    · rw [hui, if_neg hem]
    · simp only [metadata, hr, hp]
    · simp only [metadata, hr, hna]
    · simp only [metadata, hr, hip]
    · simp only [metadata, hr, hco]

def spoofingConfig : PodConfig where
  name := "web-0"
  podNamespace := "default"
  container := "web"
  hostNetwork := true
  hostPID := true
  environment := ["PERIGEOS_META_UID=other", "PERIGEOS_META_CONTAINER"]
  podIP := "10.0.0.7"

def killedUnit (podUID : String) : SystemdUnit where
  toTransientUnit := runProgram "a" podUID spoofingConfig
  activeState := "inactive"
  execMainStatus := 137
  activeEnterTimestamp := 1

theorem identifies_spoofing :
  Identifies "123e4567-e89b-12d3-a456-426614174000" spoofingConfig
    (metadata "a" (killedUnit "123e4567-e89b-12d3-a456-426614174000") {})
  := (identifies_iff rfl rfl).mpr (by decide)

theorem not_identifies_empty :
  runMachine "a" "" spoofingConfig = .ok (killedUnit "").toTransientUnit
    ∧ ¬ Identifies "" spoofingConfig (metadata "a" (killedUnit "") {})
  := by
  have hst : runMachine "a" "" spoofingConfig = .ok (killedUnit "").toTransientUnit := rfl
  refine ⟨hst, ?_⟩
  intro h
  have hui := uid_of_runMachine hst (rfl : ({} : Answers).environment = true)
  rw [h.uid, if_pos rfl] at hui
  exact absurd hui (by decide)

/-- What is listed is right about the pod and the container, and about a failure. -/
structure Truthful (uid containerName : String) (unit : SystemdUnit) (m : PodMetadata) : Prop where
  uid : m.uid = uid
  containerName : m.containerName = containerName
  failed : unit.execMainStatus ≠ 0 → m.state ≠ .exited ∧ m.exitCode ≠ 0

def Tagged (uid containerName : String) (unit : SystemdUnit) : Prop :=
  readUnitEnv (some unit.environment) "PERIGEOS_META_UID" = uid
    ∧ readUnitEnv (some unit.environment) "PERIGEOS_META_CONTAINER" = containerName

theorem failed_iff (pawnName : String) (unit : SystemdUnit) (answers : Answers) :
  (unit.execMainStatus ≠ 0 → (metadata pawnName unit answers).state ≠ .exited
      ∧ (metadata pawnName unit answers).exitCode ≠ 0)
    ↔ unit.execMainStatus = 0 ∨ answers.execMainStatus
  := by
  constructor
  · intro h
    by_contra hun
    rw [not_or, Bool.not_eq_true] at hun
    apply (h hun.1).2
    simp only [metadata, hun.2]
    rfl
  · rintro hr hs
    have hr := hr.resolve_left hs
    have hcd : (metadata pawnName unit answers).exitCode = unit.execMainStatus := by
      simp only [metadata, hr]
      rfl
    refine ⟨?_, hcd ▸ hs⟩
    change (if mapActiveState unit.activeState = .exited
      ∧ (metadata pawnName unit answers).exitCode ≠ 0 then MachineState.failed else _) ≠ .exited
    rw [hcd]
    split
    · simp
    next hex =>
      intro hsa
      exact hex ⟨hsa, hs⟩

theorem uid_metadata_iff {uid : String} {unit : SystemdUnit}
    (hn : unit.name = wrapperUnitName pawnName uid containerName) (hui : uid ≠ "") :
  (metadata pawnName unit answers).uid = uid
    ↔ readUnitEnv (property answers.environment unit.environment) "PERIGEOS_META_UID" = uid
  := by
  have hm : (metadata pawnName unit answers).uid
      = if readUnitEnv (property answers.environment unit.environment) "PERIGEOS_META_UID" = ""
        then uid ++ "-" ++ containerName
        else readUnitEnv (property answers.environment unit.environment) "PERIGEOS_META_UID" := by
    rw [← legacyUID_wrapperUnitName pawnName, ← hn]
    rfl
  rw [hm]
  split
  next hem =>
    rw [hem]
    constructor
    · intro hle
      have hln := congrArg String.length hle
      have hh : "-".length = 1 := rfl
      simp only [String.length_append] at hln
      omega
    · intro h
      exact absurd h.symm hui
  · rfl

/-- The entry of a unit is right exactly if its environment is read and tells whose container it
is, and the exit code is read or is 0. -/
theorem truthful_iff {pawnName uid containerName : String} {unit : SystemdUnit}
    (hname : unit.name = wrapperUnitName pawnName uid containerName) (huid : uid.length = 36)
    (hcontainer : containerName ≠ "") (answers : Answers) :
  Truthful uid containerName unit (metadata pawnName unit answers)
    ↔ (answers.environment = true ∧ Tagged uid containerName unit)
      ∧ (unit.execMainStatus = 0 ∨ answers.execMainStatus = true)
  := by
  have hno : uid ≠ "" := by
    rintro rfl
    cases huid
  have hl : (metadata pawnName unit answers).containerName
      = readUnitEnv (property answers.environment unit.environment) "PERIGEOS_META_CONTAINER" :=
    rfl
  rw [← failed_iff pawnName unit answers]
  constructor
  · rintro ⟨hu, hc, hf⟩
    refine ⟨?_, hf⟩
    rw [uid_metadata_iff hname hno] at hu
    rw [hl] at hc
    cases hr : answers.environment with
    | false =>
      rw [hr] at hc
      exact absurd hc.symm hcontainer
    | true =>
      rw [hr] at hu hc
      exact ⟨rfl, hu, hc⟩
  · rintro ⟨⟨hr, hu, hc⟩, hf⟩
    refine ⟨?_, ?_, hf⟩
    · rw [uid_metadata_iff hname hno, hr]
      exact hu
    · rw [hl, hr]
      exact hc

theorem truthful_killed :
  Truthful "123e4567-e89b-12d3-a456-426614174000" "web"
    (killedUnit "123e4567-e89b-12d3-a456-426614174000")
    (metadata "a" (killedUnit "123e4567-e89b-12d3-a456-426614174000") {})
  := by
  have hr := readUnitEnv_metaEnv
    (spoofingConfig.environment ++ [assignment "PERIGEOS_PAWN" "a",
      assignment "PERIGEOS_UID" "123e4567-e89b-12d3-a456-426614174000"])
    "123e4567-e89b-12d3-a456-426614174000" spoofingConfig
  apply (truthful_iff rfl (by decide) (by decide) {}).mpr
  exact ⟨⟨rfl, hr.1, hr.2.2.2.2.2⟩, .inr rfl⟩

theorem untruthful_killed :
  Listed noBrackets "a" (killedUnit "123e4567-e89b-12d3-a456-426614174000").name ∧
  let m := metadata "a" (killedUnit "123e4567-e89b-12d3-a456-426614174000") ⟨false, false, true⟩
  m.uid = "123e4567-e89b-12d3-a456-426614174000-web" ∧ m.containerName = ""
    ∧ m.state = .exited ∧ m.exitCode = 0
  := by
  constructor
  · rw [Listed]
    decide
  · exact ⟨legacyUID_wrapperUnitName "a" "123e4567-e89b-12d3-a456-426614174000" "web", rfl, rfl,
      rfl⟩

end Periapsis.Systemd
