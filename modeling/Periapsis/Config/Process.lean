import Mathlib.Data.List.AList
import Mathlib.Data.String.Basic

/-!
# The configuration

A configuration has pawns and sets of pawns under their names.
-/

namespace Periapsis.Config

open List

/-- The taints of a pawn: the key, and the value and the effect. -/
abbrev Taints := AList fun _ : String => String

/-- A pawn as it is configured, with zeros and empty texts for what is not. -/
structure RawPawnConfig where
  port : Int := 0
  labels : List (String × String) := []
  taints : Taints := ∅
  nodeIP : String := ""
  createConcurrency : Int := 0
  cpu : String := ""
  memory : String := ""
  cpuWeight : UInt64 := 0
  ioReadBandwidthMax : String := ""
  ioWriteBandwidthMax : String := ""
  deriving DecidableEq

structure RawPawnSetConfig extends RawPawnConfig where
  count : Int := 0
  deriving DecidableEq

structure RawCNIConfig where
  binDir : String := ""
  confDir : String := ""
  debug : Bool := false
  deriving DecidableEq

structure RawGlobalConfig where
  perigeosPort : Int := 0
  defaultCPU : String := ""
  defaultMemory : String := ""
  serverCAPath : String := ""
  serverCAKeyPath : String := ""
  nodeIP : String := ""
  primary : Bool := false
  cni : Option RawCNIConfig := none
  deriving DecidableEq

abbrev RawPawns := AList fun _ : String => RawPawnConfig

/-- The configuration as it is written. -/
structure RawPerigeosConfig where
  global : RawGlobalConfig := {}
  pawns : RawPawns := ∅
  pawnSets : AList fun _ : String => RawPawnSetConfig := ∅

/-- A pawn as it is run. -/
structure PawnConfig (Q T : Type) where
  name : String
  port : Int
  nodeIP : String
  baseDir : String
  isPrimary : Bool
  labels : List (String × String)
  taints : T
  createConcurrency : Int
  cpu : Q
  memory : Q
  cpuWeight : UInt64
  ioReadBandwidthMax : Option Q
  ioWriteBandwidthMax : Option Q

structure CNIConfig where
  binDir : String
  confDir : String
  debug : Bool

structure GlobalConfig (Q : Type) where
  perigeosPort : Int
  defaultCPU : Q
  defaultMemory : Q
  baseDir : String
  serverCAPath : String
  serverCAKeyPath : String
  primary : Bool
  cni : Option CNIConfig

structure PerigeosConfig (Q T : Type) where
  global : GlobalConfig Q
  pawns : List (PawnConfig Q T)

/-- What reads the quantities and the taints in a configuration. -/
structure Parsers (Q T : Type) where
  parseQuantity : String → Except String Q
  milliValue : Q → Int64
  parseTaints : List String → Except String T

/-- The orders in which the walks over the taints of the pawns come to them. -/
structure TaintsWalk where
  order : String → Taints → List (Σ _ : String, String) := fun _ taints => taints.entries
  perm : ∀ name taints, (order name taints).Perm taints.entries := by
    intro name taints
    rfl

/-- What a run of `Process` finds on the machine, and its walks over the taints. -/
structure Host where
  hostName : String := ""
  agentSocket : Bool := false
  taintsWalk : TaintsWalk := {}

/-- Parsers that accept everything. -/
def anyParsers : Parsers Unit (List String) where
  parseQuantity _ := .ok ()
  milliValue _ := 0
  parseTaints := .ok

variable {Q T : Type} (parsers : Parsers Q T)

/-- The digits of a percentage. -/
def percentDigits (c : String) : Option (List Char) :=
  match c.toList.reverse with
  | '%' :: digits =>
    if !digits.isEmpty && digits.all Char.isDigit then some digits.reverse else none
  | _ => none

def digitsValue (base : Nat) (digits : List Char) : Option Nat :=
  digits.foldl
    (fun value d =>
      let digit := d.toNat - '0'.toNat
      value.bind fun n => if digit < base then some (n * base + digit) else none)
    (some 0)

def parseInt (digits : List Char) : Option Int64 :=
  let value :=
    match digits with
    | '0' :: digits => digitsValue 8 digits
    | digits => digitsValue 10 digits
  value.bind fun n => if n < 2 ^ 63 then some (Int64.ofNat n) else none

def parseCPU (c : String) (defaultCPU : Q) : Except String Q :=
  if c = "" then .ok defaultCPU
  else
    match parsers.parseQuantity c with
    | .ok q => .ok q
    | .error _ =>
      match percentDigits c with
      | none => .error "invalid CPU format"
      | some number =>
        match parseInt number with
        | none => .error "invalid percentage value for CPU"
        | some percent => parsers.parseQuantity (toString (percent * 10) ++ "m")

def parseOptional (quantity : String) : Except String (Option Q) :=
  if quantity = "" then .ok none else (parsers.parseQuantity quantity).map some

def minCPUShares : Int64 := 2

def maxCPUShares : Int64 := 262144

def milliCPUToCPUWeight (milliCPU : Int64) : UInt64 :=
  if milliCPU ≤ 0 then 0
  else
    let shares := min (max (milliCPU * 1024 / 1000) minCPUShares) maxCPUShares
    (1 + ((shares - minCPUShares) * 9999) / (maxCPUShares - minCPUShares)).toUInt64

def deriveCPUWeight (cpu : Q) (configuredWeight : UInt64) : UInt64 :=
  if 0 < configuredWeight then configuredWeight
  else milliCPUToCPUWeight (parsers.milliValue cpu)

def orDefault (text default : String) : String :=
  if text = "" then default else text

def defaultCAPath : String := "/var/lib/rancher/k3s/server/tls/server-ca.crt"

def defaultCAKeyPath : String := "/var/lib/rancher/k3s/server/tls/server-ca.key"

def buildCNIConfig (host : Host) (raw : Option RawCNIConfig) : Option CNIConfig :=
  match raw, host.agentSocket with
  | none, false => none
  | none, true => some (build {})
  | some raw, _ => some (build raw)
where
  build (raw : RawCNIConfig) : CNIConfig :=
    { binDir := orDefault raw.binDir "/opt/cni/bin"
      confDir := orDefault raw.confDir "/etc/cni/net.d/constellation"
      debug := raw.debug }

def generatedName (setName : String) (width i : Nat) : String :=
  setName ++ "-" ++ "".pushn '0' (width - (toString i).length) ++ toString i

/-- Add the pawns of a set. -/
def expandPawnSet (setName : String) (setCfg : RawPawnSetConfig) (pawns : RawPawns) :
    Except String RawPawns :=
  let width := (toString (setCfg.count.toNat - 1)).length
  (range setCfg.count.toNat).foldlM
    (fun pawns i =>
      let name := generatedName setName width i
      if name ∈ pawns then
        .error ("pawn set generation collision: " ++ name ++ " is already defined manually")
      else .ok (pawns.insert name { setCfg.toRawPawnConfig with port := 0 }))
    pawns

def expandPawnSets (raw : RawPerigeosConfig) : Except String RawPawns :=
  raw.pawnSets.entries.foldlM (fun pawns set => expandPawnSet set.1 set.2 pawns) raw.pawns

def addPrimary (global : RawGlobalConfig) (hostName : String) (pawns : RawPawns) :
    Except String RawPawns :=
  if global.primary = true ∧ hostName ≠ "" then
    if hostName ∈ pawns then
      .error ("primary pawn name " ++ hostName.quote ++ " conflicts with an existing pawn")
    else
      .ok (pawns.insert hostName
        { cpu := global.defaultCPU
          memory := global.defaultMemory
          nodeIP := global.nodeIP
          port := global.perigeosPort })
  else .ok pawns

/-- The configured ports, if all are different. -/
def reservePorts (pawns : RawPawns) : Except String (List Int) :=
  pawns.entries.foldlM
    (fun usedPorts pawn =>
      if pawn.2.port = 0 then .ok usedPorts
      else if pawn.2.port ∈ usedPorts then
        .error ("port collision in config: port " ++ toString pawn.2.port
          ++ " is specified more than once")
      else .ok (pawn.2.port :: usedPorts))
    []

def succPort (port : Int) : Int :=
  (port + 1).bmod 18446744073709551616

/-- The first free port, after so many tries at most. -/
def nextFreePort (usedPorts : List Int) : Nat → Int → Int
  | 0, nextPort => nextPort
  | n + 1, nextPort =>
    if nextPort ∈ usedPorts then nextFreePort usedPorts n (succPort nextPort) else nextPort

def assignPort (port : Int) (usedPorts : List Int) (nextPort : Int) : Int × List Int × Int :=
  if port = 0 then
    let assignedPort := nextFreePort usedPorts usedPorts.length nextPort
    (assignedPort, assignedPort :: usedPorts, succPort assignedPort)
  else (port, usedPorts, nextPort)

def wrap {α : Type} (message : String) (result : Except String α) : Except String α :=
  result.mapError (message ++ ": " ++ ·)

def processPawn (global : GlobalConfig Q) (host : Host) (name : String) (pawn : RawPawnConfig)
    (port : Int) : Except String (PawnConfig Q T) := do
  let cpu ← wrap ("failed to parse cpu for pawn " ++ name)
    (parseCPU parsers pawn.cpu global.defaultCPU)
  let memory ← wrap ("failed to parse memory pawn " ++ name)
    (if pawn.memory = "" then .ok global.defaultMemory else parsers.parseQuantity pawn.memory)
  let taints ← wrap ("failed to parse taints for pawn " ++ name)
    (parsers.parseTaints
      ((host.taintsWalk.order name pawn.taints).map fun taint => taint.1 ++ "=" ++ taint.2))
  let ioRead ← wrap ("failed to parse io_read_bandwidth_max for pawn " ++ name)
    (parseOptional parsers pawn.ioReadBandwidthMax)
  let ioWrite ← wrap ("failed to parse io_write_bandwidth_max for pawn " ++ name)
    (parseOptional parsers pawn.ioWriteBandwidthMax)
  return {
    name := name
    port := port
    nodeIP := pawn.nodeIP
    baseDir := global.baseDir
    isPrimary := global.primary && name = host.hostName
    labels := pawn.labels
    taints := taints
    createConcurrency := pawn.createConcurrency
    cpu := cpu
    memory := memory
    cpuWeight := deriveCPUWeight parsers cpu pawn.cpuWeight
    ioReadBandwidthMax := ioRead
    ioWriteBandwidthMax := ioWrite }

/-- The loop over the pawns. -/
def processPawns (global : GlobalConfig Q) (host : Host) :
    List (String × RawPawnConfig) → List Int → Int → Except String (List (PawnConfig Q T))
  | [], _, _ => .ok []
  | (name, pawn) :: pawns, usedPorts, nextPort => do
    let (port, usedPorts, nextPort) := assignPort pawn.port usedPorts nextPort
    let first ← processPawn parsers global host name pawn port
    let rest ← processPawns global host pawns usedPorts nextPort
    return first :: rest

/-- The pawns in the order of their names. -/
def sortedPawns (pawns : RawPawns) : List (String × RawPawnConfig) :=
  (pawns.keys.mergeSort fun a b => a ≤ b).map fun name => (name, (pawns.lookup name).getD {})

def processGlobal (host : Host) (baseDir : String) (raw : RawGlobalConfig) :
    Except String (GlobalConfig Q) := do
  let baseCPU ← parsers.parseQuantity "100m"
  let defaultCPU ← wrap "failed to parse DefaultCPU" (parseCPU parsers raw.defaultCPU baseCPU)
  let defaultMemory ← wrap "failed to parse DefaultMemory"
    (parsers.parseQuantity raw.defaultMemory)
  return {
    perigeosPort := raw.perigeosPort
    defaultCPU := defaultCPU
    defaultMemory := defaultMemory
    baseDir := baseDir
    serverCAPath := orDefault raw.serverCAPath defaultCAPath
    serverCAKeyPath := orDefault raw.serverCAKeyPath defaultCAKeyPath
    primary := raw.primary
    cni := buildCNIConfig host raw.cni }

/-- `Process`, which makes the configuration that is used of the one that is written. -/
def process (host : Host) (baseDir : String) (raw : RawPerigeosConfig) :
    Except String (PerigeosConfig Q T) := do
  let global ← processGlobal parsers host baseDir raw.global
  let pawns ← expandPawnSets raw
  let pawns ← addPrimary raw.global host.hostName pawns
  let usedPorts ← reservePorts pawns
  let processed ← processPawns parsers global host (sortedPawns pawns) usedPorts
    (succPort raw.global.perigeosPort)
  return { global := global, pawns := processed }

variable {parsers}

theorem bind_eq_ok {α β : Type} {x : Except String α} {f : α → Except String β} {r : β} :
  x >>= f = .ok r ↔ ∃ a, x = .ok a ∧ f a = .ok r
  := by
  cases x with
  | _ => simp [bind, Except.bind]

variable {global : GlobalConfig Q}

theorem name_of_processPawn {host : Host} {name : String} {raw : RawPawnConfig}
    {pawn : PawnConfig Q T} (h : processPawn parsers global host name raw port = .ok pawn) :
  pawn.name = name
  := by
  simp only [processPawn, bind_eq_ok] at h
  obtain ⟨_, -, _, -, _, -, _, -, _, -, h⟩ := h
  cases h
  rfl

variable {raws : List (String × RawPawnConfig)}

theorem names_of_processPawns {host : Host} {usedPorts : List Int} {pawns : List (PawnConfig Q T)}
    (h : processPawns parsers global host raws usedPorts nextPort = .ok pawns) :
  pawns.map PawnConfig.name = raws.map Prod.fst
  := by
  induction raws generalizing usedPorts nextPort pawns with
  | nil =>
    cases h
    rfl
  | cons raw raws ih =>
    simp only [processPawns, bind_eq_ok] at h
    obtain ⟨first, hf, rest, hre, h⟩ := h
    cases h
    rw [map_cons, map_cons, name_of_processPawn hf, ih hre]

variable {pawns : RawPawns}

theorem map_fst_sortedPawns :
  (sortedPawns pawns).map Prod.fst = pawns.keys.mergeSort fun a b => a ≤ b
  := by
  rw [sortedPawns, map_map]
  apply map_id

theorem nodup_of_process {host : Host} {baseDir : String} {config : PerigeosConfig Q T}
    (h : process parsers host baseDir raw = .ok config) :
  (config.pawns.map PawnConfig.name).Nodup
  := by
  simp only [process, bind_eq_ok] at h
  obtain ⟨global, -, _, -, pawns, -, usedPorts, -, processed, hpo, h⟩ := h
  cases h
  rw [names_of_processPawns hpo, map_fst_sortedPawns]
  apply (mergeSort_perm _ _).nodup_iff.2 pawns.keys_nodup

def namedPawns (defaultMemory : String) (names : List String) (h : names.Nodup) :
    RawPerigeosConfig where
  global := { defaultMemory := defaultMemory }
  pawns :=
    { entries := names.map fun name => ⟨name, {}⟩
      nodupKeys := by
        rw [List.NodupKeys, keys, map_map]
        exact (map_id names).symm ▸ h }

structure Reads (parsers : Parsers Q T) (defaultMemory : String) : Prop where
  cpu : ∃ q, parsers.parseQuantity "100m" = .ok q
  memory : ∃ q, parsers.parseQuantity defaultMemory = .ok q
  taints : ∃ taints, parsers.parseTaints [] = .ok taints

variable {defaultMemory : String}

theorem Reads.processPawns (hr : Reads parsers defaultMemory) (global : GlobalConfig Q)
    (host : Host) (hra : ∀ raw ∈ raws, raw.2 = {}) (usedPorts : List Int) (nextPort : Int) :
  ∃ pawns, processPawns parsers global host raws usedPorts nextPort = .ok pawns
  := by
  induction raws generalizing usedPorts nextPort with
  | nil => exact ⟨[], rfl⟩
  | cons raw raws ih =>
    obtain ⟨name, raw⟩ := raw
    obtain rfl : raw = {} := hra _ mem_cons_self
    obtain ⟨taints, ht⟩ := hr.taints
    have hw : host.taintsWalk.order name ∅ = [] := (host.taintsWalk.perm name ∅).eq_nil
    simp only [Config.processPawns, bind_eq_ok]
    have hp (port : Int) :
        ∃ pawn, processPawn parsers global host name {} port = .ok pawn := by
      simp [processPawn, wrap, parseCPU, parseOptional, hw, ht, Except.mapError, bind,
        Except.bind, pure, Except.pure]
    obtain ⟨first, hf⟩ := hp _
    obtain ⟨rest, hre⟩ := ih (fun raw hrw => hra raw (mem_cons_of_mem _ hrw)) _ _
    exact ⟨first :: rest, first, hf, rest, hre, rfl⟩

theorem reservePorts_eq_nil (h : ∀ pawn ∈ pawns.entries, pawn.2.port = 0) :
  reservePorts pawns = .ok []
  := by
  rw [reservePorts]
  generalize pawns.entries = entries at h
  induction entries with
  | nil => rfl
  | cons pawn entries ih =>
    rw [foldlM_cons, if_pos (h pawn mem_cons_self)]
    apply ih
    intro pawn hp
    apply h pawn (mem_cons_of_mem _ hp)

theorem Reads.process (hr : Reads parsers defaultMemory) (host : Host) (baseDir : String)
    (names : List String) (hn : names.Nodup) :
  ∃ config, process parsers host baseDir (namedPawns defaultMemory names hn) = .ok config
    ∧ ∀ name, name ∈ config.pawns.map PawnConfig.name ↔ name ∈ names
  := by
  obtain ⟨cpu, hc⟩ := hr.cpu
  obtain ⟨memory, hm⟩ := hr.memory
  set raw := namedPawns defaultMemory names hn with hrw
  have hen : ∀ pawn ∈ raw.pawns.entries, pawn.2 = {} := by
    simp [hrw, namedPawns]
  have hso : ∀ pawn ∈ sortedPawns raw.pawns, pawn.2 = {} := by
    intro pawn hp
    obtain ⟨name, -, rfl⟩ := mem_map.1 hp
    cases hl : raw.pawns.lookup name with
    | none => rfl
    | some value => exact hen _ (AList.mem_lookup_iff.1 hl)
  have hpt : reservePorts raw.pawns = .ok [] := by
    apply reservePorts_eq_nil
    intro pawn hp
    rw [hen pawn hp]
  have hg : ∃ global, processGlobal parsers host baseDir raw.global = .ok global := by
    simp [hrw, namedPawns, processGlobal, wrap, parseCPU, hc, hm, Except.mapError, bind,
      Except.bind, pure, Except.pure]
  obtain ⟨global, hg⟩ := hg
  obtain ⟨pawns, hpw⟩ :=
    hr.processPawns global host hso [] (succPort raw.global.perigeosPort)
  have hme (name : String) : name ∈ pawns.map PawnConfig.name ↔ name ∈ names := by
    rw [names_of_processPawns hpw, map_fst_sortedPawns, mem_mergeSort]
    simp [hrw, namedPawns, AList.keys, keys]
  refine ⟨⟨global, pawns⟩, ?_, hme⟩
  simp only [Config.process, bind_eq_ok]
  exact ⟨global, hg, raw.pawns, rfl, raw.pawns, rfl, [], hpt, pawns, hpw, rfl⟩

/-- Some configuration that is accepted has pawns of both names. -/
def AcceptedTogether (parsers : Parsers Q T) (p q : String) : Prop :=
  ∃ host baseDir raw config, process parsers host baseDir raw = .ok config
    ∧ [p, q].Subperm (config.pawns.map PawnConfig.name)

theorem acceptedTogether_iff (hr : Reads parsers defaultMemory) (p q : String) :
  AcceptedTogether parsers p q ↔ p ≠ q
  := by
  have hpa : [p, q].Nodup ↔ p ≠ q := by simp
  constructor
  · rintro ⟨host, baseDir, raw, config, hpr, l, hpe, hs⟩
    apply hpa.1
    apply hpe.nodup_iff.1
    apply hs.nodup (nodup_of_process hpr)
  · intro h
    obtain ⟨config, hpr, hn⟩ := hr.process {} "" [p, q] (hpa.2 h)
    refine ⟨_, _, _, config, hpr, ?_⟩
    apply subperm_of_subset (hpa.2 h)
    intro name hna
    apply (hn name).2 hna

end Periapsis.Config
