import Mathlib.Data.List.Sort
import Mathlib.Data.List.Perm.Subperm
import Periapsis.Config.Process

/-!
# Names and ports of the pawns

What `process` makes of the names and the ports of the pawns.
-/

namespace Periapsis.Config

open List AList Except Int Nat

variable {Q T : Type} {parsers : Parsers Q T} {usedPorts : List Int} {nextPort : Int}

/-- The numbers of a Go `int`. -/
def InInt64 (n : Int) : Prop :=
  -9223372036854775808 ≤ n ∧ n < 9223372036854775808

def portAfter (port : Int) (i : Nat) : Int :=
  (port + i).bmod 18446744073709551616

variable {port : Int} {i : Nat}

theorem succPort_portAfter :
  succPort (portAfter port i) = portAfter port (i + 1)
  := by
  rw [succPort, portAfter, portAfter, bmod_add_bmod]
  congr 1
  omega

theorem portAfter_inj (hi : i < 18446744073709551616) (hj : j < 18446744073709551616)
    (h : portAfter port i = portAfter port j) :
  i = j
  := by
  rw [portAfter, portAfter, bmod_def, bmod_def] at h
  split_ifs at h
  all_goals omega

theorem nextFreePort_eq (usedPorts : List Int) (n i : Nat) (port : Int) :
  ∃ k, nextFreePort usedPorts n (portAfter port i) = portAfter port (i + k) ∧ k ≤ n
    ∧ (∀ j < k, portAfter port (i + j) ∈ usedPorts)
    ∧ (k < n → portAfter port (i + k) ∉ usedPorts)
  := by
  induction n generalizing i with
  | zero => exact ⟨0, rfl, le_refl _, nofun, nofun⟩
  | succ n ih =>
    by_cases hu : portAfter port i ∈ usedPorts
    · obtain ⟨k, hk, hle, hb, hfr⟩ := ih (i + 1)
      have hsh (j : Nat) : i + 1 + j = i + (j + 1) := by omega
      rw [hsh] at hk hfr
      refine ⟨k + 1, ?_, by omega, ?_, fun h => hfr (by omega)⟩
      · rw [nextFreePort, if_pos hu, succPort_portAfter, hk]
      · intro j hj
        cases j with
        | zero => exact hu
        | succ j => exact hsh j ▸ hb j (by omega)
    · exact ⟨0, if_neg hu, by omega, nofun, fun _ => hu⟩

theorem portAfter_eq (hlw : -9223372036854775808 ≤ port) (hh : port + i < 9223372036854775808) :
  portAfter port i = port + i
  := by
  rw [portAfter, bmod_def]
  split_ifs
  all_goals omega

theorem le_length_of_used (port : Nat → Int) (hin : ∀ i < n, ∀ j < n, port i = port j → i = j)
    (hu : ∀ i < n, port i ∈ usedPorts) :
  n ≤ usedPorts.length
  := by
  have hn : ((List.range n).map port).Nodup :=
    List.Nodup.map_on (by simpa using hin) nodup_range
  have hsb : ((List.range n).map port).Subset usedPorts := by
    intro p hp
    obtain ⟨i, hi, rfl⟩ := mem_map.1 hp
    exact hu i (mem_range.1 hi)
  simpa using (hn.subperm hsb).length_le

theorem nextFreePort_not_mem (hl : usedPorts.length < 18446744073709551615)
    (hpo : InInt64 nextPort) :
  nextFreePort usedPorts usedPorts.length nextPort ∉ usedPorts
  := by
  obtain ⟨k, hk, hle, hb, hfr⟩ := nextFreePort_eq usedPorts usedPorts.length 0 nextPort
  rw [portAfter_eq hpo.1 (by have := hpo.2; omega), Int.natCast_zero, Int.add_zero] at hk
  simp only [zero_add] at hk hb hfr
  rw [hk]
  by_cases hlt : k < usedPorts.length
  · exact hfr hlt
  · intro hm
    -- one port more than there are in use
    have := le_length_of_used (portAfter nextPort) (n := k + 1)
      (fun i hi j hj h => portAfter_inj (by omega) (by omega) h) fun i hi => by
        obtain rfl | hlt : i = k ∨ i < k := by omega
        · exact hm
        · exact hb i hlt
    omega

variable {base : Int}

theorem nextFreePort_above (hba : InInt64 base) (hnx : base < nextPort)
    (hbe : ∀ p, base < p → p < nextPort → p ∈ usedPorts)
    (hro : base + usedPorts.length + 1 < 9223372036854775808) :
  base < nextFreePort usedPorts usedPorts.length nextPort
    ∧ nextFreePort usedPorts usedPorts.length nextPort ≤ base + usedPorts.length + 1
    ∧ ∀ p, base < p → p < nextFreePort usedPorts usedPorts.length nextPort → p ∈ usedPorts
  := by
  have hlw := hba.1
  have hco (p : Int) (h : ∀ q, base < q → q < p → q ∈ usedPorts) :
      p ≤ base + usedPorts.length + 1 := by
    have := le_length_of_used (fun i => base + 1 + i) (n := (p - base - 1).toNat)
      (fun i hi j hj h => by omega) fun i hi => h _ (by omega) (by omega)
    omega
  have hnt := hco nextPort hbe
  obtain ⟨k, hk, hle, hb, -⟩ := nextFreePort_eq usedPorts usedPorts.length 0 nextPort
  rw [portAfter_eq (by omega) (by omega), Int.natCast_zero, Int.add_zero] at hk
  simp only [zero_add] at hk hb
  have hus (q : Int) (hq : base < q) (hlt : q < nextPort + k)
      (hqh : q < 9223372036854775808) : q ∈ usedPorts := by
    by_cases hqn : q < nextPort
    · exact hbe q hq hqn
    · have := hb (q - nextPort).toNat (by omega)
      rwa [portAfter_eq (by omega) (by omega), show nextPort + (q - nextPort).toNat = q by omega]
        at this
  have hkl : nextPort + k ≤ base + usedPorts.length + 1 := by
    by_contra hla
    have := hco (base + usedPorts.length + 2) fun q hq hlt =>
      hus q hq (by omega) (by omega)
    omega
  rw [hk, portAfter_eq (by omega) (by omega)]
  exact ⟨by omega, hkl, fun q hq hlt => hus q hq hlt (by omega)⟩

/-! ### The loop over the pawns -/

theorem port_of_processPawn (h : processPawn parsers global host name raw port = .ok pawn) :
  pawn.port = port
  := by
  simp only [processPawn, bind_eq_ok] at h
  obtain ⟨_, -, _, -, _, -, _, -, _, -, h⟩ := h
  cases h
  rfl

def givenPorts (raws : List (String × RawPawnConfig)) : List Int :=
  (raws.map (·.2.port)).filter (· ≠ 0)

variable {global : GlobalConfig Q} {host : Host} {raws : List (String × RawPawnConfig)}

theorem inInt64_succPort (port : Int) :
  InInt64 (succPort port)
  := by
  unfold InInt64 succPort
  rw [bmod_def]
  split_ifs
  all_goals omega

section Pawns

variable {raw : String × RawPawnConfig} {pawns : List (PawnConfig Q T)}

theorem processPawns_cons
    (h : processPawns parsers global host (raw :: raws) usedPorts nextPort = .ok pawns) :
  ∃ first rest, pawns = first :: rest ∧ first.name = raw.1
    ∧ ((raw.2.port = 0 ∧ first.port = nextFreePort usedPorts usedPorts.length nextPort
        ∧ processPawns parsers global host raws (first.port :: usedPorts) (succPort first.port)
          = .ok rest)
      ∨ (raw.2.port ≠ 0 ∧ first.port = raw.2.port
        ∧ processPawns parsers global host raws usedPorts nextPort = .ok rest))
  := by
  simp only [processPawns, bind_eq_ok] at h
  obtain ⟨first, hfi, rest, hr, h⟩ := h
  cases h
  have hpo := port_of_processPawn hfi
  refine ⟨first, rest, rfl, name_of_processPawn hfi, ?_⟩
  by_cases ha : raw.2.port = 0
  · simp only [assignPort, if_pos ha] at hpo hr
    exact .inl ⟨ha, hpo, hpo ▸ hr⟩
  · simp only [assignPort, if_neg ha] at hpo hr
    exact .inr ⟨ha, hpo, hr⟩

theorem mem_givenPorts (hrw : raw ∈ raws) (hpo : raw.2.port ≠ 0) :
  raw.2.port ∈ givenPorts raws
  := mem_filter.2 ⟨mem_map_of_mem hrw, decide_eq_true hpo⟩

theorem ports_of_processPawns (hg : (givenPorts raws).Nodup)
    (hu : ∀ p ∈ givenPorts raws, p ∈ usedPorts) (hnx : InInt64 nextPort)
    (hl : usedPorts.length + raws.length < 18446744073709551616)
    (h : processPawns parsers global host raws usedPorts nextPort = .ok pawns) :
  (pawns.map PawnConfig.port).Nodup
    ∧ ∀ pawn ∈ pawns, ∃ raw ∈ raws, pawn.name = raw.1
      ∧ (raw.2.port ≠ 0 → pawn.port = raw.2.port)
      ∧ (raw.2.port = 0 → pawn.port ∉ usedPorts)
  := by
  induction raws generalizing usedPorts nextPort pawns with
  | nil =>
    cases h
    exact ⟨nodup_nil, nofun⟩
  | cons raw raws ih =>
    obtain ⟨first, rest, rfl, hna, hca⟩ := processPawns_cons h
    rw [length_cons] at hl
    -- whether the first port is found or given, the others are found beside it
    obtain ⟨used', hsb, hfi, hnw, hfa, hn, hal⟩ : ∃ used', usedPorts ⊆ used'
        ∧ first.port ∈ used' ∧ first.port ∉ givenPorts raws
        ∧ ((raw.2.port ≠ 0 → first.port = raw.2.port) ∧ (raw.2.port = 0 → first.port ∉ usedPorts))
        ∧ (rest.map PawnConfig.port).Nodup
        ∧ ∀ pawn ∈ rest, ∃ raw ∈ raws, pawn.name = raw.1
          ∧ (raw.2.port ≠ 0 → pawn.port = raw.2.port) ∧ (raw.2.port = 0 → pawn.port ∉ used') := by
      obtain ⟨ha, hpo, hr⟩ | ⟨ha, hpo, hr⟩ := hca
      · have hs : givenPorts (raw :: raws) = givenPorts raws := by simp [givenPorts, ha]
        rw [hs] at hg hu
        have hfe : first.port ∉ usedPorts := hpo ▸ nextFreePort_not_mem (by omega) hnx
        exact ⟨_, subset_cons_self _ _, mem_cons_self, fun hm => hfe (hu _ hm),
          ⟨fun hne => absurd ha hne, fun _ => hfe⟩,
          ih hg (fun p hp => mem_cons_of_mem _ (hu p hp)) (inInt64_succPort _)
            (by rw [length_cons]; omega) hr⟩
      · have hcs : givenPorts (raw :: raws) = first.port :: givenPorts raws := by
          simp [givenPorts, ha, hpo]
        rw [hcs] at hg hu
        exact ⟨_, List.Subset.refl _, hu _ mem_cons_self, (nodup_cons.1 hg).1,
          ⟨fun _ => hpo, fun hz => absurd hz ha⟩,
          ih (nodup_cons.1 hg).2 (fun p hp => hu p (mem_cons_of_mem _ hp)) hnx
            (by omega) hr⟩
    refine ⟨nodup_cons.2 ⟨fun hm => ?_, hn⟩, ?_⟩
    · obtain ⟨pawn, hpw, heq⟩ := mem_map.1 hm
      obtain ⟨raw', hra, -, hke, hfr⟩ := hal pawn hpw
      by_cases hz : raw'.2.port = 0
      · exact hfr hz (heq ▸ hfi)
      · exact hnw (heq ▸ hke hz ▸ mem_givenPorts hra hz)
    · intro pawn hpw
      cases mem_cons.1 hpw with
      | inl hs => exact ⟨raw, mem_cons_self, hs ▸ hna, hs ▸ hfa⟩
      | inr hpw =>
        obtain ⟨raw', hra, hnm, hke, hfr⟩ := hal pawn hpw
        exact ⟨raw', mem_cons_of_mem _ hra, hnm, hke, fun hz hm => hfr hz (hsb hm)⟩

theorem above_of_processPawns (hba : InInt64 base)
    (hro : base + usedPorts.length + raws.countP (·.2.port = 0) < 9223372036854775808)
    (hbe : 0 < raws.countP (·.2.port = 0) → base < nextPort ∧ ∀ p, base < p → p < nextPort → p ∈
      usedPorts) (h : processPawns parsers global host raws usedPorts nextPort = .ok pawns) :
  ∀ pawn ∈ pawns, ∃ raw ∈ raws, pawn.name = raw.1 ∧ (raw.2.port = 0 → base < pawn.port)
  := by
  induction raws generalizing usedPorts nextPort pawns with
  | nil =>
    cases h
    exact nofun
  | cons raw raws ih =>
    obtain ⟨first, rest, rfl, hna, hca⟩ := processPawns_cons h
    have hlw := hba.1
    obtain ⟨hfi, hr⟩ : (raw.2.port = 0 → base < first.port) ∧ ∀ pawn ∈ rest,
        ∃ raw ∈ raws, pawn.name = raw.1 ∧ (raw.2.port = 0 → base < pawn.port) := by
      obtain ⟨ha, hpo, hr⟩ | ⟨ha, hpo, hr⟩ := hca
      · rw [countP_cons_of_pos (by simpa using ha)] at hro hbe
        obtain ⟨hnx, hbe⟩ := hbe (succ_pos _)
        obtain ⟨hab, hle, hb⟩ := nextFreePort_above hba hnx hbe (by omega)
        rw [← hpo] at hab hle hb
        refine ⟨fun _ => hab, ih (by rw [length_cons]; omega) (fun hps => ?_) hr⟩
        have hsu : succPort first.port = first.port + 1 :=
          portAfter_eq (i := 1) (by omega) (by omega)
        refine ⟨by omega, fun p hp hlt => ?_⟩
        obtain rfl | hlt : p = first.port ∨ p < first.port := by omega
        · exact mem_cons_self
        · exact mem_cons_of_mem _ (hb p hp hlt)
      · rw [countP_cons_of_neg (by simpa using ha)] at hro hbe
        exact ⟨fun hz => absurd hz ha, ih hro hbe hr⟩
    intro pawn hpw
    cases mem_cons.1 hpw with
    | inl hs => exact ⟨raw, mem_cons_self, hs ▸ hna, hs ▸ hfi⟩
    | inr hpw =>
      obtain ⟨raw', hra, hfa⟩ := hr pawn hpw
      exact ⟨raw', mem_cons_of_mem _ hra, hfa⟩

end Pawns

/-- An entry of the map of pawns. -/
abbrev NamedPawn := (_ : String) × RawPawnConfig

def generatedPawns (set : (_ : String) × RawPawnSetConfig) : List NamedPawn :=
  (List.range set.2.count.toNat).map fun i =>
    ⟨generatedName set.1 (toString (set.2.count.toNat - 1)).length i,
      { set.2.toRawPawnConfig with port := 0 }⟩

abbrev HasPrimary (raw : RawPerigeosConfig) (host : Host) : Prop :=
  raw.global.primary = true ∧ host.hostName ≠ ""

def primaryPawn (global : RawGlobalConfig) : RawPawnConfig where
  cpu := global.defaultCPU
  memory := global.defaultMemory
  nodeIP := global.nodeIP
  port := global.perigeosPort

/-- The pawns that are added to those configured one by one: those of the sets and the primary. -/
def addedPawns (raw : RawPerigeosConfig) (host : Host) : List NamedPawn :=
  raw.pawnSets.entries.flatMap generatedPawns
    ++ if HasPrimary raw host then [⟨host.hostName, primaryPawn raw.global⟩] else []

def Inserts (added : List NamedPawn) (pawns all : RawPawns) : Prop :=
  all.entries = added.reverse ++ pawns.entries

variable {raw raw' : RawPerigeosConfig} {host' : Host} {pawns all : RawPawns}

theorem inserts_cons :
  Inserts (g :: added) pawns all ↔ g.1 ∉ pawns ∧ Inserts added (pawns.insert g.1 g.2) all
  := by
  unfold Inserts
  rw [reverse_cons, append_assoc, singleton_append]
  constructor
  · intro heq
    have hn : (g :: pawns.entries).NodupKeys :=
      all.nodupKeys.sublist (heq ▸ sublist_append_right _ _)
    have hnw : g.1 ∉ pawns := (nodupKeys_cons.1 hn).1
    exact ⟨hnw, by rw [entries_insert_of_notMem hnw, heq]⟩
  · rintro ⟨hnw, heq⟩
    rw [heq, entries_insert_of_notMem hnw]

theorem foldlM_eq_ok {f : RawPawns → NamedPawn → Except String RawPawns}
    (hf : ∀ pawns g all, f pawns g = .ok all ↔ g.1 ∉ pawns ∧ pawns.insert g.1 g.2 = all) :
  added.foldlM f pawns = .ok all ↔ Inserts added pawns all
  := by
  induction added generalizing pawns with
  | nil =>
    refine ⟨fun h => ?_, fun h => ?_⟩
    · cases h
      rfl
    · exact congrArg ok (ext h.symm)
  | cons g added ih =>
    rw [foldlM_cons, bind_eq_ok, inserts_cons]
    simp only [hf, ih]
    exact ⟨fun ⟨_, ⟨hnw, heq⟩, h⟩ => ⟨hnw, heq ▸ h⟩, fun ⟨hnw, h⟩ => ⟨_, ⟨hnw, rfl⟩, h⟩⟩

def insertGenerated (pawns : RawPawns) (g : NamedPawn) : Except String RawPawns :=
  if g.1 ∈ pawns then
    .error ("pawn set generation collision: " ++ g.1 ++ " is already defined manually")
  else .ok (pawns.insert g.1 g.2)

theorem expandPawnSets_eq :
  expandPawnSets raw
    = (raw.pawnSets.entries.flatMap generatedPawns).foldlM insertGenerated raw.pawns
  := by
  unfold expandPawnSets
  generalize raw.pawns = pawns
  induction raw.pawnSets.entries generalizing pawns with
  | nil => rfl
  | cons set sets ih =>
    rw [foldlM_cons, flatMap_cons, foldlM_append, generatedPawns, foldlM_map]
    exact congrArg _ (funext fun pawns => ih pawns)

theorem added_eq_ok :
  (∃ pawns, expandPawnSets raw = .ok pawns
      ∧ addPrimary raw.global host.hostName pawns = .ok all)
    ↔ Inserts (addedPawns raw host) raw.pawns all
  := by
  have hnw (pawns : RawPawns) (g : NamedPawn) (all : RawPawns) :
      insertGenerated pawns g = .ok all ↔ g.1 ∉ pawns ∧ pawns.insert g.1 g.2 = all := by
    unfold insertGenerated
    split_ifs with hm
    all_goals simp [hm]
  rw [← foldlM_eq_ok hnw, addedPawns, foldlM_append, bind_eq_ok, expandPawnSets_eq]
  refine exists_congr fun pawns => and_congr_right fun _ => ?_
  unfold addPrimary
  by_cases hpi : HasPrimary raw host
  · rw [if_pos hpi, if_pos hpi, foldlM_cons, bind_eq_ok]
    split_ifs with hm
    · simp [insertGenerated, hm]
    · simp [insertGenerated, primaryPawn, hm, pure, Except.pure]
  · rw [if_neg hpi, if_neg hpi]
    rfl

theorem reservePorts_eq_ok :
  reservePorts all = .ok usedPorts
    ↔ usedPorts.Nodup ∧ usedPorts = ((all.entries.map (·.2.port)).filter (· ≠ 0)).reverse
  := by
  have hge (entries : List NamedPawn) (acc : List Int) (hac : acc.Nodup) :
      entries.foldlM (fun usedPorts pawn =>
        if pawn.2.port = 0 then ok usedPorts
        else if pawn.2.port ∈ usedPorts then
          .error ("port collision in config: port " ++ toString pawn.2.port
            ++ " is specified more than once")
        else .ok (pawn.2.port :: usedPorts)) acc = .ok usedPorts
      ↔ usedPorts.Nodup
        ∧ usedPorts = ((entries.map (·.2.port)).filter (· ≠ 0)).reverse ++ acc := by
    induction entries generalizing acc with
    | nil =>
      refine ⟨fun h => ?_, fun ⟨_, h⟩ => congrArg ok h.symm⟩
      cases h
      exact ⟨hac, rfl⟩
    | cons e entries ih =>
      rw [foldlM_cons, bind_eq_ok, map_cons]
      by_cases hz : e.2.port = 0
      · simp only [filter_cons, hz]
        simpa using ih acc hac
      · rw [filter_cons_of_pos (by simpa using hz), reverse_cons, append_assoc,
          singleton_append]
        by_cases hm : e.2.port ∈ acc
        · simp only [if_neg hz, if_pos hm]
          refine ⟨fun ⟨_, h, _⟩ => (by cases h), fun ⟨hn, heq⟩ => ?_⟩
          rw [heq] at hn
          exact absurd hm (nodup_cons.1 (nodup_append.1 hn).2.1).1
        · simp only [if_neg hz, if_neg hm]
          simpa using ih _ (nodup_cons.2 ⟨hm, hac⟩)
  have := hge all.entries [] nodup_nil
  rwa [append_nil] at this

/-! ### The order of the maps -/

/-- The same configuration on the same machine, with every map in another order: the walks over the
taints of the two machines need not agree. -/
structure Reordered (raw raw' : RawPerigeosConfig) (host host' : Host) : Prop where
  global : raw'.global = raw.global
  pawns : raw'.pawns.entries.Perm raw.pawns.entries
  pawnSets : raw'.pawnSets.entries.Perm raw.pawnSets.entries
  hostName : host'.hostName = host.hostName
  agentSocket : host'.agentSocket = host.agentSocket

/-- Taints in another order are accepted too, and what is read of them is `alike`. -/
def ReadsAlike (parsers : Parsers Q T) (alike : T → T → Prop) : Prop :=
  ∀ specs specs' taints, specs'.Perm specs → parsers.parseTaints specs = .ok taints →
    ∃ taints', parsers.parseTaints specs' = .ok taints' ∧ alike taints taints'

/-- The pawns have `alike` taints and agree in everything else. -/
structure SamePawn (alike : T → T → Prop) (pawn pawn' : PawnConfig Q T) : Prop where
  taints : alike pawn.taints pawn'.taints
  others : { pawn' with taints := pawn.taints } = pawn

theorem perm_reverse_reverse {α : Type} {l l' : List α} (h : l.Perm l') :
  l.reverse.Perm l'.reverse
  := (reverse_perm l).trans (h.trans (reverse_perm l').symm)

theorem sortedPawns_perm (all : RawPawns) :
  (sortedPawns all).Perm (all.entries.map fun e => (e.1, e.2))
  := by
  refine ((mergeSort_perm _ _).map _).trans (List.Perm.of_eq ?_)
  rw [AList.keys, List.keys, List.map_map]
  apply map_congr_left
  intro e he
  rw [Function.comp_apply, mem_lookup_iff.2 he]
  rfl

theorem sortedPawns_eq_map {names : List String} (hpe : names.Perm all.keys)
    (hs : names.Pairwise (· ≤ ·)) :
  sortedPawns all = names.map fun name => (name, (all.lookup name).getD {})
  := by
  have hna : all.keys.mergeSort (fun a b => a ≤ b) = names :=
    ((mergeSort_perm _ _).trans hpe.symm).eq_of_pairwise' (pairwise_mergeSort' (· ≤ ·) _) hs
  rw [sortedPawns, hna]

theorem sortedPawns_eq {all all' : RawPawns} (h : all'.entries.Perm all.entries) :
  sortedPawns all' = sortedPawns all
  := by
  have hpe := (mergeSort_perm all.keys fun a b => a ≤ b).trans (h.map Sigma.fst).symm
  have hlo (name : String) : all'.lookup name = all.lookup name := perm_lookup h
  rw [sortedPawns_eq_map hpe (pairwise_mergeSort' (· ≤ ·) _), sortedPawns]
  simp only [hlo]

variable {usedPorts' : List Int}

theorem nextFreePort_congr (h : usedPorts'.Perm usedPorts) :
  nextFreePort usedPorts' n port = nextFreePort usedPorts n port
  := by
  induction n generalizing port with
  | zero => rfl
  | succ n ih => simp only [nextFreePort, h.mem_iff, ih]

variable {alike : T → T → Prop}

theorem wrap_eq_ok {α : Type} {result : Except String α} {a : α} :
  wrap message result = .ok a ↔ result = .ok a
  := by
  cases result with
  | _ => simp [wrap, Except.mapError]

theorem processPawn_reordered (hre : ReadsAlike parsers alike)
    (hho : host'.hostName = host.hostName) {raw : RawPawnConfig} {pawn : PawnConfig Q T}
    (h : processPawn parsers global host name raw port = .ok pawn) :
  ∃ pawn', processPawn parsers global host' name raw port = .ok pawn' ∧ SamePawn alike pawn pawn'
  := by
  simp only [processPawn, bind_eq_ok] at h ⊢
  obtain ⟨cpu, hc, memory, hm, taints, ht, ioRead, hr, ioWrite, hw, h⟩ := h
  cases h
  have hpe : (host'.taintsWalk.order name raw.taints).Perm
      (host.taintsWalk.order name raw.taints) :=
    (host'.taintsWalk.perm _ _).trans (host.taintsWalk.perm _ _).symm
  obtain ⟨taints', ht', hal⟩ := hre _ _ _ (hpe.map _) (wrap_eq_ok.1 ht)
  rw [hho]
  exact ⟨_, ⟨cpu, hc, memory, hm, taints', wrap_eq_ok.2 ht', ioRead, hr, ioWrite, hw, rfl⟩,
    hal, rfl⟩

theorem processPawns_reordered (hre : ReadsAlike parsers alike)
    (hho : host'.hostName = host.hostName) (hu : usedPorts'.Perm usedPorts)
    {pawns : List (PawnConfig Q T)}
    (h : processPawns parsers global host raws usedPorts nextPort = .ok pawns) :
  ∃ pawns', processPawns parsers global host' raws usedPorts' nextPort = .ok pawns'
    ∧ Forall₂ (SamePawn alike) pawns pawns'
  := by
  induction raws generalizing usedPorts usedPorts' nextPort pawns with
  | nil =>
    cases h
    exact ⟨[], rfl, .nil⟩
  | cons raw raws ih =>
    have has : (assignPort raw.2.port usedPorts' nextPort).1
          = (assignPort raw.2.port usedPorts nextPort).1
        ∧ (assignPort raw.2.port usedPorts' nextPort).2.1.Perm
          (assignPort raw.2.port usedPorts nextPort).2.1
        ∧ (assignPort raw.2.port usedPorts' nextPort).2.2
          = (assignPort raw.2.port usedPorts nextPort).2.2 := by
      simp only [assignPort, nextFreePort_congr hu, hu.length_eq]
      split_ifs
      · exact ⟨rfl, hu.cons _, rfl⟩
      · exact ⟨rfl, hu, rfl⟩
    simp only [processPawns, bind_eq_ok] at h ⊢
    obtain ⟨first, hf, rest, hr, h⟩ := h
    cases h
    obtain ⟨first', hf', hsa⟩ := processPawn_reordered hre hho hf
    obtain ⟨rest', hr', hfa⟩ := ih has.2.1 hr
    rw [has.1, has.2.2]
    exact ⟨_, ⟨first', hf', rest', hr', rfl⟩, .cons hsa hfa⟩

variable {baseDir : String} {config : PerigeosConfig Q T}

theorem process_eq_ok :
  process parsers host baseDir raw = .ok config
    ↔ processGlobal parsers host baseDir raw.global = .ok config.global
      ∧ ∃ all usedPorts, Inserts (addedPawns raw host) raw.pawns all
        ∧ reservePorts all = .ok usedPorts
        ∧ processPawns parsers config.global host (sortedPawns all) usedPorts
          (succPort raw.global.perigeosPort) = .ok config.pawns
  := by
  simp only [process, bind_eq_ok, ← added_eq_ok]
  constructor
  · rintro ⟨global, hgl, pawns, hpa, all, hal, used, hu, processed, hpr, h⟩
    cases h
    exact ⟨hgl, all, used, ⟨pawns, hpa, hal⟩, hu, hpr⟩
  · rintro ⟨hgl, all, used, ⟨pawns, hpa, hal⟩, hu, hpr⟩
    exact ⟨_, hgl, pawns, hpa, all, hal, used, hu, _, hpr, rfl⟩

theorem processGlobal_reordered (h : host'.agentSocket = host.agentSocket)
    (global : RawGlobalConfig) :
  processGlobal parsers host' baseDir global = processGlobal parsers host baseDir global
  := by
  unfold processGlobal buildCNIConfig
  rw [h]

theorem process_reordered (hre : ReadsAlike parsers alike) (ho : Reordered raw raw' host host')
    (h : process parsers host baseDir raw = .ok config) :
  ∃ config', process parsers host' baseDir raw' = .ok config' ∧ config'.global = config.global
    ∧ Forall₂ (SamePawn alike) config.pawns config'.pawns
  := by
  obtain ⟨hgl, all, used, hal, hu, hpr⟩ := process_eq_ok.1 h
  have had : (addedPawns raw' host').Perm (addedPawns raw host) := by
    unfold addedPawns HasPrimary
    rw [ho.global, ho.hostName]
    exact (ho.pawnSets.flatMap_right _).append_right _
  have hpe : ((addedPawns raw' host').reverse ++ raw'.pawns.entries).Perm all.entries := by
    rw [hal]
    exact (perm_reverse_reverse had).append ho.pawns
  obtain ⟨hn, rfl⟩ := reservePorts_eq_ok.1 hu
  let all' : RawPawns := ⟨_, (perm_nodupKeys hpe).2 all.nodupKeys⟩
  have hpt := perm_reverse_reverse ((hpe.map (·.2.port)).filter (· ≠ 0))
  obtain ⟨pawns', hpa, hfa⟩ := processPawns_reordered hre ho.hostName hpt hpr
  refine ⟨⟨config.global, pawns'⟩, process_eq_ok.2 ⟨?_, all', _, rfl,
    reservePorts_eq_ok.2 ⟨hpt.nodup_iff.2 hn, rfl⟩, ?_⟩, rfl, hfa⟩
  · rw [processGlobal_reordered ho.agentSocket, ho.global, hgl]
  · rw [sortedPawns_eq hpe, ho.global]
    exact hpa

/-! ### What is accepted -/

theorem length_givenPorts (raws : List (String × RawPawnConfig)) :
  (givenPorts raws).length + raws.countP (·.2.port = 0) = raws.length
  := by
  induction raws with
  | nil => rfl
  | cons raw raws ih =>
    by_cases hz : raw.2.port = 0
    all_goals
      simp [givenPorts, hz] at ih ⊢
      omega

theorem mem_sortedPawns {e : NamedPawn} :
  (e.1, e.2) ∈ sortedPawns all ↔ e ∈ all.entries
  := by
  rw [(sortedPawns_perm all).mem_iff]
  exact mem_map_of_injective fun a b h => by cases a; cases b; cases h; rfl

theorem eq_of_mem_sortedPawns {raw : String × RawPawnConfig} {e : NamedPawn}
    (hrw : raw ∈ sortedPawns all) (he : e ∈ all.entries) (hna : e.1 = raw.1) :
  raw.2 = e.2
  := by
  obtain ⟨name, cfg⟩ := e
  cases hna
  have hrw : ⟨raw.1, raw.2⟩ ∈ all.entries := mem_sortedPawns.1 hrw
  exact Option.some.inj ((mem_lookup_iff.2 hrw).symm.trans (mem_lookup_iff.2 he))

/-- Names and ports of the pawns are different, configured ports are kept, the primary pawn has the
base port, the other ports are above it if there is room, and the order of maps matters only for the
order of taints, if it does not for their readers. -/
theorem process_ports {baseDir : String} {config : PerigeosConfig Q T}
    (hbase : InInt64 raw.global.perigeosPort) (hcount : config.pawns.length < 9223372036854775808)
    (h : process parsers host baseDir raw = .ok config) :
  (config.pawns.map PawnConfig.name).Nodup ∧ (config.pawns.map PawnConfig.port).Nodup
    ∧ (∀ e ∈ raw.pawns.entries, e.2.port ≠ 0 →
      ∃ pawn ∈ config.pawns, pawn.name = e.1 ∧ pawn.port = e.2.port)
    ∧ (HasPrimary raw host → raw.global.perigeosPort ≠ 0 →
      ∃ pawn ∈ config.pawns, pawn.name = host.hostName ∧ pawn.port = raw.global.perigeosPort)
    ∧ (raw.global.perigeosPort + config.pawns.length < 9223372036854775808 →
      ∀ pawn ∈ config.pawns, (∀ e ∈ raw.pawns.entries, e.1 = pawn.name → e.2.port = 0) →
        (HasPrimary raw host → pawn.name = host.hostName → raw.global.perigeosPort = 0) →
        raw.global.perigeosPort < pawn.port)
    ∧ ∀ alike, ReadsAlike parsers alike → ∀ raw' host', Reordered raw raw' host host' →
      ∃ config', process parsers host' baseDir raw' = .ok config'
        ∧ config'.global = config.global ∧ Forall₂ (SamePawn alike) config.pawns config'.pawns
  := by
  have hns := nodup_of_process h
  have ho := fun alike (hre : ReadsAlike parsers alike) raw' host'
    (ho : Reordered raw raw' host host') => process_reordered hre ho h
  obtain ⟨-, all, used, hal, hu, hpr⟩ := process_eq_ok.1 h
  obtain ⟨hn, hpt⟩ := reservePorts_eq_ok.1 hu
  have hg : used.Perm (givenPorts (sortedPawns all)) := by
    rw [hpt]
    have hma := (sortedPawns_perm all).map (·.2.port)
    rw [map_map] at hma
    exact (reverse_perm _).trans (hma.symm.filter _)
  have hli := names_of_processPawns hpr
  have hl : config.pawns.length = (sortedPawns all).length := by
    simpa using congrArg length hli
  have hsm := length_givenPorts (sortedPawns all)
  rw [← hg.length_eq] at hsm
  obtain ⟨hd, hfa⟩ := ports_of_processPawns (hg.nodup_iff.1 hn)
    (fun p hp => hg.mem_iff.2 hp) (inInt64_succPort _) (by omega) hpr
  have hke (e : NamedPawn) (he : e ∈ all.entries) (hpo : e.2.port ≠ 0) :
      ∃ pawn ∈ config.pawns, pawn.name = e.1 ∧ pawn.port = e.2.port := by
    have hm : e.1 ∈ config.pawns.map PawnConfig.name :=
      hli ▸ mem_map_of_mem (mem_sortedPawns.2 he)
    obtain ⟨pawn, hpw, hna⟩ := mem_map.1 hm
    obtain ⟨raw', hra, hnm, hke, -⟩ := hfa pawn hpw
    have hcf := eq_of_mem_sortedPawns hra he (hnm ▸ hna.symm)
    exact ⟨pawn, hpw, hna, hcf ▸ hke (hcf ▸ hpo)⟩
  refine ⟨hns, hd, fun e he => hke e ?_, fun hpi hpo => ?_, ?_, ho⟩
  · rw [hal]
    exact mem_append_right _ he
  · refine hke ⟨host.hostName, primaryPawn raw.global⟩ ?_ hpo
    rw [hal, addedPawns, if_pos hpi]
    simp
  · intro hro pawn hpw hc hpi
    obtain ⟨⟨name, cfg⟩, hrw, hna, hab⟩ := above_of_processPawns hbase (by omega) (fun hps => by
      have hsu : succPort raw.global.perigeosPort = raw.global.perigeosPort + 1 :=
        portAfter_eq (i := 1) hbase.1 (by omega)
      exact ⟨by omega, fun p hp hlt => by omega⟩) hpr pawn hpw
    apply hab
    -- a pawn whose port is not zero is configured or the primary one
    have hm : ⟨name, cfg⟩ ∈ all.entries := mem_sortedPawns.1 hrw
    rw [hal, mem_append, mem_reverse, addedPawns, mem_append] at hm
    obtain (hse | hm) | hm := hm
    · obtain ⟨set, -, hse⟩ := mem_flatMap.1 hse
      obtain ⟨i, -, heq⟩ := mem_map.1 hse
      cases heq
      rfl
    · split_ifs at hm with hha
      · cases mem_singleton.1 hm
        exact hpi hha hna
      · cases hm
    · exact hc _ hm hna.symm

/-- A pawn with a port, one without, a set of two and the primary pawn. -/
def mixedPawns : RawPerigeosConfig where
  global := { primary := true, perigeosPort := 10250 }
  pawns := [⟨"w", { port := 10252 }⟩, ⟨"v", {}⟩].toAList
  pawnSets := AList.singleton "s" { count := 2, taints := [⟨"a", "x:E"⟩, ⟨"b", "y:E"⟩].toAList }

def backwards : TaintsWalk where
  order _ taints := taints.entries.reverse
  perm _ _ := reverse_perm _

def mixedAll : RawPawns where
  entries := (addedPawns mixedPawns { hostName := "h" }).reverse ++ mixedPawns.pawns.entries
  nodupKeys := by
    unfold List.NodupKeys
    decide +kernel

theorem process_mixedPawns :
  ∃ config, process anyParsers { hostName := "h" } "" mixedPawns = .ok config
    ∧ config.pawns.map (fun p => (p.name, p.port))
      = [("h", 10250), ("s-0", 10251), ("s-1", 10253), ("v", 10254), ("w", 10252)]
  := by
  have hs : sortedPawns mixedAll = ["h", "s-0", "s-1", "v", "w"].map
      fun name => (name, (mixedAll.lookup name).getD {}) :=
    sortedPawns_eq_map (by decide +kernel) (by decide)
  obtain ⟨global, hgl⟩ : ∃ global,
      processGlobal anyParsers { hostName := "h" } "" mixedPawns.global = .ok global := ⟨_, rfl⟩
  obtain ⟨pawns, hpa, hli⟩ : ∃ pawns, processPawns anyParsers global { hostName := "h" }
      (["h", "s-0", "s-1", "v", "w"].map fun name => (name, (mixedAll.lookup name).getD {}))
      [10252, 10250] 10251 = .ok pawns
      ∧ pawns.map (fun p => (p.name, p.port))
        = [("h", 10250), ("s-0", 10251), ("s-1", 10253), ("v", 10254), ("w", 10252)] :=
    ⟨_, rfl, rfl⟩
  rw [← hs] at hpa
  exact ⟨⟨global, pawns⟩, process_eq_ok.2 ⟨hgl, mixedAll, [10252, 10250], rfl, rfl, hpa⟩, hli⟩

theorem process_ports_mixed :
  ∃ config, process anyParsers { hostName := "h" } "" mixedPawns = .ok config
    ∧ config.pawns.map (fun p => (p.name, p.port))
      = [("h", 10250), ("s-0", 10251), ("s-1", 10253), ("v", 10254), ("w", 10252)]
    ∧ (config.pawns.map PawnConfig.port).Nodup
    ∧ ∃ config', process anyParsers { hostName := "h", taintsWalk := backwards } "" mixedPawns
        = .ok config'
      ∧ Forall₂ (SamePawn List.Perm) config.pawns config'.pawns
  := by
  obtain ⟨config, hpc, hpa⟩ := process_mixedPawns
  have hl : config.pawns.length = 5 := by simpa using congrArg length hpa
  obtain ⟨-, hn, -, -, -, ho⟩ := process_ports ⟨by decide, by decide⟩ (by omega) hpc
  have hre : ReadsAlike anyParsers List.Perm := by
    rintro specs specs' _ hpe ⟨⟩
    exact ⟨specs', rfl, hpe.symm⟩
  obtain ⟨config', hpc', -, hfa⟩ := ho List.Perm hre mixedPawns
    { hostName := "h", taintsWalk := backwards } ⟨rfl, .refl _, .refl _, rfl, rfl⟩
  exact ⟨config, hpc, hpa, hn, config', hpc', hfa⟩

theorem process_primary :
  ∃ config, process anyParsers { hostName := "h" } "" mixedPawns = .ok config
    ∧ ∃ pawn ∈ config.pawns, pawn.name ∉ mixedPawns.pawns
      ∧ ¬ mixedPawns.global.perigeosPort < pawn.port
  := by
  obtain ⟨config, hpc, hpa⟩ := process_mixedPawns
  have hm : ("h", 10250) ∈ config.pawns.map fun p => (p.name, p.port) := by simp [hpa]
  obtain ⟨pawn, hpw, heq⟩ := mem_map.1 hm
  obtain ⟨hna, hpo⟩ := Prod.mk.inj heq
  refine ⟨config, hpc, pawn, hpw, ?_, ?_⟩
  · rw [hna]
    decide +kernel
  · rw [hpo]
    decide

end Periapsis.Config
