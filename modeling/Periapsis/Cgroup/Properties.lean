import Periapsis.Config.Process
import Periapsis.Text.Affix

/-!
# The limits of a container as unit properties

The resources of a container become resources of a cgroup, and these become properties of a unit.
-/

namespace Periapsis.Cgroup

open Config (milliCPUToCPUWeight minCPUShares maxCPUShares)

def toSigned (n : Int) : Int :=
  n.bmod 18446744073709551616

def toUnsigned (n : Int) : Int :=
  n % 18446744073709551616

structure Amounts where
  cpu : Option Int64 := none
  memory : Option Int64 := none

structure Requirements where
  limits : Amounts := {}
  requests : Amounts := {}

structure PodConfig where
  memoryLimitBytes : Int
  swapLimitBytes : Int
  cpuLimitMillis : Int64
  cpuRequestMillis : Int64
  oomScoreAdjust : Int

structure CPU where
  weight : Option Int := none
  max : List Char := []

structure Memory where
  max : Option Int := none
  high : Option Int := none
  low : Option Int := none
  min : Option Int := none
  swap : Option Int := none

structure PodResources where
  cpu : Option CPU := none
  memory : Option Memory := none
  pids : Option Int := none
  oomScoreAdjust : Int := 0

structure Property where
  name : String
  value : Int
  deriving DecidableEq

def calculateSwap (memBytes : Int) : Int :=
  toUnsigned (memBytes * 2)

def extractResourceLimits (pod : Option Requirements) (c : Requirements) (oomScoreAdjust : Int) :
  PodConfig :=
  let memory := c.limits.memory.elim (0, 0) fun mem =>
    (toUnsigned mem.toInt, calculateSwap (toUnsigned mem.toInt))
  let cpuLimitMillis := c.limits.cpu.getD 0
  let cpuRequestMillis := c.requests.cpu.getD 0
  match pod with
  | none => ⟨memory.1, memory.2, cpuLimitMillis, cpuRequestMillis, oomScoreAdjust⟩
  | some pod =>
    let memory :=
      if memory.1 = 0 then pod.limits.memory.elim memory fun mem =>
        (toUnsigned mem.toInt, calculateSwap (toUnsigned mem.toInt))
      else memory
    ⟨memory.1, memory.2, if cpuLimitMillis = 0 then pod.limits.cpu.getD 0 else cpuLimitMillis,
      if cpuRequestMillis = 0 then pod.requests.cpu.getD 0 else cpuRequestMillis, oomScoreAdjust⟩

def newCPUMax (quota : Option Int) : List Char :=
  quota.elim "max".toList (·.repr.toList) ++ " 100000".toList

def milliCPUToCPUMax (milliCPU : Int) : List Char :=
  if milliCPU ≤ 0 then newCPUMax none else newCPUMax (some (toSigned (milliCPU * 100)))

def buildPodResources (cfg : PodConfig) : PodResources :=
  let w : Int := (milliCPUToCPUWeight cfg.cpuRequestMillis).toNat
  let limit := cfg.cpuLimitMillis.toInt
  { cpu := if w > 0 ∨ limit > 0 then
      some { weight := if w > 0 then some w else none
             max := if limit > 0 then milliCPUToCPUMax limit else [] }
      else none
    memory := if cfg.memoryLimitBytes > 0 ∨ cfg.swapLimitBytes > 0 then
      some { max := if cfg.memoryLimitBytes > 0 then some (toSigned cfg.memoryLimitBytes) else none
             swap := if cfg.swapLimitBytes > 0 then some (toSigned cfg.swapLimitBytes) else none }
      else none
    oomScoreAdjust := cfg.oomScoreAdjust }

/-- `strings.Fields`. -/
def fields (text : List Char) : List (List Char) :=
  (Text.lines ' ' (text.map fun c => if c.isWhitespace then ' ' else c)).filter (· ≠ [])

def parseDigits (digits : List Char) : Option Int :=
  if digits ≠ [] ∧ digits.all Char.isDigit then some (Nat.ofDigitChars 10 digits 0) else none

def parseInt64 (text : List Char) : Option Int :=
  let value :=
    match text with
    | '-' :: digits => (parseDigits digits).map (-·)
    | '+' :: digits => parseDigits digits
    | digits => parseDigits digits
  value.filter fun n => -9223372036854775808 ≤ n ∧ n < 9223372036854775808

def cpuMaxToQuotaPerSecUS (m : List Char) : Option Int :=
  match fields m with
  | [] => none
  | quota :: parts =>
    if quota.map Char.toLower = "max".toList then none
    else
      (parseInt64 quota).bind fun quota =>
        if quota ≤ 0 then none
        else
          match parts with
          | [period] => (parseInt64 period).bind fun period =>
            if period ≤ 0 then none
            else some (toUnsigned ((toSigned (quota * 1000000)).tdiv period))
          | _ => some (toUnsigned ((toSigned (quota * 1000000)).tdiv 100000))

def positiveProperty (name : String) (v : Option Int) : List Property :=
  match v with
  | some v => if v > 0 then [⟨name, v⟩] else []
  | none => []

def cpuProperties (cpu : CPU) : List Property :=
  positiveProperty "CPUWeight" cpu.weight
    ++ if cpu.max ≠ [] then
      (cpuMaxToQuotaPerSecUS cpu.max).toList.map fun quotaUS => ⟨"CPUQuotaPerSecUSec", quotaUS⟩
    else []

def memoryProperties (memory : Memory) : List Property :=
  positiveProperty "MemoryMax" memory.max ++ positiveProperty "MemoryHigh" memory.high
    ++ positiveProperty "MemoryLow" memory.low ++ positiveProperty "MemoryMin" memory.min
    ++ positiveProperty "MemorySwapMax" memory.swap

def buildSystemdProperties (res : Option PodResources) : List Property :=
  res.elim [] fun res =>
    res.cpu.elim [] cpuProperties ++ res.memory.elim [] memoryProperties
      ++ positiveProperty "TasksMax" res.pids
      ++ [⟨"OOMScoreAdjust", res.oomScoreAdjust.bmod 4294967296⟩]

def propertiesOf (cfg : PodConfig) : List Property :=
  buildSystemdProperties (some (buildPodResources cfg))

variable {cfg : PodConfig} {v : Int}

theorem mem_positiveProperty :
  ⟨name', v⟩ ∈ positiveProperty name (some x) ↔ name' = name ∧ 0 < x ∧ v = x
  := by
  unfold positiveProperty
  dsimp only
  split_ifs with hx
  all_goals simp [hx]

theorem mem_propertiesOf :
  ⟨name, v⟩ ∈ propertiesOf cfg
    ↔ (name = "CPUWeight" ∧ 0 < (milliCPUToCPUWeight cfg.cpuRequestMillis).toNat
        ∧ v = (milliCPUToCPUWeight cfg.cpuRequestMillis).toNat)
      ∨ (name = "CPUQuotaPerSecUSec" ∧ 0 < cfg.cpuLimitMillis.toInt
        ∧ cpuMaxToQuotaPerSecUS (newCPUMax (some (toSigned (cfg.cpuLimitMillis.toInt * 100))))
          = some v)
      ∨ (name = "MemoryMax" ∧ 0 < cfg.memoryLimitBytes ∧ 0 < toSigned cfg.memoryLimitBytes
        ∧ v = toSigned cfg.memoryLimitBytes)
      ∨ (name = "MemorySwapMax" ∧ 0 < cfg.swapLimitBytes ∧ 0 < toSigned cfg.swapLimitBytes
        ∧ v = toSigned cfg.swapLimitBytes)
      ∨ (name = "OOMScoreAdjust" ∧ v = cfg.oomScoreAdjust.bmod 4294967296)
  := by
  have hno {name : String} : positiveProperty name none = [] := rfl
  have hne (quota : Option Int) : newCPUMax quota ≠ [] := by simp [newCPUMax]
  have hmx {l : Int} (hl : 0 < l) : milliCPUToCPUMax l = newCPUMax (some (toSigned (l * 100))) :=
    if_neg (Int.not_le.2 hl)
  have hqu (o : Option Int) :
      ⟨name, v⟩ ∈ o.toList.map (fun quotaUS => (⟨"CPUQuotaPerSecUSec", quotaUS⟩ : Property))
        ↔ name = "CPUQuotaPerSecUSec" ∧ o = some v := by
    simp [eq_comm, and_comm]
  by_cases hw : 0 < (milliCPUToCPUWeight cfg.cpuRequestMillis).toNat
  all_goals
    by_cases hl : 0 < cfg.cpuLimitMillis.toInt
    all_goals
      by_cases hm : 0 < cfg.memoryLimitBytes
      all_goals
        by_cases hs : 0 < cfg.swapLimitBytes
        all_goals
          simp [propertiesOf, buildSystemdProperties, buildPodResources, cpuProperties,
            memoryProperties, hmx, mem_positiveProperty, hno, hne, hqu, hw, hl, hm,
            hs, -List.mem_map]

theorem fields_pair (hne : quota ≠ []) (hqu : ∀ c ∈ quota, c.isWhitespace = false) :
  fields (quota ++ " 100000".toList) = [quota, "100000".toList]
  := by
  have hma : quota.map (fun c => if c.isWhitespace then ' ' else c) = quota := by
    nth_rewrite 2 [← List.map_id quota]
    apply List.map_congr_left
    intro c hc
    rw [hqu c hc]
    rfl
  have hsp : ' ' ∉ quota := fun hmm => by
    have := hqu ' ' hmm
    cases this
  rw [fields, List.map_append, hma]
  change (Text.lines ' ' (quota ++ ' ' :: "100000".toList)).filter _ = _
  rw [Text.lines_append_newline hsp, List.filter_cons_of_pos (by simpa using hne)]
  exact congrArg (quota :: ·) (by decide)

theorem isWhitespace_of_isDigit {c : Char} (hc : c.isDigit) :
  c.isWhitespace = false
  := by
  simp only [Char.isWhitespace, Bool.or_eq_false_iff, decide_eq_false_iff_not]
  refine ⟨⟨⟨?_, ?_⟩, ?_⟩, ?_⟩
  all_goals
    rintro rfl
    cases hc

theorem repr_cases :
  (0 ≤ n ∧ n.repr.toList = Nat.toDigits 10 n.toNat)
    ∨ (n < 0 ∧ n.repr.toList = '-' :: Nat.toDigits 10 (-n).toNat)
  := by
  rw [Int.repr_eq_if]
  split_ifs with hn
  · exact .inl ⟨hn, Nat.toList_repr⟩
  · refine .inr ⟨by omega, ?_⟩
    rw [String.toList_append, Nat.toList_repr]
    rfl

theorem isDigit_toDigits {n : Nat} {c : Char} (hc : c ∈ Nat.toDigits 10 n) :
  c.isDigit
  := Nat.isDigit_of_mem_toDigits (by decide) (by decide) hc

variable {q : Int}

theorem fields_newCPUMax :
  fields (newCPUMax (some q)) = [q.repr.toList, "100000".toList]
  := by
  change fields (q.repr.toList ++ " 100000".toList) = _
  cases repr_cases with
  | inl h =>
    rw [h.2]
    exact fields_pair Nat.toDigits_ne_nil fun c hc => isWhitespace_of_isDigit (isDigit_toDigits hc)
  | inr h =>
    rw [h.2]
    refine fields_pair (List.cons_ne_nil _ _) fun c hc => ?_
    cases List.mem_cons.1 hc with
    | inl h => exact h ▸ rfl
    | inr h => exact isWhitespace_of_isDigit (isDigit_toDigits h)

theorem parseDigits_toDigits (n : Nat) :
  parseDigits (Nat.toDigits 10 n) = some (n : Int)
  := by
  have ha : (Nat.toDigits 10 n).all Char.isDigit :=
    List.all_eq_true.2 fun c hc => isDigit_toDigits hc
  rw [parseDigits, if_pos ⟨Nat.toDigits_ne_nil, ha⟩, Nat.ofDigitChars_ten_toDigits]

theorem parseInt64_repr (hlw : -9223372036854775808 ≤ q) (hh : q < 9223372036854775808) :
  parseInt64 q.repr.toList = some q
  := by
  cases repr_cases with
  | inl h =>
    rw [h.2]
    unfold parseInt64
    have hfi := @isDigit_toDigits q.toNat
    have hpa := parseDigits_toDigits q.toNat
    generalize Nat.toDigits 10 q.toNat = digits at *
    split
    case h_3 =>
      rw [hpa, Int.toNat_of_nonneg h.1]
      exact Option.filter_some_pos (decide_eq_true ⟨hlw, hh⟩)
    all_goals exact absurd (hfi List.mem_cons_self) (by decide)
  | inr h =>
    rw [h.2, parseInt64]
    simp only [parseDigits_toDigits, Option.map_some]
    rw [Int.toNat_of_nonneg (by omega), Int.neg_neg]
    exact Option.filter_some_pos (decide_eq_true ⟨hlw, hh⟩)

theorem toLower_of_isDigit {c : Char} (hc : c.isDigit) :
  c.toLower = c
  := by
  simp only [Char.isDigit, Bool.and_eq_true, decide_eq_true_eq] at hc
  refine dif_neg fun h => ?_
  have hh := UInt32.le_iff_toNat_le.1 hc.2
  have hlw := UInt32.le_iff_toNat_le.1 h.1
  exact absurd (Nat.le_trans hlw hh) (by decide)

theorem not_max (n : Int) :
  n.repr.toList.map Char.toLower ≠ "max".toList
  := by
  intro h
  have hm : 'm' ∈ n.repr.toList.map Char.toLower := h ▸ (by decide)
  obtain ⟨c, hc, hlo⟩ := List.mem_map.1 hm
  have hd : ∀ {k}, c ∉ Nat.toDigits 10 k := fun hmm => by
    have his := isDigit_toDigits hmm
    rw [toLower_of_isDigit his] at hlo
    subst hlo
    cases his
  cases repr_cases with
  | inl h => exact hd (h.2 ▸ hc)
  | inr h =>
    rw [h.2] at hc
    cases List.mem_cons.1 hc with
    | inl h => exact absurd (h ▸ hlo) (by decide)
    | inr h => exact hd h

theorem toSigned_cases (n : Int) :
  ∃ k, toSigned n = n - k * 18446744073709551616 ∧ -9223372036854775808 ≤ toSigned n
    ∧ toSigned n < 9223372036854775808
  := by
  refine ⟨(n - toSigned n) / 18446744073709551616, ?_, ?_, ?_⟩
  all_goals
    rw [toSigned, Int.bmod_def]
    split_ifs
    all_goals omega

theorem toSigned_eq_self (hlw : -9223372036854775808 ≤ n) (hh : n < 9223372036854775808) :
  toSigned n = n
  := by
  rw [toSigned, Int.bmod_def]
  split_ifs
  all_goals omega

theorem cpuMaxToQuotaPerSecUS_newCPUMax :
  cpuMaxToQuotaPerSecUS (newCPUMax (some (toSigned n)))
    = if toSigned n ≤ 0 then none
      else some (toUnsigned ((toSigned (toSigned n * 1000000)).tdiv 100000))
  := by
  obtain ⟨_, _, hlw, hh⟩ := toSigned_cases n
  have hp : parseInt64 "100000".toList = some 100000 := by decide
  simp only [cpuMaxToQuotaPerSecUS, fields_newCPUMax, if_neg (not_max _),
    parseInt64_repr hlw hh, hp, Option.bind_some]
  rfl

/-- The quota for a limit of `l` millicores does not run over, or only so far that it fits again. -/
def QuotaFits (l : Int) : Prop :=
  100000000 * l < 9223372036854775808
    ∨ (1844674407370955161600000 ≤ 100000000 * l + 9223372036854775808
      ∧ 100000000 * l < 1844674407370955161600000)

theorem quotaFits_of_nonneg (hx : x = 100000000 * l - j * 18446744073709551616) (hlw : 0 ≤ x)
    (hh : x < 9223372036854775808) (hl : 0 < l) :
  x / 100000 % 18446744073709551616 = 1000 * l ↔ QuotaFits l
  := by
  unfold QuotaFits
  have hsm : x / 100000 % 18446744073709551616 = x / 100000 :=
    Int.emod_eq_of_lt (by omega) (by omega)
  constructor
  · intro hv
    omega
  · rintro (hf | hf)
    · obtain h | rfl | h : j ≤ -1 ∨ j = 0 ∨ 1 ≤ j := by omega
      all_goals omega
    · obtain h | h : j ≤ 99999 ∨ 100000 ≤ j := by omega
      all_goals omega

theorem quotaFits_of_neg (hx : -x = 100000000 * l - j * 18446744073709551616) (hlw : 0 < x)
    (hh : x ≤ 9223372036854775808) (hl : 0 < l) :
  -(x / 100000) % 18446744073709551616 = 1000 * l ↔ QuotaFits l
  := by
  unfold QuotaFits
  have hmd : -(x / 100000) % 18446744073709551616
      = if x / 100000 = 0 then 0 else 18446744073709551616 - x / 100000 := by
    split_ifs
    all_goals omega
  rw [hmd]
  constructor
  · intro hv
    split_ifs at hv
    all_goals omega
  · rintro (hf | hf)
    · obtain h | h : j ≤ 0 ∨ 1 ≤ j := by omega
      all_goals omega
    · obtain h | rfl | h : j ≤ 99999 ∨ j = 100000 ∨ 100001 ≤ j := by omega
      · omega
      · omega
      · omega

theorem tdiv_cases (x d : Int) :
  (0 ≤ x ∧ x.tdiv d = x / d) ∨ (x < 0 ∧ x.tdiv d = -(-x / d))
  := by
  by_cases hx : 0 ≤ x
  · exact .inl ⟨hx, Int.tdiv_eq_ediv_of_nonneg hx⟩
  · refine .inr ⟨by omega, ?_⟩
    rw [← Int.tdiv_eq_ediv_of_nonneg (by omega), Int.neg_tdiv, Int.neg_neg]

theorem quota_iff (hl : 0 < l) (hlt : l < 9223372036854775808) :
  cpuMaxToQuotaPerSecUS (newCPUMax (some (toSigned (l * 100)))) = some (1000 * l) ↔ QuotaFits l
  := by
  rw [cpuMaxToQuotaPerSecUS_newCPUMax]
  obtain ⟨k, hk, hkl, hkh⟩ := toSigned_cases (l * 100)
  generalize toSigned (l * 100) = q at *
  obtain ⟨i, hi, hil, hih⟩ := toSigned_cases (q * 1000000)
  generalize toSigned (q * 1000000) = x at *
  split_ifs with hq
  · refine ⟨fun h => (by cases h), fun hf => ?_⟩
    have hsm : l ≤ 18446744073709551 := by
      unfold QuotaFits at hf
      omega
    obtain h | h : k ≤ 0 ∨ 1 ≤ k := by omega
    all_goals omega
  · rw [Option.some_inj, toUnsigned]
    -- the division rounds towards zero
    cases tdiv_cases x 100000 with
    | inl h =>
      rw [h.2]
      exact quotaFits_of_nonneg (j := 1000000 * k + i) (by omega) h.1 hih hl
    | inr h =>
      rw [h.2]
      exact quotaFits_of_neg (j := 1000000 * k + i) (by omega) (by omega) (by omega) hl

theorem memory_iff (hm : 0 < m) (hlt : m < 9223372036854775808)
    (hmm : cfg.memoryLimitBytes = toUnsigned m)
    (hsw : cfg.swapLimitBytes = calculateSwap (toUnsigned m)) :
  (⟨"MemoryMax", m⟩ ∈ propertiesOf cfg ∧ ⟨"MemorySwapMax", 2 * m⟩ ∈ propertiesOf cfg)
    ↔ m < 4611686018427387904
  := by
  have hse : toUnsigned m = m := Int.emod_eq_of_lt (by omega) (by omega)
  have hdo : calculateSwap m = 2 * m := by
    rw [calculateSwap, toUnsigned]
    omega
  rw [mem_propertiesOf, mem_propertiesOf, hmm, hsw, hse, hdo, toSigned_eq_self (by omega) hlt]
  obtain ⟨k, hk, hlw, hh⟩ := toSigned_cases (2 * m)
  simp
  omega

def effective (own shared : Option Int64) : Int64 :=
  if own.getD 0 = 0 then shared.getD 0 else own.getD 0

section Limits

variable (pod : Option Requirements) (c : Requirements)

def cpuLimit : Int64 := effective c.limits.cpu (pod.bind (·.limits.cpu))

def cpuRequest : Int64 := effective c.requests.cpu (pod.bind (·.requests.cpu))

def memoryLimit : Int64 := effective c.limits.memory (pod.bind (·.limits.memory))

theorem extractResourceLimits_eq :
  extractResourceLimits pod c oomScoreAdjust
    = ⟨toUnsigned (memoryLimit pod c).toInt, calculateSwap (toUnsigned (memoryLimit pod c).toInt),
      cpuLimit pod c, cpuRequest pod c, oomScoreAdjust⟩
  := by
  have ho (own : Option Int64) : (if own.getD 0 = 0 then 0 else own.getD 0) = own.getD 0 := by
    split_ifs with h
    · exact h.symm
    · rfl
  have hz (x : Int64) : toUnsigned x.toInt = 0 ↔ x = 0 := by
    have hlw := x.le_toInt
    have hh := x.toInt_lt
    rw [← Int64.toInt_inj, toUnsigned]
    change _ ↔ x.toInt = 0
    omega
  have hme (o : Option Int64) : (o.elim (0, 0) fun mem =>
      (toUnsigned mem.toInt, calculateSwap (toUnsigned mem.toInt)))
      = (toUnsigned (o.getD 0).toInt, calculateSwap (toUnsigned (o.getD 0).toInt)) := by
    cases o with
    | _ => rfl
  simp only [extractResourceLimits, hme, memoryLimit, cpuLimit, cpuRequest, effective]
  cases pod with
  | none => simp only [Option.bind_none, Option.getD_none, ho]
  | some pod =>
    simp only [Option.bind_some, hz]
    by_cases hmm : c.limits.memory.getD 0 = 0
    · cases pod.limits.memory with
      | _ => simp [hmm]
    · simp only [if_neg hmm]

end Limits

/-- The shares for a request of `r` millicores. -/
def sharesOf (r : Int) : Int :=
  min (max ((toSigned (r * 1024)).tdiv 1000) 2) 262144

def weightOf (r : Int) : Int :=
  1 + (sharesOf r - 2) * 9999 / 262142

theorem sharesOf_bounds (r : Int) :
  2 ≤ sharesOf r ∧ sharesOf r ≤ 262144
  := by
  unfold sharesOf
  omega

theorem toInt_ite {a b x y : Int64} :
  (if a ≤ b then x else y).toInt = if a.toInt ≤ b.toInt then x.toInt else y.toInt
  := by
  simp only [Int64.le_iff_toInt_le, apply_ite Int64.toInt]

theorem toInt_shares (r : Int64) :
  (min (max (r * 1024 / 1000) minCPUShares) maxCPUShares).toInt = sharesOf r.toInt
  := by
  have hdi : (r * 1024 / 1000).toInt = (toSigned (r.toInt * 1024)).tdiv 1000 := by
    rw [Int64.toInt_div, Int64.toInt_mul]
    change toSigned ((toSigned (r.toInt * 1024)).tdiv 1000) = _
    obtain ⟨_, _, hlw, hh⟩ := toSigned_cases (r.toInt * 1024)
    have hca := tdiv_cases (toSigned (r.toInt * 1024)) 1000
    exact toSigned_eq_self (by omega) (by omega)
  change (if (if _ ≤ _ then _ else _) ≤ _ then (if _ ≤ _ then _ else _) else _ : Int64).toInt = _
  simp only [toInt_ite, hdi]
  change (if (if _ ≤ (2 : Int) then 2 else _) ≤ 262144 then (if _ ≤ 2 then 2 else _)
    else 262144) = _
  unfold sharesOf
  split_ifs
  all_goals omega

theorem toNat_weight (hr : 0 < r) :
  ((milliCPUToCPUWeight r).toNat : Int) = weightOf r.toInt
  := by
  have hb := sharesOf_bounds r.toInt
  rw [milliCPUToCPUWeight, if_neg (Int64.not_le.2 hr)]
  have hsh := toInt_shares r
  dsimp only
  generalize min (max (r * 1024 / 1000) minCPUShares) maxCPUShares = shares at *
  have hv : (1 + (shares - minCPUShares) * 9999 / (maxCPUShares - minCPUShares)).toInt
      = weightOf r.toInt := by
    rw [Int64.toInt_add, Int64.toInt_div, Int64.toInt_mul, Int64.toInt_sub, hsh, weightOf]
    generalize sharesOf r.toInt = s at *
    change toSigned (1 + toSigned ((toSigned (toSigned (s - 2) * 9999)).tdiv 262142)) = _
    rw [toSigned_eq_self (n := s - 2) (by omega) (by omega),
      toSigned_eq_self (n := (s - 2) * 9999) (by omega) (by omega),
      Int.tdiv_eq_ediv_of_nonneg (by omega),
      toSigned_eq_self (n := (s - 2) * 9999 / 262142) (by omega) (by omega),
      toSigned_eq_self (by omega) (by omega)]
  generalize 1 + (shares - minCPUShares) * 9999 / (maxCPUShares - minCPUShares) = x at *
  have hbm : x.toInt = toSigned x.toUInt64.toNat := BitVec.toInt_eq_toNat_bmod x.toBitVec
  have hlt := x.toUInt64.toNat_lt
  obtain ⟨k, hk, hlw, hh⟩ := toSigned_cases x.toUInt64.toNat
  unfold weightOf at *
  omega

def WeightFits (r : Int) : Prop :=
  r < 9007199254740992 ∨ 262144000 ≤ toSigned (r * 1024)

theorem weightFits_iff (hr : 0 < r) :
  (∀ r' ≤ r, 0 < r' → weightOf r' ≤ weightOf r) ↔ WeightFits r
  := by
  have hca := tdiv_cases (toSigned (r * 1024)) 1000
  have hde : sharesOf r = min (max ((toSigned (r * 1024)).tdiv 1000) 2) 262144 := rfl
  constructor
  · intro hmo
    by_contra hf
    unfold WeightFits at hf
    -- a request for which the shares are the largest
    have hla : sharesOf 256000 = 262144 := by decide
    have hwe := hmo 256000 (by omega) (by decide)
    unfold weightOf at hwe
    omega
  · intro hf r' hle hr'
    have hb := sharesOf_bounds r'
    have hsh : sharesOf r' ≤ sharesOf r := by
      cases hf with
      | inl hsm =>
        unfold sharesOf
        rw [toSigned_eq_self (by omega) (by omega), toSigned_eq_self (by omega) (by omega),
          Int.tdiv_eq_ediv_of_nonneg (by omega), Int.tdiv_eq_ediv_of_nonneg (by omega)]
        omega
      | inr hlr => omega
    unfold weightOf
    omega

def Translated (pod : Option Requirements) (c : Requirements) (oomScoreAdjust : Int) : Prop :=
  let cfg := extractResourceLimits pod c oomScoreAdjust
  (0 < cpuLimit pod c →
      ⟨"CPUQuotaPerSecUSec", 1000 * (cpuLimit pod c).toInt⟩ ∈ propertiesOf cfg)
    ∧ (0 < memoryLimit pod c →
      ⟨"MemoryMax", (memoryLimit pod c).toInt⟩ ∈ propertiesOf cfg
        ∧ ⟨"MemorySwapMax", 2 * (memoryLimit pod c).toInt⟩ ∈ propertiesOf cfg)
    ∧ (0 < cpuRequest pod c → ∃ w, ⟨"CPUWeight", w⟩ ∈ propertiesOf cfg ∧ 1 ≤ w ∧ w ≤ 10000
      ∧ ∀ r ≤ cpuRequest pod c, 0 < r →
        ∀ w', ⟨"CPUWeight", w'⟩ ∈ propertiesOf { cfg with cpuRequestMillis := r } → w' ≤ w)

theorem mem_weight_iff (cfg : PodConfig) (h : 0 < cfg.cpuRequestMillis) :
  ⟨"CPUWeight", v⟩ ∈ propertiesOf cfg ↔ v = weightOf cfg.cpuRequestMillis.toInt
  := by
  have hv := toNat_weight h
  have hb := sharesOf_bounds cfg.cpuRequestMillis.toInt
  have hps : 0 < (milliCPUToCPUWeight cfg.cpuRequestMillis).toNat := by
    unfold weightOf at hv
    omega
  rw [mem_propertiesOf, hv]
  simp [hps]

theorem weight_iff (hr : 0 < r) (hre : cfg.cpuRequestMillis = r) :
  (∃ w, ⟨"CPUWeight", w⟩ ∈ propertiesOf cfg ∧ 1 ≤ w ∧ w ≤ 10000
      ∧ ∀ r' ≤ r, 0 < r' →
        ∀ w', ⟨"CPUWeight", w'⟩ ∈ propertiesOf { cfg with cpuRequestMillis := r' } → w' ≤ w)
    ↔ WeightFits r.toInt
  := by
  have hps : 0 < r.toInt := Int64.lt_iff_toInt_lt.1 hr
  have hb := sharesOf_bounds r.toInt
  rw [← weightFits_iff hps]
  constructor
  · rintro ⟨w, hw, _, _, hmo⟩ r' hle hr'
    have hint : (Int64.ofInt r').toInt = r' := by
      have := r.toInt_lt
      rw [Int64.toInt_ofInt]
      exact toSigned_eq_self (by omega) (by omega)
    have hpo : 0 < Int64.ofInt r' := Int64.lt_iff_toInt_lt.2 (by rw [hint]; exact hr')
    obtain rfl := (mem_weight_iff cfg (hre ▸ hr)).1 hw
    rw [hre] at hmo
    have := hmo (Int64.ofInt r') (Int64.le_iff_toInt_le.2 (by rw [hint]; exact hle)) hpo _
      ((mem_weight_iff { cfg with cpuRequestMillis := Int64.ofInt r' } hpo).2 rfl)
    rwa [hint] at this
  · intro hmo
    refine ⟨weightOf r.toInt, (mem_weight_iff cfg (hre ▸ hr)).2 (hre ▸ rfl), ?_, ?_, ?_⟩
    · unfold weightOf
      omega
    · unfold weightOf
      omega
    · intro r' hle hr' w' hw'
      obtain rfl := (mem_weight_iff { cfg with cpuRequestMillis := r' } hr').1 hw'
      exact hmo _ (Int64.le_iff_toInt_le.1 hle) (Int64.lt_iff_toInt_lt.1 hr')

/-- All limits come through exactly if quota and weight fit, and the memory can be doubled. -/
theorem properties_translated_iff (pod : Option Requirements) (c : Requirements)
    (oomScoreAdjust : Int) :
  Translated pod c oomScoreAdjust
    ↔ (0 < cpuLimit pod c → QuotaFits (cpuLimit pod c).toInt)
      ∧ (0 < memoryLimit pod c → (memoryLimit pod c).toInt < 4611686018427387904)
      ∧ (0 < cpuRequest pod c → WeightFits (cpuRequest pod c).toInt)
  := by
  rw [Translated, extractResourceLimits_eq]
  refine and_congr (imp_congr_right fun h => ?_) (and_congr (imp_congr_right fun h => ?_)
    (imp_congr_right fun h => ?_))
  · have hps : 0 < (cpuLimit pod c).toInt := Int64.lt_iff_toInt_lt.1 h
    rw [mem_propertiesOf, ← quota_iff hps (Int64.toInt_lt _)]
    simp [hps]
  · exact memory_iff (Int64.lt_iff_toInt_lt.1 h) (Int64.toInt_lt _) rfl rfl
  · exact weight_iff h rfl

theorem properties_lost :
  propertiesOf (extractResourceLimits none
      { limits := { cpu := some 100000000000000000, memory := some 4611686018427387904 }
        requests := { cpu := some 9007199254740992 } } 0)
    = [⟨"CPUWeight", 1⟩, ⟨"MemoryMax", 4611686018427387904⟩, ⟨"OOMScoreAdjust", 0⟩]
  := by
  decide +kernel

end Periapsis.Cgroup
