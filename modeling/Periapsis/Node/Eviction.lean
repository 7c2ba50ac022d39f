import Mathlib.Data.List.Basic

/-!
# Eviction of pods under memory pressure

A round looks at the pods that run, the most expendable first.
-/

namespace Periapsis.Node

open List Int64 Nat

inductive PodQOSClass where
  | bestEffort
  | burstable
  | guaranteed
  deriving DecidableEq

structure Amount where
  value : Int64 := 0
  milliValue : Int64 := 0
  isZero : Bool := true
  deriving DecidableEq

structure AmountList where
  cpu : Option Amount := none
  memory : Option Amount := none
  deriving DecidableEq

structure EvictionContainer where
  limits : Option AmountList := none
  requests : Option AmountList := none
  workingSet : Option UInt64 := none
  deriving DecidableEq

structure EvictionEntry where
  uid : String
  running : Bool
  deleting : Bool
  containers : List EvictionContainer
  deriving DecidableEq

structure PodEvictionCandidate where
  uid : String
  qosClass : PodQOSClass
  oomScore : Int
  memoryUsage : UInt64
  deriving DecidableEq

def evictionMinFreeBytes : UInt64 := 128 * 1024 * 1024

/-- The memory of a list of amounts, zero if there is none. -/
def memoryOf (list : Option AmountList) : Amount :=
  (list.bind (·.memory)).getD {}

def cpuOf (list : Option AmountList) : Amount :=
  (list.bind (·.cpu)).getD {}

def EvictionContainer.isGuaranteed (c : EvictionContainer) : Bool :=
  !((memoryOf c.requests).isZero || (memoryOf c.limits).isZero || (cpuOf c.requests).isZero
    || (cpuOf c.limits).isZero || (memoryOf c.requests).value != (memoryOf c.limits).value
    || (cpuOf c.requests).milliValue != (cpuOf c.limits).milliValue)

/-- The score for the OOM killer; `ratio` is the thousandfold share of memory, in the floating point
arithmetic of the host. -/
def calculateOOMScore (ratio : Int64 → Int64 → Int) (containers : List EvictionContainer)
    (nodeMemoryBytes : Int64) : Int × PodQOSClass :=
  if containers.all fun c => c.limits.isNone && c.requests.isNone then (1000, .bestEffort)
  else if containers.all EvictionContainer.isGuaranteed then (-998, .guaranteed)
  else
    let totalMemRequest := containers.foldl (fun total c => total + (memoryOf c.requests).value) 0
    if nodeMemoryBytes > 0 ∧ totalMemRequest > 0 then
      (min (max (2 + ratio totalMemRequest nodeMemoryBytes) 2) 999, .burstable)
    else (2, .burstable)

def buildEvictionCandidates (ratio : Int64 → Int64 → Int) (nodeMemBytes : Int64)
    (entries : List EvictionEntry) : List PodEvictionCandidate :=
  (entries.filter fun e => e.running && !e.deleting).map fun e =>
    let (oomScore, qosClass) := calculateOOMScore ratio e.containers nodeMemBytes
    { uid := e.uid, qosClass, oomScore
      memoryUsage := e.containers.foldl (fun usage c => usage + c.workingSet.getD 0) 0 }

def qosOrdinal : PodQOSClass → Nat
  | .bestEffort => 0
  | .burstable => 1
  | .guaranteed => 2

def evictedFirst (a b : PodEvictionCandidate) : Bool :=
  if a.qosClass ≠ b.qosClass then qosOrdinal a.qosClass < qosOrdinal b.qosClass
  else if a.oomScore ≠ b.oomScore then a.oomScore > b.oomScore
  else a.memoryUsage > b.memoryUsage

structure SortedCandidates (candidates sorted : List PodEvictionCandidate) : Prop where
  perm : sorted.Perm candidates
  sorted : sorted.Pairwise fun a b => evictedFirst b a = false

def evictUntil {F : Type} [Add F] (enough : F → Bool) (usage : PodEvictionCandidate → F) :
  F → List PodEvictionCandidate → List PodEvictionCandidate
  | _, [] => []
  | freed, c :: candidates =>
    if enough freed then [] else c :: evictUntil enough usage (freed + usage c) candidates

def enoughFreed (freed : UInt64) : Bool :=
  freed > 0 && freed ≥ evictionMinFreeBytes

variable (nodeMemBytes : Int64)

def belowSoft (workingSet : UInt64) (freed : Nat) : Bool :=
  100 * ((workingSet.toNat : Int) - freed) < 90 * nodeMemBytes.toInt

def atHard (workingSet : UInt64) : Bool :=
  95 * nodeMemBytes.toInt ≤ 100 * (workingSet.toNat : Int)

def checkAndEvict (workingSet : Option UInt64)
    (sorted : List PodEvictionCandidate) : List PodEvictionCandidate :=
  if nodeMemBytes ≤ 0 then []
  else
    match workingSet with
    | none => []
    | some workingSet =>
      if belowSoft nodeMemBytes workingSet 0 then []
      else if atHard nodeMemBytes workingSet then
        evictUntil enoughFreed PodEvictionCandidate.memoryUsage 0 sorted
      else sorted.take 1

/-- What is freed by evicting the first `k` candidates. -/
def freedBy {F : Type} [Add F] (usage : PodEvictionCandidate → F) (freed : F)
    (sorted : List PodEvictionCandidate) (k : Nat) : F :=
  (sorted.take k).foldl (fun freed c => freed + usage c) freed

structure EvictionRound (nodeMemBytes : Int64) (workingSet : UInt64)
    (candidates sorted : List PodEvictionCandidate) : Prop where
  ordered : (checkAndEvict nodeMemBytes (some workingSet) sorted).Pairwise fun a b =>
    qosOrdinal a.qosClass ≤ qosOrdinal b.qosClass
  guaranteedLast : ∀ pre g post,
    checkAndEvict nodeMemBytes (some workingSet) sorted = pre ++ g :: post →
    g.qosClass = .guaranteed → ∀ c ∈ candidates, c.qosClass ≠ .guaranteed → c ∈ pre
  stops : checkAndEvict nodeMemBytes (some workingSet) sorted =
    evictUntil (belowSoft nodeMemBytes workingSet) (·.memoryUsage.toNat) 0 sorted

/-- Up to the first candidate behind which the node is below the soft threshold, the fixed number of
bytes is freed where this threshold is met, and nowhere else. -/
def FreesAlike (workingSet : UInt64) (sorted : List PodEvictionCandidate) : Prop :=
  ∀ k < sorted.length,
    (∀ i < k, ¬ belowSoft nodeMemBytes workingSet (freedBy (·.memoryUsage.toNat) 0 sorted i)) →
    (enoughFreed (freedBy PodEvictionCandidate.memoryUsage 0 sorted k)
      ↔ belowSoft nodeMemBytes workingSet (freedBy (·.memoryUsage.toNat) 0 sorted k))

variable {candidates sorted : List PodEvictionCandidate}

theorem evictUntil_prefix {F : Type} [Add F] (enough : F → Bool) (usage : PodEvictionCandidate → F)
    (freed : F) (sorted : List PodEvictionCandidate) :
  evictUntil enough usage freed sorted <+: sorted
  := by
  induction sorted generalizing freed with
  | nil => exact prefix_rfl
  | cons c sorted ih =>
    rw [evictUntil]
    split_ifs
    · exact nil_prefix
    · exact (prefix_cons_inj c).2 (ih _)

theorem evictUntil_eq_iff {F G : Type} [Add F] [Add G] {enough : F → Bool}
    {usage : PodEvictionCandidate → F} {enough' : G → Bool} {usage' : PodEvictionCandidate → G}
    (freed : F) (freed' : G) (sorted : List PodEvictionCandidate) :
  evictUntil enough usage freed sorted = evictUntil enough' usage' freed' sorted
    ↔ ∀ k < sorted.length, (∀ i < k, ¬ enough' (freedBy usage' freed' sorted i)) →
      (enough (freedBy usage freed sorted k) ↔ enough' (freedBy usage' freed' sorted k))
  := by
  induction sorted generalizing freed freed' with
  | nil => simp [evictUntil]
  | cons c sorted ih =>
    have hz : (∀ k < (c :: sorted).length,
          (∀ i < k, ¬ enough' (freedBy usage' freed' (c :: sorted) i)) →
          (enough (freedBy usage freed (c :: sorted) k)
            ↔ enough' (freedBy usage' freed' (c :: sorted) k)))
        ↔ (enough freed ↔ enough' freed') ∧ (¬ enough' freed' → ∀ k < sorted.length,
          (∀ i < k, ¬ enough' (freedBy usage' (freed' + usage' c) sorted i)) →
          (enough (freedBy usage (freed + usage c) sorted k)
            ↔ enough' (freedBy usage' (freed' + usage' c) sorted k))) := by
      constructor
      · intro h
        refine ⟨h 0 (succ_pos _) nofun, fun hn k hk hb => ?_⟩
        refine h (k + 1) (succ_lt_succ hk) fun i hi => ?_
        cases i with
        | zero => exact hn
        | succ i => exact hb i (lt_of_succ_lt_succ hi)
      · rintro ⟨hfi, hre⟩ k hk hb
        cases k with
        | zero => exact hfi
        | succ k =>
          exact hre (hb 0 (succ_pos k)) k (lt_of_succ_lt_succ hk)
            fun i hi => hb (i + 1) (succ_lt_succ hi)
    rw [hz, ← ih, evictUntil, evictUntil]
    by_cases hfr : enough freed
    all_goals
      by_cases hf : enough' freed'
      · simp [hfr, hf]
      · simp [hfr, hf]

theorem checkAndEvict_prefix (workingSet : Option UInt64) (sorted : List PodEvictionCandidate) :
  checkAndEvict nodeMemBytes workingSet sorted <+: sorted
  := by
  unfold checkAndEvict
  split_ifs
  · exact nil_prefix
  · cases workingSet with
    | none => exact nil_prefix
    | some workingSet =>
      dsimp only
      split_ifs
      · exact nil_prefix
      · exact evictUntil_prefix _ _ _ _
      · exact take_prefix 1 sorted

variable {nodeMemBytes}

theorem ordinal_le_of_not_first (h : evictedFirst b a = false) :
  qosOrdinal a.qosClass ≤ qosOrdinal b.qosClass
  := by
  unfold evictedFirst at h
  split_ifs at h with hcl
  · exact Nat.not_lt.1 (of_decide_eq_false h)
  all_goals exact Nat.le_of_eq (congrArg qosOrdinal (not_not.1 hcl).symm)

theorem ordinal_lt_guaranteed (hq : q ≠ .guaranteed) :
  qosOrdinal q < qosOrdinal .guaranteed
  := by
  cases q with
  | guaranteed => exact absurd rfl hq
  | _ => decide

theorem SortedCandidates.ordered (hs : SortedCandidates candidates sorted) :
  sorted.Pairwise fun a b => qosOrdinal a.qosClass ≤ qosOrdinal b.qosClass
  := hs.sorted.imp ordinal_le_of_not_first

theorem SortedCandidates.guaranteedLast (hs : SortedCandidates candidates sorted)
    {pre : List PodEvictionCandidate} {g : PodEvictionCandidate} (heq : sorted = pre ++ g :: post)
    (hg : g.qosClass = .guaranteed) {c : PodEvictionCandidate} (hc : c ∈ candidates)
    (hcl : c.qosClass ≠ .guaranteed) :
  c ∈ pre
  := by
  have hm := hs.perm.mem_iff.2 hc
  have ho := hs.ordered
  rw [heq] at hm ho
  refine (mem_append.1 hm).resolve_right fun hl => ?_
  cases mem_cons.1 hl with
  | inl hsa => exact hcl (hsa ▸ hg)
  | inr hp =>
    have hle := (pairwise_cons.1 (pairwise_append.1 ho).2.1).1 c hp
    have hlt := ordinal_lt_guaranteed hcl
    rw [hg] at hle
    omega

/-- Above the hard threshold a round does what it should exactly if the fixed number of bytes is
freed when the node gets below the soft threshold. -/
theorem checkAndEvict_round_iff {ratio : Int64 → Int64 → Int} {nodeMemBytes : Int64}
    {workingSet : UInt64} {entries : List EvictionEntry} {sorted : List PodEvictionCandidate}
    (hmem : 0 < nodeMemBytes) (hhard : atHard nodeMemBytes workingSet)
    (hsorted : SortedCandidates (buildEvictionCandidates ratio nodeMemBytes entries) sorted) :
  EvictionRound nodeMemBytes workingSet (buildEvictionCandidates ratio nodeMemBytes entries) sorted
    ↔ FreesAlike nodeMemBytes workingSet sorted
  := by
  have hpo : 0 < nodeMemBytes.toInt := lt_iff_toInt_lt.1 hmem
  have hn : ¬ nodeMemBytes ≤ 0 := fun h => by
    have := le_iff_toInt_le.1 h
    rw [toInt_zero] at this
    omega
  have hso : ¬ belowSoft nodeMemBytes workingSet 0 := by
    have := of_decide_eq_true hhard
    simp only [belowSoft, decide_eq_true_eq]
    omega
  have hr : checkAndEvict nodeMemBytes (some workingSet) sorted
      = evictUntil enoughFreed PodEvictionCandidate.memoryUsage 0 sorted := by
    simp only [checkAndEvict, if_neg hn, if_neg hso, if_pos hhard]
  rw [FreesAlike, ← evictUntil_eq_iff, ← hr]
  constructor
  · exact fun hr => hr.stops
  · intro hst
    have hin := checkAndEvict_prefix nodeMemBytes (some workingSet) sorted
    refine ⟨hsorted.ordered.sublist hin.sublist, ?_, hst⟩
    intro pre g post heq hg c hc hcl
    obtain ⟨rest, hre⟩ := hin
    rw [heq, append_assoc] at hre
    exact hsorted.guaranteedLast hre.symm hg hc hcl

def exampleEntry (uid : String) (workingSet : UInt64)
    (resources : Option AmountList := none) : EvictionEntry :=
  ⟨uid, true, false, [{ limits := resources, requests := resources, workingSet := workingSet }]⟩

def tenth : Amount := ⟨100, 100, false⟩

/-- A guaranteed, a burstable and a best-effort pod, and one that is being deleted. -/
def threeClasses : List EvictionEntry :=
  [exampleEntry "g" 50000000 (some ⟨some tenth, some tenth⟩),
    exampleEntry "u" 200000000 (some ⟨none, some tenth⟩), exampleEntry "e" 10000000,
    { exampleEntry "d" 900000000 with deleting := true }]

theorem checkAndEvict_round_classes :
  let sorted : List PodEvictionCandidate := [⟨"e", .bestEffort, 1000, 10000000⟩,
    ⟨"u", .burstable, 2, 200000000⟩, ⟨"g", .guaranteed, -998, 50000000⟩]
  EvictionRound 1000000000 960000000
      (buildEvictionCandidates (fun _ _ => 0) 1000000000 threeClasses) sorted
    ∧ checkAndEvict 1000000000 (some 960000000) sorted = sorted.take 2
  := by
  intro sorted
  have hfr : FreesAlike 1000000000 960000000 sorted := by
    unfold FreesAlike
    decide +kernel
  exact ⟨(checkAndEvict_round_iff (by decide) (by decide)
    ⟨by decide +kernel, by decide +kernel⟩).mpr hfr, by decide +kernel⟩

theorem checkAndEvict_one_too_many :
  let candidates := buildEvictionCandidates (fun _ _ => 0) 1000000000
    [exampleEntry "a" 100000000, exampleEntry "b" 100000000]
  checkAndEvict 1000000000 (some 960000000) candidates = candidates
    ∧ belowSoft 1000000000 960000000 (freedBy (·.memoryUsage.toNat) 0 candidates 1) = true
    ∧ candidates.length = 2 ∧ atHard 1000000000 960000000 = true
    ∧ candidates.Pairwise fun a b => evictedFirst b a = false
  := by
  decide +kernel

/-- No round spares a candidate that is to be evicted before one that it evicts; above all, a
guaranteed pod is evicted only once no others are left. -/
theorem checkAndEvict_expendable (nodeMemBytes : Int64) (workingSet : Option UInt64)
    (hsorted : SortedCandidates candidates sorted) :
  let evicted := checkAndEvict nodeMemBytes workingSet sorted
  ∀ e ∈ evicted, ∀ c ∈ candidates, c ∉ evicted → evictedFirst c e = false
    ∧ (e.qosClass = .guaranteed → c.qosClass = .guaranteed)
  := by
  intro evicted e he c hc hn
  obtain ⟨spared, hs⟩ := checkAndEvict_prefix nodeMemBytes workingSet sorted
  have hp := hsorted.sorted
  rw [← hs] at hp
  have hm : c ∈ evicted ++ spared := hs ▸ hsorted.perm.mem_iff.2 hc
  have hf := (pairwise_append.1 hp).2.2 e he c ((mem_append.1 hm).resolve_left hn)
  refine ⟨hf, fun hg => ?_⟩
  by_contra hne
  have hlt := ordinal_lt_guaranteed hne
  have hle := ordinal_le_of_not_first hf
  rw [hg] at hle
  omega

theorem checkAndEvict_expendable_soft :
  let sorted : List PodEvictionCandidate :=
    [⟨"b", .bestEffort, 1000, 1⟩, ⟨"a", .guaranteed, -998, 5⟩]
  checkAndEvict 1000 (some 920) sorted = sorted.take 1
    ∧ evictedFirst ⟨"a", .guaranteed, -998, 5⟩ ⟨"b", .bestEffort, 1000, 1⟩ = false
  := by
  intro sorted
  have hs : SortedCandidates sorted sorted := ⟨.refl _, by decide⟩
  exact ⟨by decide, (checkAndEvict_expendable 1000 (some 920) hs _ (by decide) _ (by decide)
    (by decide)).1⟩

end Periapsis.Node
