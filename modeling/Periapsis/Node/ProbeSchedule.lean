import Mathlib.Data.List.Chain
import Periapsis.Node.Probes

/-!
# The schedule of a probe

The first asking puts the last probe one period before the first one is due, so that one rule gives
all probes.
-/

namespace Periapsis.Node

open Corev1 Periapsis.Types List ContainerProbeState

def nanos (seconds : Int32) : Int := seconds.toInt * 1000000000

def periodOf (probe : Probe) : Int32 :=
  if probe.periodSeconds ≤ 0 then 10 else probe.periodSeconds

def period (probe : Probe) : Int := nanos (periodOf probe)

def delay (probe : Probe) : Int := nanos probe.initialDelaySeconds

variable {state : ContainerProbeState} {probeType : ProbeType} {probe : Probe}

section

variable (probeType probe)

/-- One asking at a time, with the jitter that is drawn if it is the first. -/
def ask (state : ContainerProbeState) (a : Int64 × Time) : ContainerProbeState × Bool :=
  let (state, due) := isDue state probeType probe.periodSeconds probe.initialDelaySeconds
    { jitter := a.1, now := a.2, sinceStart := a.2, sinceLast := a.2 }
  (if due then markProbed state probeType a.2 else state, due)

def probeTimes (state : ContainerProbeState) : List (Int64 × Time) → List Time
  | [] => []
  | a :: as =>
    let (state, due) := ask probeType probe state a
    if due then a.2 :: probeTimes state as else probeTimes state as

end

theorem toInt_seconds {n : Int64} (hl : -2147483648 ≤ n.toInt) (hu : n.toInt < 2147483648) :
  (n * second).toInt = n.toInt * 1000000000
  := by
  rw [Int64.toInt_mul]
  change (n.toInt * 1000000000).bmod (2 ^ 64) = n.toInt * 1000000000
  apply Int.bmod_eq_of_le
  all_goals omega

theorem toInt_nanos :
  (n.toInt64 * second).toInt = nanos n
  := by
  rw [toInt_seconds, Int32.toInt_toInt64, nanos]
  all_goals rw [Int32.toInt_toInt64]
  · exact n.le_toInt
  · exact n.toInt_lt

theorem nanos_bounds (n : Int32) :
  -2147483648000000000 ≤ nanos n ∧ nanos n < 2147483648000000000
  := by
  have hl := n.le_toInt
  have hu := n.toInt_lt
  unfold nanos
  omega

theorem period_pos (probe : Probe) :
  0 < period probe
  := by
  unfold period nanos periodOf
  split
  · decide
  next hn =>
    rw [Int32.le_iff_toInt_le, Int32.toInt_zero] at hn
    omega

theorem timeSub_lt_iff {t u : Int} (n : Int32) :
  timeSub t u < n.toInt64 * second ↔ ¬ u + nanos n ≤ t
  := by
  have hn := nanos_bounds n
  rw [Int64.lt_iff_toInt_lt, toInt_timeSub, toInt_nanos]
  omega

variable {last : Time}

theorem ask_of_last (h : state.lastProbeTime probeType = some last) (hs : state.startedAt ≠ 0) :
  ask probeType probe state a
    = if (0 < probe.initialDelaySeconds → state.startedAt + delay probe ≤ a.2)
        ∧ last + period probe ≤ a.2
      then (markProbed state probeType a.2, true) else (state, false)
  := by
  have hp : probePeriod probe.periodSeconds ≤ timeSub a.2 last
      ↔ last + period probe ≤ a.2 := by
    change (periodOf probe).toInt64 * second ≤ _ ↔ _
    rw [← Int64.not_lt, timeSub_lt_iff, not_not, period]
  have hd : timeSub a.2 state.startedAt < probe.initialDelaySeconds.toInt64 * second
      ↔ ¬ state.startedAt + delay probe ≤ a.2 := timeSub_lt_iff _
  unfold ask isDue
  rw [seed, h]
  dsimp only
  rw [h, Option.getD_some]
  simp only [hs, hp, hd, ne_eq, not_false_eq_true, true_and]
  by_cases hc : (0 < probe.initialDelaySeconds → state.startedAt + delay probe ≤ a.2)
      ∧ last + period probe ≤ a.2
  · rw [if_pos hc, if_neg (not_and_not_right.2 hc.1), decide_eq_true hc.2]
    rfl
  · split
    · rfl
    next hd =>
      rw [decide_eq_false (fun hl => hc ⟨not_and_not_right.1 hd, hl⟩)]
      rfl

theorem probeTimes_of_last (h : state.lastProbeTime probeType = some last)
    (hs : state.startedAt ≠ 0) :
  probeTimes probeType probe state (a :: as)
    = if (0 < probe.initialDelaySeconds → state.startedAt + delay probe ≤ a.2)
        ∧ last + period probe ≤ a.2
      then a.2 :: probeTimes probeType probe
        (markProbed state probeType a.2) as
      else probeTimes probeType probe state as
  := by
  rw [probeTimes, ask_of_last h hs]
  dsimp only
  split
  all_goals rfl

theorem probeTimes_chain (probe : Probe) (h : state.lastProbeTime probeType = some last)
    (hs : state.startedAt ≠ 0) (as : List (Int64 × Time)) :
  (last :: probeTimes probeType probe state as).IsChain
    fun t u => t + period probe ≤ u
  := by
  induction as generalizing state last with
  | nil => apply List.IsChain.singleton
  | cons a as ih =>
    rw [probeTimes_of_last h hs]
    split
    next hc => exact .cons_cons hc.2 (ih (by simp [markProbed]) hs)
    · exact ih h hs

theorem probeTimes_concat (h : state.lastProbeTime probeType = some last)
    (hs : state.startedAt ≠ 0) (hn : probeTimes probeType probe state as = []) :
  probeTimes probeType probe state (as ++ [a])
    = probeTimes probeType probe state [a]
  := by
  induction as with
  | nil => rfl
  | cons b as ih =>
    rw [cons_append]
    rw [probeTimes_of_last h hs] at hn ⊢
    split at hn
    · cases hn
    next hc =>
      rw [if_neg hc]
      exact ih hn

theorem probeTimes_first (probe : Probe) (hn : state.lastProbeTime probeType = none)
    (hs : state.startedAt ≠ 0) {a : Int64 × Time} (hj : 0 ≤ a.1 ∧ a.1 < (periodOf probe).toInt64) :
  ∃ last : Int, state.startedAt + delay probe ≤ last + period probe
    ∧ last < state.startedAt + delay probe
    ∧ ∀ as, probeTimes probeType probe state (a :: as)
      = probeTimes probeType probe
        (markProbed state probeType last) (a :: as)
  := by
  have hl := nanos_bounds probe.initialDelaySeconds
  have hp := nanos_bounds (periodOf probe)
  rw [Int64.le_iff_toInt_le, Int64.lt_iff_toInt_lt, Int32.toInt_toInt64, Int64.toInt_zero] at hj
  have hb := (periodOf probe).toInt_lt
  have hm : (a.1 * second).toInt = a.1.toInt * 1000000000 := toInt_seconds (by omega) (by omega)
  have hf : (probe.initialDelaySeconds.toInt64 * second + a.1 * second
      - probePeriod probe.periodSeconds).toInt
      = delay probe + a.1.toInt * 1000000000 - period probe := by
    change (_ + _ - (periodOf probe).toInt64 * second).toInt = nanos _ + _ - nanos _
    rw [Int64.toInt_sub, Int64.toInt_add, toInt_nanos, toInt_nanos, hm]
    rw [Int.bmod_sub_bmod, Int.bmod_eq_of_le]
    all_goals omega
  obtain ⟨last, hla⟩ : ∃ last : Int, last = state.startedAt + (delay probe
    + a.1.toInt * 1000000000 - period probe) := ⟨_, rfl⟩
  have hsd : state.seed probeType probe.periodSeconds probe.initialDelaySeconds
      { jitter := a.1, now := a.2, sinceStart := a.2, sinceLast := a.2 }
      = markProbed state probeType last := by
    rw [seed, hn]
    dsimp only
    rw [if_pos hs, hf, hla]
    rfl
  have hms (r : DueReadings) : (markProbed state probeType last).seed probeType probe.periodSeconds
      probe.initialDelaySeconds r = markProbed state probeType last := by
    simp [seed, markProbed]
  unfold period nanos at hla ⊢
  refine ⟨last, ?_, ?_, fun as => ?_⟩
  · change (_ : Int) ≤ _
    omega
  · omega
  · rw [probeTimes, probeTimes, ask, ask, isDue, isDue, hsd, hms]

/-- The first probe comes after start and delay, and no later than the first asking that is a
period after that; then each probe comes a period after the one before. -/
theorem probeTimes_schedule (probeType : ProbeType) (probe : Probe)
    (state : ContainerProbeState) (hn : state.lastProbeTime probeType = none)
    (hs : state.startedAt ≠ 0) (asks : List (Int64 × Time))
    (hj : ∀ a ∈ asks, 0 ≤ a.1 ∧ a.1 < (periodOf probe).toInt64) :
  let times := probeTimes probeType probe state
  (∀ t ∈ (times asks).head?, state.startedAt + delay probe ≤ t)
    ∧ (∀ as a, as ++ [a] <+: asks → times as = []
      → state.startedAt + delay probe + period probe ≤ a.2
      → times (as ++ [a]) = [a.2])
    ∧ (times asks).IsChain fun t u => t + period probe ≤ u
  := by
  intro times
  cases asks with
  | nil => simp [times, probeTimes]
  | cons a as =>
    obtain ⟨last, hl, hu, he⟩ := probeTimes_first probe hn hs (hj a (by simp))
    have hml : (markProbed state probeType last).lastProbeTime probeType = some last :=
      Function.update_self _ _ _
    have hch := probeTimes_chain probe hml hs (a :: as)
    rw [← he] at hch
    refine ⟨?_, ?_, hch.tail⟩
    · intro t ht
      apply Int.le_trans hl (hch.rel_head? ht)
    · intro bs b hb hnb ht
      have hp := period_pos probe
      have hpr : probeTimes probeType probe
          (markProbed state probeType last) [b] = [b.2] := by
        rw [probeTimes_of_last hml hs, if_pos, probeTimes]
        change (_ : Int) ≤ _ at ht
        constructor
        · intro _
          exact Int.le_trans (Int.le_add_of_nonneg_right (Int.le_of_lt hp)) ht
        · change (_ : Int) ≤ _
          omega
      cases bs with
      | nil =>
        obtain rfl : b = a := (cons_prefix_cons.mp hb).1
        rw [← hpr]
        exact he []
      | cons c bs =>
        obtain rfl : c = a := (cons_prefix_cons.mp hb).1
        rw [← hpr, ← probeTimes_concat hml hs ((he bs).symm.trans hnb)]
        exact he _

theorem probeTimes_schedule_ten :
  (probeTimes .liveness { initialDelaySeconds := 5, periodSeconds := 10 } { startedAt := 1 }
      [(2, 5000000001), (9, 17000000001)]).head? = some 17000000001
    ∧ 5000000001 ≤ (17000000001 : Time)
  := by
  refine ⟨by decide, ?_⟩
  apply (probeTimes_schedule .liveness { initialDelaySeconds := 5, periodSeconds := 10 }
    { startedAt := 1 } rfl (by decide) [(2, 5000000001), (9, 17000000001)] (by decide)).1
  decide

end Periapsis.Node
