import Mathlib.Data.List.Basic

/-!
# The steps of a rollout

The replicas of a deployment are brought to a target in steps of at most a given size.
-/

namespace Periapsis.Apsis

def maxInt64 : Int := 9223372036854775807

def maxInt32 : Int := 2147483647

def wrap64 (n : Int) : Int :=
  n.bmod 18446744073709551616

def wrap32 (n : Int) : Int :=
  n.bmod 4294967296

structure RolloutStep where
  cur : Int
  next : Int
  deriving DecidableEq

def stepsWhile (ahead : Int → Bool) (next : Int → Int) : Nat → Int → Option (List RolloutStep)
  | fuel, cur =>
    if ahead cur then
      match fuel with
      | 0 => none
      | fuel + 1 => (stepsWhile ahead next fuel (next cur)).map (⟨cur, next cur⟩ :: ·)
    else some []

def nextUp (target stepSize cur : Int) : Int :=
  let next := wrap64 (cur + stepSize)
  if next > target then target else next

def nextDown (target stepSize cur : Int) : Int :=
  let next := wrap64 (cur - stepSize)
  if next < target then target else next

def stepsFor (fuel : Nat) (current target stepSize : Int) : Option (List RolloutStep) :=
  if target > current then stepsWhile (· < target) (nextUp target stepSize) fuel current
  else stepsWhile (· > target) (nextDown target stepSize) fuel current

def RolloutStep.replicas (s : RolloutStep) : Int :=
  wrap32 s.next

/-- A step toward the target, not too large and not beyond it. -/
def RolloutStep.Toward (target stepSize : Int) (s : RolloutStep) : Prop :=
  (s.cur < s.next ∧ s.next ≤ s.cur + stepSize ∧ s.next ≤ target)
    ∨ (s.next < s.cur ∧ s.cur - stepSize ≤ s.next ∧ target ≤ s.next)

def Chain (target stepSize : Int) : Int → List RolloutStep → Prop
  | cur, [] => cur = target
  | cur, s :: steps =>
    s.cur = cur ∧ s.Toward target stepSize ∧ s.replicas = s.next
      ∧ Chain target stepSize s.next steps

variable {target stepSize cur : Int}

theorem wrap64_eq {n : Int} (hlo : -maxInt64 - 1 ≤ n) (hh : n ≤ maxInt64) :
  wrap64 n = n
  := by
  unfold maxInt64 at *
  rw [wrap64, Int.bmod_def]
  split_ifs
  all_goals omega

theorem wrap32_eq {n : Int} (hlo : 0 ≤ n) :
  wrap32 n = n ↔ n ≤ maxInt32
  := by
  unfold maxInt32
  rw [wrap32, Int.bmod_def]
  split_ifs
  all_goals omega

theorem chain_stepsWhile {ahead : Int → Bool} {next : Int → Int} {I : Int → Prop}
    (distance : Int → Nat) (hd : ∀ n, I n → ahead n = false → n = target)
    (hne : ∀ n, I n → ahead n → I (next n) ∧ distance (next n) < distance n
      ∧ RolloutStep.Toward target stepSize ⟨n, next n⟩ ∧ wrap32 (next n) = next n)
    (fuel : Nat) (hfu : distance cur ≤ fuel) (hcu : I cur) :
  ∃ steps, stepsWhile ahead next fuel cur = some steps ∧ Chain target stepSize cur steps
  := by
  induction fuel generalizing cur with
  | zero =>
    cases ha : ahead cur with
    | true =>
      have := (hne cur hcu ha).2.1
      omega
    | false => exact ⟨[], by rw [stepsWhile, ha]; rfl, hd cur hcu ha⟩
  | succ fuel ih =>
    cases ha : ahead cur with
    | true =>
      obtain ⟨hi, hls, hto, hw⟩ := hne cur hcu ha
      obtain ⟨steps, hs, hc⟩ := ih (by omega) hi
      refine ⟨⟨cur, next cur⟩ :: steps, ?_, rfl, hto, hw, hc⟩
      rw [stepsWhile, ha, hs]
      rfl
    | false => exact ⟨[], by rw [stepsWhile, ha]; rfl, hd cur hcu ha⟩

theorem chain_up (hc : 0 ≤ cur) (hlt : cur < target) (ht : target ≤ maxInt32)
    (hst : 0 < stepSize) (hf : cur + stepSize ≤ maxInt64) :
  ∃ fuel steps, stepsWhile (· < target) (nextUp target stepSize) fuel cur = some steps
    ∧ Chain target stepSize cur steps
  := by
  -- later steps fit because the size is then below the target
  refine ⟨_, chain_stepsWhile (I := fun n => 0 ≤ n ∧ n ≤ target
    ∧ (n < target → n + stepSize ≤ maxInt64)) (fun n => (target - n).toNat) ?_ ?_ _
    (Nat.le_refl _) ⟨hc, by omega, fun _ => hf⟩⟩
  · intro n hn ha
    have := of_decide_eq_false ha
    omega
  · intro n hn ha
    have hlt : n < target := of_decide_eq_true ha
    have hwr : wrap64 (n + stepSize) = n + stepSize :=
      wrap64_eq (by unfold maxInt64; omega) (hn.2.2 hlt)
    have hsi : maxInt32 + maxInt32 ≤ maxInt64 := by decide
    have hw := fun h => (wrap32_eq (n := nextUp target stepSize n) h).2
    unfold RolloutStep.Toward
    rw [nextUp, hwr] at *
    dsimp only at *
    split_ifs at *
    all_goals exact ⟨by omega, by omega, .inl (by omega), hw (by omega) (by omega)⟩

theorem chain_down (hc : cur ≤ maxInt32) (hle : target ≤ cur) (ht : 0 ≤ target)
    (hst : 0 < stepSize) (hsi : stepSize ≤ maxInt64) :
  ∃ fuel steps, stepsWhile (· > target) (nextDown target stepSize) fuel cur = some steps
    ∧ Chain target stepSize cur steps
  := by
  refine ⟨_, chain_stepsWhile (I := fun n => target ≤ n ∧ n ≤ maxInt32)
    (fun n => (n - target).toNat) ?_ ?_ _ (Nat.le_refl _) ⟨hle, hc⟩⟩
  · intro n hn ha
    have := of_decide_eq_false ha
    omega
  · intro n hn ha
    have hlt : target < n := of_decide_eq_true ha
    have hls : maxInt32 ≤ maxInt64 := by decide
    have hwr : wrap64 (n - stepSize) = n - stepSize := wrap64_eq (by omega) (by omega)
    have hw := fun h => (wrap32_eq (n := nextDown target stepSize n) h).2
    unfold RolloutStep.Toward
    rw [nextDown, hwr] at *
    dsimp only at *
    split_ifs at *
    all_goals exact ⟨by omega, by omega, .inr (by omega), hw (by omega) (by omega)⟩

theorem Chain.written {steps : List RolloutStep} (hc : Chain target stepSize cur steps) :
  cur = target ∨ wrap32 target = target
  := by
  induction steps generalizing cur with
  | nil => exact .inl hc
  | cons s steps ih =>
    obtain ⟨_, _, hw, hr⟩ := hc
    cases ih hr with
    | inl hen => exact .inr (hen ▸ hw)
    | inr hl => exact .inr hl

theorem fits_of_chain (hcr : 0 ≤ cur) (hcu : cur ≤ maxInt32) (hlt : cur < target)
    (hsi : stepSize ≤ maxInt64)
    (hs : stepsWhile (· < target) (nextUp target stepSize) fuel cur = some steps)
    (hc : Chain target stepSize cur steps) :
  cur + stepSize ≤ maxInt64
  := by
  by_contra ho
  have hne : nextUp target stepSize cur < 0 := by
    unfold maxInt64 maxInt32 at *
    rw [nextUp, wrap64, Int.bmod_def]
    split_ifs
    all_goals omega
  cases fuel with
  | zero =>
    rw [stepsWhile, if_pos (decide_eq_true hlt)] at hs
    cases hs
  | succ fuel =>
    rw [stepsWhile, if_pos (decide_eq_true hlt)] at hs
    obtain ⟨rest, _, rfl⟩ := Option.map_eq_some_iff.1 hs
    have hto := hc.2.1
    unfold RolloutStep.Toward at hto
    dsimp only at hto
    omega

/-- The steps end, lead to the target and are written as they are, exactly if the target fits into
32 bits and the first step up does not run over. -/
theorem stepsFor_chain_iff {current target stepSize : Int}
    (hcurrent : 0 ≤ current ∧ current ≤ maxInt32) (htarget : 0 ≤ target ∧ target ≤ maxInt64)
    (hstep : 0 < stepSize ∧ stepSize ≤ maxInt64) :
  (∃ fuel steps, stepsFor fuel current target stepSize = some steps
    ∧ Chain target stepSize current steps)
    ↔ target ≤ maxInt32 ∧ (target ≤ current ∨ current + stepSize ≤ maxInt64)
  := by
  constructor
  · rintro ⟨fuel, steps, hs, hc⟩
    refine ⟨?_, ?_⟩
    · cases hc.written with
      | inl hen => exact hen ▸ hcurrent.2
      | inr hl => exact (wrap32_eq htarget.1).1 hl
    · by_cases hlt : current < target
      · rw [stepsFor, if_pos hlt] at hs
        exact .inr (fits_of_chain hcurrent.1 hcurrent.2 hlt hstep.2 hs hc)
      · exact .inl (by omega)
  · rintro ⟨hsm, hf⟩
    unfold stepsFor
    by_cases hlt : current < target
    · simp only [gt_iff_lt, if_pos hlt]
      exact chain_up hcurrent.1 hlt hsm hstep.1 (by omega)
    · simp only [gt_iff_lt, if_neg hlt]
      exact chain_down hcurrent.2 (by omega) htarget.1 hstep.1 hstep.2

theorem stepsFor_chain_two :
  (∃ fuel steps, stepsFor fuel 1 4 2 = some steps ∧ Chain 4 2 1 steps)
    ↔ (4 : Int) ≤ maxInt32 ∧ ((4 : Int) ≤ 1 ∨ 1 + 2 ≤ maxInt64)
  := stepsFor_chain_iff (by decide) (by decide) (by decide)

/-- The first step from one replica goes to the least machine integer; a target that does not fit is
written as a negative number. -/
theorem stepsFor_runs_over :
  stepsFor 3 1 3 maxInt64 = some [⟨1, -maxInt64 - 1⟩, ⟨-maxInt64 - 1, -1⟩, ⟨-1, 3⟩]
    ∧ ¬ Chain 3 maxInt64 1 [⟨1, -maxInt64 - 1⟩, ⟨-maxInt64 - 1, -1⟩, ⟨-1, 3⟩]
    ∧ stepsFor 1 0 2147483648 2147483648 = some [⟨0, 2147483648⟩]
    ∧ RolloutStep.replicas ⟨0, 2147483648⟩ = -2147483648
  := by
  refine ⟨by decide, fun hc => ?_, by decide, by decide⟩
  exact absurd hc.2.1 (by unfold RolloutStep.Toward; decide)

end Periapsis.Apsis
