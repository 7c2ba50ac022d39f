import Mathlib.Data.List.Basic

/-!
# Cyclic search

The numbers from `lo` to `hi` are searched from a given one on, and then from `lo`, for the first
that is free.
-/

namespace Search

def cyclicNext (lo hi n : ℕ) : ℕ :=
  if hi < n + 1 then lo else n + 1

def cyclicFind (lo hi : ℕ) (free : ℕ → Bool) (start : ℕ) : ℕ → ℕ → Option ℕ
  | 0, _ => none
  | fuel + 1, n =>
    if free n then some n
    else if cyclicNext lo hi n = start then none
    else cyclicFind lo hi free start fuel (cyclicNext lo hi n)

inductive Ends (lo hi : ℕ) (free : ℕ → Bool) (start : ℕ) : ℕ → Prop
  | found {n : ℕ} (h : free n = true) : Ends lo hi free start n
  | around {n : ℕ} (h : cyclicNext lo hi n = start) : Ends lo hi free start n
  | next {n : ℕ} (h : Ends lo hi free start (cyclicNext lo hi n)) : Ends lo hi free start n

def Ahead (lo hi start n m : ℕ) : Prop :=
  if n < start then n ≤ m ∧ m < start else (n ≤ m ∧ m ≤ hi) ∨ (lo ≤ m ∧ m < start)

def distance (lo hi start n : ℕ) : ℕ :=
  if n < start then start - n else hi + 1 - n + (start - lo)

variable {lo hi start n : ℕ} {free : ℕ → Bool}

theorem cyclicNext_range (hlo : lo ≤ hi) (hn : lo ≤ n) :
  lo ≤ cyclicNext lo hi n ∧ cyclicNext lo hi n ≤ hi
  := by
  unfold cyclicNext
  split
  all_goals omega

theorem ahead_iff (hlo : lo ≤ n) (hhi : n ≤ hi) (hs : lo ≤ start ∧ start ≤ hi) :
  Ahead lo hi start n m
    ↔ m = n ∨ (cyclicNext lo hi n ≠ start ∧ Ahead lo hi start (cyclicNext lo hi n) m)
  := by
  unfold Ahead cyclicNext
  split_ifs
  all_goals omega

theorem distance_cyclicNext (hlo : lo ≤ n) (hhi : n ≤ hi) (hs : lo ≤ start ∧ start ≤ hi)
    (hne : cyclicNext lo hi n ≠ start) :
  distance lo hi start n = distance lo hi start (cyclicNext lo hi n) + 1
  := by
  unfold distance
  unfold cyclicNext at hne ⊢
  split_ifs at hne ⊢
  all_goals omega

theorem ends_of_range (hs : lo ≤ start ∧ start ≤ hi) (hlo : lo ≤ n) (hhi : n ≤ hi) :
  Ends lo hi free start n
  := by
  -- every step comes nearer to where the search started
  induction hd : distance lo hi start n generalizing n with
  | zero =>
    unfold distance at hd
    split_ifs at hd
    all_goals omega
  | succ k ih =>
    by_cases hnx : cyclicNext lo hi n = start
    · exact .around hnx
    · have hdi := distance_cyclicNext hlo hhi hs hnx
      obtain ⟨hl, hh⟩ := cyclicNext_range (Nat.le_trans hlo hhi) hlo
      exact .next (ih hl hh (by omega))

variable {fuel : ℕ}

theorem cyclicFind_some (hlo : lo ≤ n) (hhi : n ≤ hi)
    (h : cyclicFind lo hi free start fuel n = some m) :
  free m ∧ lo ≤ m ∧ m ≤ hi
  := by
  induction fuel generalizing n with
  | zero => cases h
  | succ fuel ih =>
    rw [cyclicFind] at h
    split at h
    next hf =>
      cases h
      exact ⟨hf, hlo, hhi⟩
    · split at h
      · cases h
      · obtain ⟨hl, hh⟩ := cyclicNext_range (Nat.le_trans hlo hhi) hlo
        apply ih hl hh h

theorem cyclicFind_none (hlo : lo ≤ n) (hhi : n ≤ hi) (hs : lo ≤ start ∧ start ≤ hi)
    (hfu : distance lo hi start n ≤ fuel) :
  cyclicFind lo hi free start fuel n = none ↔ ∀ m, Ahead lo hi start n m → free m = false
  := by
  induction fuel generalizing n with
  | zero =>
    unfold distance at hfu
    split at hfu
    all_goals omega
  | succ fuel ih =>
    simp only [ahead_iff hlo hhi hs, cyclicFind]
    obtain ⟨hl, hh⟩ := cyclicNext_range (Nat.le_trans hlo hhi) hlo
    cases hf : free n with
    | true => simp [hf]
    | false =>
      by_cases hnx : cyclicNext lo hi n = start
      · simp [hnx, hf]
      · have hdi := distance_cyclicNext hlo hhi hs hnx
        simp [hnx, hf, ih hl hh (by omega)]

theorem cyclicFind_around (hlo : lo ≤ start) (hhi : start ≤ hi) (hfu : hi < fuel + lo) :
  cyclicFind lo hi free start fuel start = none ↔ ∀ m, lo ≤ m → m ≤ hi → free m = false
  := by
  rw [cyclicFind_none hlo hhi ⟨hlo, hhi⟩]
  · constructor
    · intro h m hm hm'
      apply h m
      unfold Ahead
      split
      all_goals omega
    · intro h m hm
      unfold Ahead at hm
      apply h m
      all_goals
        split at hm
        · omega
        · omega
  · unfold distance
    split
    all_goals omega

end Search
