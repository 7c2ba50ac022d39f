import Mathlib.Data.List.Induction
import Periapsis.Config.Process

/-!
# CPU as a percentage

A percentage is read with the base that its text gives, and multiplied in 64 bits.
-/

namespace Periapsis.Config

open List Option Int64 String Nat

variable {Q T : Type} {parsers : Parsers Q T}

def decimalValue (digits : List Char) : Nat :=
  ofDigitChars 10 digits 0

/-- Percentages are no quantities, and millicores are: what is read is their number, unless that is
negative. -/
structure ReadsMilli (parsers : Parsers Q T) : Prop where
  percent (digits : List Char) : digits.all Char.isDigit →
    ∃ e, parsers.parseQuantity (ofList (digits ++ ['%'])) = .error e
  milli (k : Int64) : ∃ q, parsers.parseQuantity (toString k ++ "m") = .ok q
    ∧ (0 ≤ k → parsers.milliValue q = k)

/-- The percentage is read as ten millicores for each percent, or refused if those are too many. -/
def ReadsPercent (parsers : Parsers Q T) (digits : List Char) (defaultCPU : Q) : Prop :=
  let result := parseCPU parsers (ofList (digits ++ ['%'])) defaultCPU
  if 10 * decimalValue digits < 2 ^ 63 then
    ∃ q, result = .ok q ∧ (parsers.milliValue q).toInt = 10 * decimalValue digits
  else ∃ e, result = .error e

/-- With a leading zero the value is at most 7, or too large in base 8 as well; without one it is
too large before it is multiplied, or not even then. -/
def PlainDigits (digits : List Char) : Prop :=
  if digits.head? = some '0' then
    decimalValue digits < 8
      ∨ (2 ^ 63 ≤ 10 * decimalValue digits ∧ ∀ n, digitsValue 8 digits = some n → 2 ^ 63 ≤ n)
  else 10 * decimalValue digits < 2 ^ 63 ∨ 2 ^ 63 ≤ decimalValue digits

variable {digits : List Char} {d : Char}

theorem decimalValue_concat :
  decimalValue (digits ++ [d]) = 10 * decimalValue digits + (d.toNat - '0'.toNat)
  := by
  rw [decimalValue, ofDigitChars_append]
  rfl

theorem digitsValue_concat :
  digitsValue base (digits ++ [d]) = (digitsValue base digits).bind fun n =>
    if d.toNat - '0'.toNat < base then some (n * base + (d.toNat - '0'.toNat)) else none
  := by
  rw [digitsValue, foldl_append]
  rfl

theorem digit_lt {d : Char} (hd : d.isDigit) :
  d.toNat - '0'.toNat < 10
  := by
  simp only [Char.isDigit, Bool.and_eq_true, decide_eq_true_eq] at hd
  have hle : d.toNat ≤ '9'.toNat := UInt32.le_iff_toNat_le.1 hd.2
  have hni : '9'.toNat - '0'.toNat < 10 := by decide
  omega

theorem digitsValue_ten (hdi : ∀ d ∈ digits, d.isDigit) :
  digitsValue 10 digits = some (decimalValue digits)
  := by
  induction digits using reverseRecOn with
  | nil => rfl
  | append_singleton digits d ih =>
    have hd := digit_lt (hdi d (by simp))
    rw [digitsValue_concat, ih fun d hd => hdi d (mem_append_left _ hd),
      decimalValue_concat, bind_some, if_pos hd, mul_comm]

theorem digitsValue_eight (hn : digitsValue 8 digits = some n) :
  n ≤ decimalValue digits ∧ (8 ≤ decimalValue digits → n < decimalValue digits)
  := by
  induction digits using reverseRecOn generalizing n with
  | nil => exact ⟨by cases hn; exact le_refl _, fun h => absurd h (by decide)⟩
  | append_singleton digits d ih =>
    rw [digitsValue_concat] at hn
    obtain ⟨m, hm, hn⟩ := bind_eq_some_iff.1 hn
    obtain ⟨hd, hn⟩ := ite_none_right_eq_some.1 hn
    have hle := (ih hm).1
    rw [decimalValue_concat]
    cases hn
    omega

theorem digitsValue_small (hs : decimalValue digits < 8) :
  digitsValue 8 digits = some (decimalValue digits)
  := by
  induction digits using reverseRecOn with
  | nil => rfl
  | append_singleton digits d ih =>
    rw [decimalValue_concat] at hs
    have hz : decimalValue digits = 0 := by omega
    rw [digitsValue_concat, ih (by omega), decimalValue_concat, bind_some,
      if_pos (by omega), hz]

theorem parseInt_plain (hdi : ∀ d ∈ digits, d.isDigit) (hh : digits.head? ≠ some '0') :
  parseInt digits = if decimalValue digits < 2 ^ 63 then some (ofNat (decimalValue digits))
    else none
  := by
  unfold parseInt
  split
  · exact absurd rfl hh
  · rw [digitsValue_ten hdi, bind_some]

theorem parseInt_octal (hh : digits.head? = some '0') :
  parseInt digits = (digitsValue 8 digits).bind fun n =>
    if n < 2 ^ 63 then some (ofNat n) else none
  := by
  cases digits with
  | nil => cases hh
  | cons d digits =>
    cases hh
    rfl

theorem percentDigits_eq (hne : digits ≠ []) (hdi : ∀ d ∈ digits, d.isDigit) :
  percentDigits (ofList (digits ++ ['%'])) = some digits
  := by
  have ha : digits.reverse.all Char.isDigit := by simpa using hdi
  have hem : digits.reverse.isEmpty = false := by simpa using hne
  unfold percentDigits
  rw [toList_ofList, reverse_append, reverse_singleton, singleton_append]
  change (if (!digits.reverse.isEmpty && digits.reverse.all Char.isDigit) = true
    then some digits.reverse.reverse else none) = _
  rw [ha, hem, reverse_reverse]
  rfl

theorem parseCPU_percent (hr : ReadsMilli parsers) (hne : digits ≠ [])
    (hdi : ∀ d ∈ digits, d.isDigit) :
  parseCPU parsers (ofList (digits ++ ['%'])) defaultCPU =
    (parseInt digits).elim (.error "invalid percentage value for CPU") fun percent =>
      parsers.parseQuantity (toString (percent * 10) ++ "m")
  := by
  have ht : ofList (digits ++ ['%']) ≠ "" := by
    intro h
    have := congrArg String.toList h
    simp at this
  obtain ⟨e, he⟩ := hr.percent digits (by simpa using hdi)
  rw [parseCPU, if_neg ht, he]
  rw [percentDigits_eq hne hdi]
  dsimp only
  cases parseInt digits with
  | _ => rfl

theorem toInt_percent (hn : 10 * n < 2 ^ 63) :
  (ofNat n * 10).toInt = 10 * n
  := by
  rw [toInt_mul, toInt_ofNat_of_lt (by omega)]
  change ((n : Int) * 10).bmod (2 ^ 64) = 10 * n
  rw [Int.bmod_def]
  split_ifs
  all_goals omega

theorem readsPercent_of_none (hr : ReadsMilli parsers) (hne : digits ≠ [])
    (hdi : ∀ d ∈ digits, d.isDigit) (defaultCPU : Q) (hp : parseInt digits = none) :
  ReadsPercent parsers digits defaultCPU ↔ 2 ^ 63 ≤ 10 * decimalValue digits
  := by
  simp only [ReadsPercent, parseCPU_percent hr hne hdi, hp, elim_none]
  split_ifs with hf
  · exact ⟨fun ⟨_, hq, _⟩ => (by cases hq), fun h => absurd h (not_le.2 hf)⟩
  · exact ⟨fun _ => not_lt.1 hf, fun _ => ⟨_, rfl⟩⟩

theorem readsPercent_of_some (hr : ReadsMilli parsers) (hne : digits ≠ [])
    (hdi : ∀ d ∈ digits, d.isDigit) (defaultCPU : Q) (hle : n ≤ decimalValue digits)
    (hp : parseInt digits = some (ofNat n)) :
  ReadsPercent parsers digits defaultCPU
    ↔ 10 * decimalValue digits < 2 ^ 63 ∧ n = decimalValue digits
  := by
  obtain ⟨q, hq, hmi⟩ := hr.milli (ofNat n * 10)
  simp only [ReadsPercent, parseCPU_percent hr hne hdi, hp, elim_some, hq]
  split_ifs with hf
  · have hv := toInt_percent (n := n) (by omega)
    have hk : 0 ≤ ofNat n * 10 := by
      rw [le_iff_toInt_le, hv]
      exact Int.natCast_nonneg (10 * n)
    rw [← hmi hk] at hv
    constructor
    · rintro ⟨_, heq, hto⟩
      cases heq
      exact ⟨hf, by omega⟩
    · rintro ⟨_, rfl⟩
      exact ⟨q, rfl, hv⟩
  · exact ⟨fun ⟨_, he⟩ => (by cases he), fun h => absurd h.1 hf⟩

/-- A percentage is read as ten millicores for each percent exactly if its digits are plain. -/
theorem parseCPU_percent_iff (hreads : ReadsMilli parsers) {digits : List Char}
    (hne : digits ≠ []) (hdigits : ∀ d ∈ digits, d.isDigit) (defaultCPU : Q) :
  ReadsPercent parsers digits defaultCPU ↔ PlainDigits digits
  := by
  have hno := readsPercent_of_none hreads hne hdigits defaultCPU
  have hso := fun n => readsPercent_of_some hreads hne hdigits defaultCPU (n := n)
  unfold PlainDigits
  by_cases hh : digits.head? = some '0'
  · rw [if_pos hh]
    have hp := parseInt_octal hh
    have hs : decimalValue digits < 8 → _ := digitsValue_small
    cases hei : digitsValue 8 digits with
    | none =>
      rw [hei, bind_none] at hp
      have hl : ¬ decimalValue digits < 8 := fun h => by
        have := hs h
        rw [hei] at this
        cases this
      rw [hno hp]
      exact ⟨fun h => .inr ⟨h, nofun⟩, fun h => (h.resolve_left hl).1⟩
    | some n =>
      have hle := digitsValue_eight hei
      have heq : decimalValue digits < 8 → n = decimalValue digits := fun h =>
        some.inj (hei.symm.trans (hs h))
      rw [hei, bind_some] at hp
      have ha : (∀ m, some n = some m → 2 ^ 63 ≤ m) ↔ 2 ^ 63 ≤ n :=
        ⟨fun h => h n rfl, fun h m hm => some.inj hm ▸ h⟩
      rw [ha]
      split_ifs at hp with hf
      · rw [hso n hle.1 hp]
        omega
      · rw [hno hp]
        omega
  · rw [if_neg hh]
    have hp := parseInt_plain hdigits hh
    split_ifs at hp with hf
    · rw [hso _ (le_refl _) hp]
      omega
    · rw [hno hp]
      omega

def milliParsers : Parsers Int64 Unit where
  parseQuantity text :=
    let digits := text.toList.dropLast
    if text.toList.getLast? ≠ some 'm' then .error ""
    else if '-' ∈ digits then .ok (ofInt (-(decimalValue digits.tail)))
    else .ok (ofInt (decimalValue digits))
  milliValue q := q
  parseTaints _ := .ok ()

theorem readsMilli_milliParsers : ReadsMilli milliParsers where
  percent digits _ := ⟨"", by simp [milliParsers]⟩
  milli k := by
    have ht : (toString k ++ "m").toList = k.toInt.repr.toList ++ ['m'] := by
      rw [toList_append]
      rfl
    have hsi (n : Nat) : '-' ∉ toDigits 10 n := fun h =>
      absurd (isDigit_of_mem_toDigits (by decide) (by decide) h) (by decide)
    refine ⟨k, ?_, fun _ => rfl⟩
    simp only [milliParsers, ht, getLast?_concat, dropLast_concat, ne_eq,
      not_true_eq_false, if_false]
    by_cases hk : 0 ≤ k.toInt
    · rw [Int.repr_eq_if, if_pos hk, toList_repr, if_neg (hsi _), decimalValue,
        ofDigitChars_ten_toDigits, Int.toNat_of_nonneg hk, ofInt_toInt]
    · have hmn : k.toInt.repr.toList = '-' :: toDigits 10 (-k.toInt).toNat := by
        rw [Int.repr_eq_if, if_neg hk, toList_append, toList_repr]
        rfl
      rw [hmn, if_pos mem_cons_self, tail_cons, decimalValue,
        ofDigitChars_ten_toDigits, Int.toNat_of_nonneg (by omega), Int.neg_neg,
        ofInt_toInt]

theorem parseCPU_percent_hundred :
  ReadsPercent milliParsers "100".toList 0 ∧ ReadsPercent milliParsers "007".toList 0
    ∧ ReadsPercent milliParsers "9223372036854775808".toList 0
  := by
  have hr := readsMilli_milliParsers
  refine ⟨?_, ?_, ?_⟩
  · exact (parseCPU_percent_iff hr (by decide) (all_eq_true.1 (by decide)) 0).2
      (Or.inl (by decide))
  · exact (parseCPU_percent_iff hr (by decide) (all_eq_true.1 (by decide)) 0).2
      (Or.inl (by decide))
  · exact (parseCPU_percent_iff hr (by decide) (all_eq_true.1 (by decide)) 0).2
      (Or.inr (by decide))

theorem parseCPU_leading_zero :
  parseInt "010".toList = some 8 ∧ ¬ ReadsPercent milliParsers "010".toList 0
    ∧ parseInt "08".toList = none ∧ ¬ ReadsPercent milliParsers "08".toList 0
    ∧ parseInt "922337203685477581".toList = some 922337203685477581
    ∧ ¬ ReadsPercent milliParsers "922337203685477581".toList 0
  := by
  have hr := readsMilli_milliParsers
  refine ⟨by decide, fun h => ?_, by decide, fun h => ?_, by decide, fun h => ?_⟩
  · have := (readsPercent_of_some hr (by decide) (all_eq_true.1 (by decide)) 0
      (n := 8) (by decide) (by decide)).1 h
    exact absurd this.2 (by decide)
  · have := (readsPercent_of_none hr (by decide) (all_eq_true.1 (by decide)) 0
      (by decide)).1 h
    exact absurd this (by decide)
  · have := (readsPercent_of_some hr (by decide) (all_eq_true.1 (by decide)) 0
      (n := 922337203685477581) (by decide) (by decide)).1 h
    exact absurd this.1 (by decide)

end Periapsis.Config
