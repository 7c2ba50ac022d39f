import Mathlib.Data.List.Infix

/-!
# Wildcard patterns

A pattern is a text in which `*` stands for any text, `?` for any character, and a bracket
expression for any character of a set.
-/

namespace Text

open List

/-- A part of a pattern. -/
inductive Token where
  | star
  | one (p : Char → Bool)

def Token.lit (c : Char) : Token :=
  .one fun d => d = c

def matchTokens : List Token → List Char → Bool
  | [], s => s.isEmpty
  | .star :: ts, s => s.tails.any (matchTokens ts)
  | .one _ :: _, [] => false
  | .one p :: ts, c :: s => p c && matchTokens ts s

variable {ts : List Token} {s : List Char}

theorem matchTokens_star :
  matchTokens (.star :: ts) s ↔ ∃ x y, s = x ++ y ∧ matchTokens ts y
  := by
  rw [matchTokens, any_eq_true]
  constructor
  · rintro ⟨y, hy, hma⟩
    obtain ⟨x, rfl⟩ := (mem_tails y s).1 hy
    exact ⟨x, y, rfl, hma⟩
  · rintro ⟨x, y, rfl, hma⟩
    exact ⟨y, (mem_tails y _).2 (suffix_append x y), hma⟩

theorem matchTokens_one :
  matchTokens (.one p :: ts) s
    ↔ ∃ c y, s = c :: y ∧ p c ∧ matchTokens ts y
  := by
  cases s with
  | _ => simp [matchTokens]

theorem matchTokens_append :
  matchTokens (ts ++ us) s
    ↔ ∃ x y, s = x ++ y ∧ matchTokens ts x ∧ matchTokens us y
  := by
  induction ts generalizing s with
  | nil => simp [matchTokens]
  | cons t ts ih =>
    rw [cons_append]
    cases t with
    | star =>
      simp only [matchTokens_star, ih]
      constructor
      · rintro ⟨x, _, rfl, y, z, rfl, hts, hus⟩
        exact ⟨x ++ y, z, (append_assoc x y z).symm, ⟨x, y, rfl, hts⟩, hus⟩
      · rintro ⟨_, z, rfl, ⟨x, y, rfl, hts⟩, hus⟩
        exact ⟨x, y ++ z, append_assoc x y z, y, z, rfl, hts, hus⟩
    | one p =>
      simp only [matchTokens_one, ih]
      constructor
      · rintro ⟨c, _, rfl, hc, y, z, rfl, hts, hus⟩
        exact ⟨c :: y, z, rfl, ⟨c, y, rfl, hc, hts⟩, hus⟩
      · rintro ⟨_, z, rfl, ⟨c, y, rfl, hc, hts⟩, hus⟩
        exact ⟨c, y ++ z, rfl, hc, y, z, rfl, hts, hus⟩

theorem matchTokens_lit {l : List Char} :
  matchTokens (l.map Token.lit) s ↔ s = l
  := by
  induction l generalizing s with
  | nil => simp [matchTokens]
  | cons c l ih =>
    rw [map_cons, Token.lit, matchTokens_one]
    simp [ih]

/-- A way to read bracket expressions: the set of characters and what is left behind the closing
bracket, on which what comes later has no influence. -/
structure Brackets where
  read : List Char → Option ((Char → Bool) × List Char)
  length_le : ∀ s p rest, read s = some (p, rest) → rest.length ≤ s.length
  read_append : ∀ s t, ']' ∉ t → read (s ++ t) = (read s).map fun (p, rest) => (p, rest ++ t)

def noBrackets : Brackets where
  read _ := none
  length_le := nofun
  read_append _ _ _ := rfl

namespace Brackets

variable (b : Brackets)

def tokens : Nat → List Char → List Token
  | 0, _ => []
  | _ + 1, [] => []
  | n + 1, c :: s =>
    if c = '*' then .star :: tokens n s
    else if c = '?' then .one (fun _ => true) :: tokens n s
    else if c = '[' then
      match b.read s with
      | none => .lit c :: tokens n s
      | some (p, rest) => .one p :: tokens n rest
    else .lit c :: tokens n s

def glob (pattern s : List Char) : Bool :=
  matchTokens (b.tokens pattern.length pattern) s

variable {b} {n : Nat}

@[simp]
theorem tokens_nil :
  b.tokens n [] = []
  := by
  cases n with
  | _ => rfl

theorem tokens_eq (hn : s.length ≤ n) (hm : s.length ≤ m) :
  b.tokens n s = b.tokens m s
  := by
  induction n generalizing m s with
  | zero =>
    obtain rfl := length_eq_zero_iff.1 (Nat.le_zero.1 hn)
    rw [tokens_nil, tokens_nil]
  | succ n ih =>
    cases s with
    | nil => rw [tokens_nil, tokens_nil]
    | cons c s =>
      obtain ⟨m, rfl⟩ := Nat.exists_eq_add_one_of_ne_zero (Nat.ne_zero_of_lt hm)
      rw [length_cons, Nat.add_le_add_iff_right] at hn hm
      rw [tokens, tokens, ih hn hm]
      split
      · rfl
      split
      · rfl
      split
      · split
        · rfl
        next p rest hr =>
          have hre := b.length_le s p rest hr
          rw [ih (hre.trans hn) (hre.trans hm)]
      · rfl

theorem tokens_append {s t : List Char} (ht : ']' ∉ t) {n : Nat} (hn : s.length + t.length ≤ n) :
  b.tokens n (s ++ t) = b.tokens n s ++ b.tokens n t
  := by
  induction n generalizing s with
  | zero =>
    rfl
  | succ n ih =>
    cases s with
    | nil => rw [tokens_nil, nil_append, nil_append]
    | cons c s =>
      rw [length_cons] at hn
      have hta : b.tokens (n + 1) t = b.tokens n t := tokens_eq (by omega) (by omega)
      have ha := ih (s := s) (by omega)
      rw [cons_append, tokens, tokens, hta, ha, b.read_append s t ht]
      split
      · rfl
      split
      · rfl
      split
      · cases hr : b.read s with
        | none => rfl
        | some result =>
          obtain ⟨p, rest⟩ := result
          have hre := b.length_le s p rest hr
          dsimp only [Option.map_some]
          rw [ih (by omega)]
          rfl
      · rfl

theorem glob_append {s t x : List Char} (ht : ']' ∉ t) :
  b.glob (s ++ t) x
    ↔ ∃ u v, x = u ++ v ∧ b.glob s u ∧ b.glob t v
  := by
  have hs : b.tokens (s ++ t).length s = b.tokens s.length s :=
    tokens_eq (by simp) le_rfl
  have ht' : b.tokens (s ++ t).length t = b.tokens t.length t :=
    tokens_eq (by simp) le_rfl
  rw [glob, tokens_append ht (by simp), matchTokens_append, hs, ht']
  rfl

def Plain (s : List Char) : Prop :=
  ∀ c ∈ s, c ≠ '*' ∧ c ≠ '?' ∧ c ≠ '['

variable {l : List Char}

theorem tokens_plain_append (h : Plain l) :
  b.tokens (l ++ s).length (l ++ s) = l.map Token.lit ++ b.tokens s.length s
  := by
  induction l with
  | nil => rfl
  | cons c l ih =>
    obtain ⟨hst, ho, hb⟩ := h c mem_cons_self
    rw [cons_append, length_cons, tokens, if_neg hst, if_neg ho, if_neg hb, ih]
    · rfl
    · intro d hd
      apply h d (mem_cons_of_mem c hd)

variable {x : List Char}

theorem glob_plain_append (h : Plain l) :
  b.glob (l ++ s) x ↔ ∃ y, x = l ++ y ∧ b.glob s y
  := by
  rw [glob, tokens_plain_append h, matchTokens_append]
  simp only [matchTokens_lit]
  constructor
  · rintro ⟨_, y, rfl, rfl, hy⟩
    exact ⟨y, rfl, hy⟩
  · rintro ⟨y, rfl, hy⟩
    exact ⟨l, y, rfl, rfl, hy⟩

theorem glob_of_plain (h : Plain s) :
  b.glob s x ↔ x = s
  := by
  have hni (y : List Char) : b.glob [] y ↔ y = [] := isEmpty_iff
  have ha := glob_plain_append (b := b) (s := []) (x := x) h
  simpa [hni] using ha

theorem glob_star :
  b.glob ['*'] x
  := by
  rw [glob, length_singleton, tokens, if_pos rfl, matchTokens_star]
  exact ⟨x, [], (append_nil x).symm, rfl⟩

end Brackets

end Text
