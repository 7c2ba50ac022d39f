import Mathlib.Data.List.Basic

/-!
# Prefixes, suffixes and separators

Texts as lists of symbols, which have prefixes and suffixes, and are cut at separators and into
lines.
-/

namespace Text

open List

variable {α : Type*} [DecidableEq α]

def trimPrefix (pre s : List α) : List α :=
  if pre <+: s then s.drop pre.length else s

def trimSuffix (suf s : List α) : List α :=
  if suf <:+ s then s.take (s.length - suf.length) else s

def cut (sep : α) : List α → Option (List α × List α)
  | [] => none
  | a :: s => if a = sep then some ([], s) else (cut sep s).map fun (x, y) => (a :: x, y)

def slice {α : Type*} (s : List α) (i j : Nat) : Option (List α) :=
  if i ≤ j ∧ j ≤ s.length then some ((s.take j).drop i) else none

@[simp]
theorem trimPrefix_append (pre : List α) :
  trimPrefix pre (pre ++ s) = s
  := by
  rw [trimPrefix, if_pos (prefix_append _ _), drop_left]

@[simp]
theorem trimSuffix_append (s : List α) :
  trimSuffix suf (s ++ suf) = s
  := by
  rw [trimSuffix, if_pos (suffix_append _ _)]
  simp

theorem cut_append {sep : α} {x : List α} (h : sep ∉ x) (y : List α) :
  cut sep (x ++ sep :: y) = some (x, y)
  := by
  induction x with
  | nil => simp [cut]
  | cons a x ih =>
    rw [mem_cons, not_or] at h
    rw [cons_append, cut, if_neg (Ne.symm h.1), ih h.2]
    rfl

theorem eq_of_cut {sep : α} {s x y : List α} (h : cut sep s = some (x, y)) :
  s = x ++ sep :: y
  := by
  induction s generalizing x with
  | nil => cases h
  | cons a s ih =>
    rw [cut] at h
    split_ifs at h with ha
    · cases h
      rw [ha, nil_append]
    · obtain ⟨⟨x', y'⟩, hc, heq⟩ := Option.map_eq_some_iff.1 h
      cases heq
      rw [ih hc, cons_append]

theorem slice_append {α : Type*} (x y z : List α) :
  slice (x ++ y ++ z) x.length ((x ++ y ++ z).length - z.length) = some y
  := by
  have hen : (x ++ y ++ z).length - z.length = (x ++ y).length := by
    rw [length_append, Nat.add_sub_cancel]
  have hb : x.length ≤ (x ++ y).length ∧ (x ++ y).length ≤ (x ++ y ++ z).length := by simp
  rw [hen, slice, if_pos hb, take_left, drop_left]

theorem eq_append_of_affixes {α : Type*} {pre suf s : List α} {a : α}
    (hp : pre ++ [a] <+: s) (hs : suf <:+ s) (ha : a ∉ suf) :
  ∃ y, s = pre ++ [a] ++ y ++ suf
  := by
  obtain ⟨v, hv⟩ := hp
  obtain ⟨u, rfl⟩ := hs
  rcases append_eq_append_iff.1 hv with ⟨y, rfl, rfl⟩ | ⟨w, hw, rfl⟩
  · exact ⟨y, rfl⟩
  · rcases eq_nil_or_concat w with rfl | ⟨w, b, rfl⟩
    · exact ⟨[], by simp [hw]⟩
    · rw [concat_eq_append, ← append_assoc] at hw
      obtain ⟨-, hl⟩ := append_inj' hw rfl
      cases hl
      simp at ha

/-- The lines that have ended, and the beginning of one that has not. -/
def endedLines (newline : α) : List α → List (List α) × List α
  | [] => ([], [])
  | a :: s =>
    let (lines, rest) := endedLines newline s
    if a = newline then ([] :: lines, rest)
    else
      match lines with
      | [] => ([], a :: rest)
      | line :: lines => ((a :: line) :: lines, rest)

def lines (newline : α) (s : List α) : List (List α) :=
  let (lines, rest) := endedLines newline s
  lines ++ if rest = [] then [] else [rest]

def field (sep : α) : Nat → List α → Option (List α)
  | 0, s => some ((cut sep s).elim s Prod.fst)
  | n + 1, s => (cut sep s).bind fun parts => field sep n parts.2

variable {line : List α}

theorem endedLines_append (newline : α) (s : List α) (hl : newline ∉ line) :
  endedLines newline (s ++ (line ++ [newline]))
    = ((endedLines newline s).1 ++ [(endedLines newline s).2 ++ line], [])
  := by
  induction s with
  | nil =>
    induction line with
    | nil => simp [endedLines]
    | cons a line ih =>
      obtain ⟨ha, hl⟩ := ne_and_not_mem_of_not_mem_cons hl
      simp only [nil_append, cons_append, endedLines] at ih ⊢
      rw [ih hl, if_neg (Ne.symm ha)]
  | cons a s ih =>
    rw [cons_append, endedLines, endedLines, ih]
    by_cases ha : a = newline
    · simp only [if_pos ha, cons_append]
    · cases hen : (endedLines newline s).1 with
      | _ => simp [ha, hen]

theorem lines_append_newline (hl : newline ∉ line) :
  lines newline (line ++ newline :: s) = line :: lines newline s
  := by
  have hen : endedLines newline (line ++ newline :: s)
      = (line :: (endedLines newline s).1, (endedLines newline s).2) := by
    induction line with
    | nil => simp [endedLines]
    | cons a line ih =>
      obtain ⟨ha, hl⟩ := ne_and_not_mem_of_not_mem_cons hl
      rw [cons_append, endedLines, ih hl]
      exact if_neg (Ne.symm ha)
  rw [lines, hen]
  rfl

section Fields

variable {sep : α} {s t : List α}

theorem field_succ_of_sep (hs : sep ∉ s) :
  field sep (n + 1) (s ++ sep :: t) = field sep n t
  := by
  rw [field, cut_append hs]
  rfl

theorem field_zero_of_sep (hs : sep ∉ s) :
  field sep 0 (s ++ sep :: t) = some s
  := by
  rw [field, cut_append hs]
  rfl

end Fields

end Text
