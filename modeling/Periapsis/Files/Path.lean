import Mathlib.Data.List.Basic
import Mathlib.Data.List.Induction

/-!
# Paths

A path is a text whose names are separated by slashes.
-/

namespace Files

open List

abbrev Name := List Char

def dot : Name := ['.']

def dotDot : Name := ['.', '.']

structure Path where
  rooted : Bool
  names : List Name
  deriving DecidableEq

def parse (s : List Char) : Path where
  rooted := s.head? = some '/'
  names := (s.splitOn '/').filter (· ≠ []) ++ if s.getLast? = some '/' then [dot] else []

namespace Path

def push (rooted : Bool) (stack : List Name) (name : Name) : List Name :=
  if name = dot then stack
  else if name = dotDot then
    match stack with
    | [] => if rooted then [] else [dotDot]
    | top :: rest => if top = dotDot then dotDot :: top :: rest else rest
  else name :: stack

def clean (p : Path) : Path :=
  { p with names := (p.names.foldl (push p.rooted) []).reverse }

def join (p q : Path) : Path :=
  if p.rooted = false ∧ p.names = [] then q.clean
  else clean { p with names := p.names ++ q.names }

def text (p : Path) : List Char :=
  match p.rooted, p.names with
  | true, names => '/' :: ['/'].intercalate names
  | false, [] => dot
  | false, names => ['/'].intercalate names

def parent (p : Path) : Path :=
  { p with names := p.names.dropLast }

/-- A name that leads down. -/
def Proper (name : Name) : Prop :=
  name ≠ dot ∧ name ≠ dotDot

variable {rooted : Bool} {stack names : List Name} {name : Name}

theorem push_of_proper (h : Proper name) :
  push rooted stack name = name :: stack
  := by
  unfold push
  rw [if_neg h.1, if_neg h.2]

theorem foldl_push_of_proper (h : ∀ n ∈ names, Proper n) :
  names.foldl (push rooted) stack = names.reverse ++ stack
  := by
  induction names generalizing stack with
  | nil => rfl
  | cons n names ih =>
    rw [foldl_cons, push_of_proper (h n (by simp)), ih fun m hm => h m (by simp [hm])]
    simp

def Tidy : List Name → Prop
  | [] => True
  | name :: rest => name = dotDot ∧ (∀ m ∈ rest, m = dotDot) ∨ Proper name ∧ Tidy rest

theorem tidy_of_dotDots (h : ∀ n ∈ names, n = dotDot) :
  Tidy names
  := by
  cases names with
  | nil => trivial
  | cons name rest =>
    left
    use h name (by simp)
    intro m hm
    apply h m (by simp [hm])

theorem tidy_push (h : Tidy stack) (name : Name) :
  Tidy (push rooted stack name)
  := by
  unfold push
  split
  · apply h
  next hdo =>
    split
    · cases stack with
      | nil =>
        dsimp only
        split
        · trivial
        · apply tidy_of_dotDots
          simp
      | cons top rest =>
        dsimp only
        split
        next htp =>
          rcases h with ⟨-, hr⟩ | ⟨hpr, -⟩
          · apply tidy_of_dotDots
            simpa [htp] using hr
          · exact absurd htp hpr.2
        next htp =>
          rcases h with ⟨hto, -⟩ | ⟨-, hr⟩
          · exact absurd hto htp
          · apply hr
    next hd =>
      right
      exact ⟨⟨hdo, hd⟩, h⟩

theorem tidy_foldl_push (h : Tidy stack) :
  Tidy (names.foldl (push rooted) stack)
  := by
  induction names generalizing stack with
  | nil => apply h
  | cons name names ih => apply ih (tidy_push h name)

variable {p : Path}

theorem tidy_clean :
  Tidy p.clean.names.reverse
  := by
  rw [clean, reverse_reverse]
  apply tidy_foldl_push
  trivial

variable {q : Path}

theorem tidy_join :
  Tidy (p.join q).names.reverse
  := by
  unfold join
  split
  all_goals apply tidy_clean

theorem Tidy.tail {name : Name} {rest : List Name} (h : Tidy (name :: rest)) :
  Tidy rest
  := by
  rcases h with ⟨-, hr⟩ | ⟨-, hr⟩
  · apply tidy_of_dotDots hr
  · apply hr

theorem push_append {rooted : Bool} {top : List Name} {name : Name} (htp : Tidy top)
    (h : ∀ n ∈ push false top name, Proper n) (stack : List Name) :
  (∀ n ∈ top, Proper n) ∧ push rooted (top ++ stack) name = push false top name ++ stack
  := by
  unfold push at h ⊢
  by_cases hdo : name = dot
  · simp only [hdo, if_true] at h ⊢
    exact ⟨h, trivial⟩
  · simp only [hdo, if_false] at h ⊢
    by_cases hd : name = dotDot
    · simp only [hd, if_true] at h ⊢
      cases top with
      | nil => exact absurd rfl (h dotDot (by simp)).2
      | cons name' top =>
        by_cases hn : name' = dotDot
        · simp only [hn, if_true] at h
          exact absurd rfl (h dotDot (by simp)).2
        · simp only [hn, if_false] at h
          have hpr : Proper name' := by
            rcases htp with ⟨heq, -⟩ | ⟨hpr, -⟩
            · exact absurd heq hn
            · apply hpr
          use forall_mem_cons.2 ⟨hpr, h⟩
          simp [hn]
    · simp only [hd, if_false] at h ⊢
      exact ⟨(forall_mem_cons.1 h).2, rfl⟩

theorem foldl_push_append (h : ∀ n ∈ names.foldl (push false) [], Proper n) :
  names.foldl (push rooted) stack = names.foldl (push false) [] ++ stack
  := by
  induction names using reverseRecOn with
  | nil => rfl
  | append_singleton names name ih =>
    rw [foldl_concat] at h
    have ht : Tidy (names.foldl (push false) []) := by
      apply tidy_foldl_push
      trivial
    obtain ⟨hpr, hpu⟩ := @push_append rooted _ _ ht h stack
    rw [foldl_concat, foldl_concat, ih hpr, hpu]

def below (p : Path) (names : List Name) : Path :=
  ⟨p.rooted, p.names ++ names⟩

theorem below_nil :
  p.below [] = p
  := by
  rw [below, append_nil]

theorem parent_below :
  (p.below (names ++ [name])).parent = p.below names
  := by
  rw [parent, below, ← append_assoc, dropLast_concat, below]

def relative (p : Path) : List Name :=
  clean { p with rooted := false } |>.names

theorem join_eq_below (hp : p.names ≠ []) (hq : ∀ n ∈ q.relative, Proper n) :
  p.join q = p.clean.below q.relative
  := by
  rw [relative, clean] at hq
  simp only [mem_reverse] at hq
  rw [join, if_neg fun hem => hp hem.2, clean, foldl_append, foldl_push_append hq]
  simp [below, relative, clean]

theorem relative_of_proper (h : ∀ n ∈ p.names, Proper n) :
  p.relative = p.names
  := by
  rw [relative, clean, foldl_push_of_proper h]
  simp

theorem text_append (hne : names ≠ []) (hn : names' ≠ []) :
  text ⟨rooted, names ++ names'⟩ = text ⟨rooted, names⟩ ++ '/' :: ['/'].intercalate names'
  := by
  have ha : ['/'].intercalate (names ++ names')
      = ['/'].intercalate names ++ '/' :: ['/'].intercalate names' := by
    induction names with
    | nil => exact absurd rfl hne
    | cons name names ih =>
      cases names with
      | nil => simp [intercalate_cons_of_ne_nil hn]
      | cons name' names =>
        rw [cons_append, intercalate_cons_of_ne_nil (by simp), ih (by simp),
          intercalate_cons_cons]
        simp
  cases names with
  | nil => exact absurd rfl hne
  | cons name names =>
    cases rooted with
    | _ => simp [text, ← ha]

end Path

end Files
