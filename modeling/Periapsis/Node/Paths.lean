import Mathlib.Data.List.Basic

/-!
# Paths on the host

Paths are lists of names, as `filepath.Join` makes them: without empty names and dots, and two dots
take back a name.
-/

namespace Periapsis.Node

open List

def splitPath (path : String) : List String :=
  (path.toList.splitOn '/').map String.ofList

/-- The directory that a name in a path leads to. -/
def enter (dir : List String) (name : String) : List String :=
  if name = "" ∨ name = "." then dir
  else if name = ".." then dir.dropLast
  else dir ++ [name]

/-- `filepath.Join`, from a directory whose path is clean. -/
def join (dir : List String) (paths : List String) : List String :=
  (paths.flatMap splitPath).foldl enter dir

theorem foldl_enter_of_descending {names : List String} (h : ".." ∉ names) (dir : List String) :
  names.foldl enter dir = dir ++ names.foldl enter []
  := by
  induction names generalizing dir with
  | nil => simp
  | cons name names ih =>
    rw [mem_cons, not_or] at h
    rw [foldl_cons, foldl_cons, ih h.2, ih h.2 (enter [] name)]
    unfold enter
    split
    · rfl
    · rw [if_neg (Ne.symm h.1), if_neg (Ne.symm h.1)]
      simp

/-- Without two dots a path leads to the same place in every directory. -/
theorem join_of_descending {path : String} (h : ".." ∉ splitPath path) (dir : List String) :
  join dir [path] = dir ++ join [] [path]
  := by
  simpa [join] using foldl_enter_of_descending h dir

end Periapsis.Node
