import Mathlib.Data.List.Sort

/-!
# Insertion from the back

An ordered list is scanned from the back for the place of a new element (`insertBack`), or of one
whose rank was lowered (`moveBack`).
-/

namespace Transition

open List

variable {α β : Type*} [LinearOrder β]

def insertBack (rank : α → β) (a : α) (l : List α) : List α :=
  (l.reverse.orderedInsert (fun x y => rank y < rank x) a).reverse

def moveBack [DecidableEq α] (rank : α → β) (a : α) (l : List α) : List α :=
  match l.dropWhile (· ≠ a) with
  | _ :: post => insertBack rank a (l.takeWhile (· ≠ a)) ++ post
  | [] => l

variable {rank : α → β} {a b : α} {l pre post : List α}

theorem insertBack_perm (rank : α → β) (a : α) (l : List α) :
  (insertBack rank a l).Perm (a :: l)
  := by
  apply (reverse_perm _).trans
  apply (perm_orderedInsert _ a l.reverse).trans
  apply (reverse_perm l).cons

theorem mem_insertBack :
  b ∈ insertBack rank a l ↔ b = a ∨ b ∈ l
  := by
  rw [(insertBack_perm rank a l).mem_iff, mem_cons]

def Ranked (rank : α → β) (l : List α) : Prop :=
  l.Pairwise fun x y => rank x ≤ rank y

theorem orderedInsert_descending (h : l.Pairwise fun x y => rank y ≤ rank x) :
  (l.orderedInsert (fun x y => rank y < rank x) a).Pairwise fun x y => rank y ≤ rank x
  := by
  induction l with
  | nil => simp
  | cons b l ih =>
    obtain ⟨hb, hl⟩ := pairwise_cons.1 h
    rw [orderedInsert_cons]
    split
    next hlt =>
      apply pairwise_cons.2 ⟨?_, h⟩
      intro c hc
      rcases mem_cons.1 hc with rfl | hc
      · exact hlt.le
      · exact (hb c hc).trans hlt.le
    next hle =>
      apply pairwise_cons.2 ⟨?_, ih hl⟩
      intro c hc
      rcases (mem_orderedInsert _).1 hc with rfl | hc
      · exact not_lt.1 hle
      · exact hb c hc

theorem insertBack_ranked (h : Ranked rank l) :
  Ranked rank (insertBack rank a l)
  := by
  apply pairwise_reverse.2
  apply orderedInsert_descending
  apply pairwise_reverse.2 h

theorem Ranked.congr (h : Ranked rank l) (heq : ∀ x ∈ l, rank' x = rank x) :
  Ranked rank' l
  := by
  apply List.Pairwise.imp_of_mem _ h
  intro x y hx hy hle
  rw [heq x hx, heq y hy]
  exact hle

section Move

variable [DecidableEq α]

theorem moveBack_append (h : a ∉ pre) :
  moveBack rank a (pre ++ a :: post) = insertBack rank a pre ++ post
  := by
  have hpe : ∀ b ∈ pre, decide (b ≠ a) = true := by
    rintro b hb
    apply decide_eq_true
    rintro rfl
    exact h hb
  rw [moveBack, dropWhile_append_of_pos hpe, takeWhile_append_of_pos hpe]
  simp

theorem moveBack_perm (rank : α → β) (h : a ∈ l) :
  (moveBack rank a l).Perm l
  := by
  obtain ⟨pre, post, rfl, hpe⟩ := eq_append_cons_of_mem h
  rw [moveBack_append hpe]
  apply ((insertBack_perm rank a pre).append_right post).trans
  apply perm_middle.symm

theorem moveBack_ranked (hn : l.Nodup) (h : Ranked rank l) (ha : a ∈ l) (hlo : rank' a ≤ rank a)
    (ho : ∀ x, x ≠ a → rank' x = rank x) :
  Ranked rank' (moveBack rank' a l)
  := by
  obtain ⟨pre, post, rfl, hpe⟩ := eq_append_cons_of_mem ha
  rw [moveBack_append hpe]
  obtain ⟨hlf, hr, hcr⟩ := pairwise_append.1 h
  obtain ⟨hpo, hr⟩ := pairwise_cons.1 hr
  have hpr : ∀ x ∈ pre, rank' x = rank x := by
    intro x hx
    apply ho
    rintro rfl
    exact hpe hx
  have hp : ∀ x ∈ post, rank' x = rank x := by
    intro x hx
    apply ho
    rintro rfl
    exact (nodup_cons.1 (nodup_append.1 hn).2.1).1 hx
  apply pairwise_append.2
  refine ⟨insertBack_ranked (Ranked.congr hlf hpr), Ranked.congr hr hp, ?_⟩
  intro x hx y hy
  rw [hp y hy]
  rcases mem_insertBack.1 hx with rfl | hx
  · exact hlo.trans (hpo y hy)
  · rw [hpr x hx]
    exact hcr x hx y (mem_cons_of_mem a hy)

end Move

end Transition
