import Mathlib.Data.Finmap
import Mathlib.Algebra.Order.BigOperators.Group.Multiset
import Mathlib.Data.Int.ModEq

/-!
# Totals over finite maps

`total f m` is the sum of `f` over the values of a finite map.
-/

namespace Transition

open Finmap Multiset

variable {κ β M : Type*} [AddCommGroup M]

def total (f : β → M) (m : Finmap fun _ : κ => β) : M :=
  (m.entries.map fun e => f e.2).sum

@[simp]
theorem total_empty (f : β → M) :
  total f (∅ : Finmap fun _ : κ => β) = 0
  := rfl

theorem total_hom {N : Type*} [AddCommGroup N] (g : M →+ N) (f : β → M)
    (m : Finmap fun _ : κ => β) :
  total (fun b => g (f b)) m = g (total f m)
  := by
  simp [total, map_multiset_sum]

variable {n : Int}

theorem total_modEq (h : ∀ b, f b ≡ g b [ZMOD n]) :
  total f m ≡ total g m [ZMOD n]
  := by
  unfold total
  induction m.entries using Multiset.induction with
  | empty => rfl
  | cons e es ih =>
    rw [map_cons, map_cons, sum_cons, sum_cons]
    exact (h e.2).add ih

section Keys

variable [DecidableEq κ]

def share (f : β → M) (m : Finmap fun _ : κ => β) (k : κ) : M :=
  ((m.lookup k).map f).getD 0

variable (f : β → M) (m : Finmap fun _ : κ => β) (k : κ) {b : β}

theorem share_of_lookup (h : m.lookup k = some b) :
  share f m k = f b
  := by
  rw [share, h]
  rfl

theorem share_of_none (h : m.lookup k = none) :
  share f m k = 0
  := by
  rw [share, h]
  rfl

theorem total_insert_erase (b : β) :
  total f (m.insert k b) = f b + total f (m.erase k)
  := by
  induction m using induction_on with
  | H s => simp [total, AList.insert, AList.erase, List.kinsert]

theorem mem_entries_iff :
  ⟨k, b⟩ ∈ m.entries ↔ m.lookup k = some b
  := by
  induction m using induction_on with
  | H s => exact AList.mem_lookup_iff.symm

theorem total_nonneg {f : β → Int} (h : ∀ k b, m.lookup k = some b → 0 ≤ f b) :
  0 ≤ total f m
  := by
  apply sum_nonneg
  intro n hn
  obtain ⟨⟨k, b⟩, hm, rfl⟩ := mem_map.1 hn
  apply h k b ((mem_entries_iff m k).1 hm)

theorem insert_of_lookup (h : m.lookup k = some b) :
  m.insert k b = m
  := by
  apply ext_lookup
  intro k'
  by_cases hne : k' = k
  · rw [hne, lookup_insert, h]
  · rw [lookup_insert_of_ne _ hne]

theorem total_erase :
  total f (m.erase k) = total f m - share f m k
  := by
  rw [eq_sub_iff_add_eq]
  cases hk : m.lookup k with
  | none =>
    rw [share_of_none f m k hk, add_zero]
    congr 1
    apply ext_lookup
    intro k'
    by_cases hne : k' = k
    · rw [hne, lookup_erase, hk]
    · rw [lookup_erase_ne hne]
  | some b =>
    rw [share_of_lookup f m k hk, add_comm, ← total_insert_erase f m k b, insert_of_lookup m k hk]

theorem total_insert :
  total f (m.insert k b) = total f m - share f m k + f b
  := by
  rw [total_insert_erase, total_erase, add_comm]

end Keys

instance int64AddCommGroup : AddCommGroup Int64 where
  add_assoc := Int64.add_assoc
  zero_add := Int64.zero_add
  add_zero := Int64.add_zero
  add_comm := Int64.add_comm
  neg_add_cancel := Int64.add_left_neg
  sub_eq_add_neg := Int64.sub_eq_add_neg
  nsmul := nsmulRec
  zsmul := zsmulRec

theorem toInt_add_modEq (a b : Int64) :
  (a + b).toInt ≡ a.toInt + b.toInt [ZMOD 2 ^ 64]
  := by
  rw [Int64.toInt_add]
  exact Int.bmod_emod

theorem toInt_total (f : β → Int64) (m : Finmap fun _ : κ => β) :
  (total f m).toInt ≡ total (fun b => (f b).toInt) m [ZMOD 2 ^ 64]
  := by
  unfold total
  induction m.entries using Multiset.induction with
  | empty => rfl
  | cons e es ih =>
    rw [map_cons, map_cons, sum_cons, sum_cons]
    exact (toInt_add_modEq _ _).trans (ih.add_left _)

theorem toInt_eq_of_modEq {a : Int64} (h : a.toInt ≡ n [ZMOD 2 ^ 64]) (hle : -2 ^ 63 ≤ n)
    (hlt : n < 2 ^ 63) :
  a.toInt = n
  := by
  have hmi := a.le_toInt
  have hma := a.toInt_lt
  have hmo : a.toInt % 2 ^ 64 = n % 2 ^ 64 := h
  omega

end Transition
