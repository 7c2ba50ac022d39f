import Mathlib.Logic.Relation

/-!
# Relations without circles

A relation has no circle if nothing is related to itself through any number of steps.
-/

namespace Transition

open Relation

variable {α : Type*} {R R' : α → α → Prop} {x y v : α}

def Acyclic (R : α → α → Prop) : Prop :=
  ∀ x, ¬ TransGen R x x

theorem Acyclic.of_empty (h : ∀ x y, ¬ R x y) :
  Acyclic R
  := by
  intro x hx
  obtain ⟨y, -, hyx⟩ := TransGen.tail'_iff.1 hx
  exact h y x hyx

theorem Acyclic.mono (h : Acyclic R) (hR : ∀ x y, R' x y → R x y) :
  Acyclic R'
  := fun x hx => h x (hx.lift id hR)

theorem transGen_of_sink (hR : ∀ x y, R' x y → y ≠ v → R x y) (hv : ∀ y, ¬ R' v y)
    (h : TransGen R' x y) (hy : y ≠ v) :
  TransGen R x y
  := by
  induction h with
  | single hxy => exact .single (hR _ _ hxy hy)
  | @tail z y _ hzy ih =>
    have hz : z ≠ v := by
      rintro rfl
      exact hv y hzy
    exact (ih hz).tail (hR z y hzy hy)

theorem Acyclic.add_sink (h : Acyclic R) (hR : ∀ x y, R' x y → y ≠ v → R x y) (hv : ∀ y, ¬ R' v y) :
  Acyclic R'
  := by
  intro x hx
  have hne : x ≠ v := by
    rintro rfl
    obtain ⟨y, hxy, -⟩ := TransGen.head'_iff.1 hx
    exact hv y hxy
  exact h x (transGen_of_sink hR hv hx hne)

end Transition
