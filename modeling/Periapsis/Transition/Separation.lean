import Mathlib.Data.List.Induction

/-!
# Events separated by other events

`Separated p q` says that between any two events satisfying `p` there is one satisfying `q`, and
`Pending p q` that some `p` is followed by no `q`.
-/

namespace Transition

open List

variable {ε : Type*} {p q : ε → Prop}

def Separated (p q : ε → Prop) (l : List ε) : Prop :=
  ∀ a x b y d, l = a ++ x :: (b ++ y :: d) → p x → p y → ∃ z ∈ b, q z

def Pending (p q : ε → Prop) (l : List ε) : Prop :=
  ∃ a x b, l = a ++ x :: b ∧ p x ∧ ∀ z ∈ b, ¬ q z

@[simp]
theorem not_pending_nil :
  ¬ Pending p q []
  := by
  rintro ⟨a, x, b, h, -⟩
  simp at h

@[simp]
theorem separated_nil :
  Separated p q []
  := by
  intro a x b y d h
  simp at h

variable {l : List ε} {e : ε}

theorem pending_concat :
  Pending p q (l ++ [e]) ↔ p e ∨ Pending p q l ∧ ¬ q e
  := by
  constructor
  · rintro ⟨a, x, b, h, hx, hb⟩
    rcases eq_nil_or_concat b with rfl | ⟨b', z, rfl⟩
    · obtain ⟨-, he⟩ := append_inj' h rfl
      left
      rw [singleton_inj.1 he]
      apply hx
    · rw [concat_eq_append, ← cons_append, ← append_assoc] at h
      obtain ⟨rfl, he⟩ := append_inj' h rfl
      right
      constructor
      · use a, x, b', rfl, hx
        intro w hw
        apply hb
        simp [hw]
      · rw [singleton_inj.1 he]
        apply hb
        simp
  · rintro (he | ⟨⟨a, x, b, rfl, hx, hb⟩, he⟩)
    · use l, e, [], rfl, he
      simp
    · use a, x, b ++ [e], by simp, hx
      intro z hz
      rcases mem_append.1 hz with hz | hz
      · apply hb z hz
      · rw [mem_singleton.1 hz]
        apply he

theorem separated_concat :
  Separated p q (l ++ [e]) ↔ Separated p q l ∧ (p e → ¬ Pending p q l)
  := by
  constructor
  · intro h
    constructor
    · rintro a x b y d rfl hx hy
      apply h a x b y (d ++ [e]) (by simp) hx hy
    · rintro he ⟨a, x, b, rfl, hx, hb⟩
      obtain ⟨z, hz, hqz⟩ := h a x b e [] (by simp) hx he
      apply hb z hz hqz
  · rintro ⟨hl, he⟩ a x b y d h hx hy
    rcases eq_nil_or_concat d with rfl | ⟨d', z, rfl⟩
    · rw [← cons_append, ← append_assoc] at h
      obtain ⟨rfl, hy'⟩ := append_inj' h rfl
      rw [← singleton_inj.1 hy'] at hy
      by_contra hb
      apply he hy
      use a, x, b, rfl, hx
      intro z hz hqz
      apply hb
      use z, hz, hqz
    · rw [concat_eq_append, ← cons_append, ← append_assoc, ← cons_append,
        ← append_assoc] at h
      obtain ⟨rfl, -⟩ := append_inj' h rfl
      apply hl a x b y d' (by simp) hx hy

variable {m : List ε}

theorem pending_append (hm : ∀ e ∈ m, ¬ q e) :
  Pending p q (l ++ m) ↔ (∃ e ∈ m, p e) ∨ Pending p q l
  := by
  induction m using reverseRecOn with
  | nil => simp
  | append_singleton m e ih =>
    have he : ¬ q e := hm e (by simp)
    rw [← append_assoc, pending_concat, ih fun z hz => hm z (by simp [hz])]
    simp only [he, not_false_eq_true, and_true, mem_append, mem_singleton, or_and_right,
      exists_or, exists_eq_left]
    rw [← or_assoc, @or_comm (p e)]

theorem Pending.exists_place (h : Pending p q l) :
  ∃ (i : Nat) (x : ε), l[i]? = some x ∧ p x ∧ ∀ j z, i < j → l[j]? = some z → ¬ q z
  := by
  obtain ⟨a, x, b, rfl, hx, hb⟩ := h
  use a.length, x, by simp, hx
  intro j z hj hz
  apply hb
  rw [getElem?_append_right (Nat.le_of_lt hj), getElem?_cons, if_neg (by omega)] at hz
  apply mem_of_getElem? hz

theorem separated_append (hm : ∀ e ∈ m, ¬ q e) :
  Separated p q (l ++ m)
    ↔ Separated p q l ∧ (∀ e ∈ m, p e → ¬ Pending p q l) ∧ m.Pairwise (fun x y => ¬ (p x ∧ p y))
  := by
  induction m using reverseRecOn with
  | nil => simp
  | append_singleton m e ih =>
    have hm' : ∀ z ∈ m, ¬ q z := fun z hz => hm z (by simp [hz])
    rw [← append_assoc, separated_concat, ih hm', pending_append hm', pairwise_append]
    constructor
    · rintro ⟨⟨hl, hf, hpa⟩, he⟩
      refine ⟨hl, ?_, hpa, pairwise_singleton _ _, ?_⟩
      · intro z hz hpz
        rcases mem_append.1 hz with hz | hz
        · apply hf z hz hpz
        · obtain rfl := mem_singleton.1 hz
          intro hp
          apply he hpz (.inr hp)
      · rintro z hz w hw ⟨hpz, hpw⟩
        obtain rfl := mem_singleton.1 hw
        apply he hpw (.inl ⟨z, hz, hpz⟩)
    · rintro ⟨hl, hf, hpa, -, hc⟩
      refine ⟨⟨hl, fun z hz => hf z (by simp [hz]), hpa⟩, ?_⟩
      rintro hpe (⟨z, hz, hpz⟩ | hp)
      · apply hc z hz e (by simp) ⟨hpz, hpe⟩
      · apply hf e (by simp) hpe hp

end Transition
