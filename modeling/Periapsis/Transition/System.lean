import Mathlib.Data.List.Basic
import Mathlib.Data.List.Induction

/-!
# Systems of interleaved actions

A system takes actions one at a time; an action may be disabled in a state.
-/

namespace Transition

open List

variable {α : Type*}

theorem forall_prefix_concat_iff {P : List α → Prop} :
  (∀ l', l' <+: l ++ [a] → P l') ↔ (∀ l', l' <+: l → P l') ∧ P (l ++ [a])
  := by
  constructor
  · intro h
    constructor
    · intro l' hl'
      apply h l' (hl'.trans (prefix_append _ _))
    · apply h _ (prefix_refl _)
  · rintro ⟨h, hl⟩ l' hl'
    rcases prefix_concat_iff.1 hl' with rfl | hl'
    · exact hl
    · apply h l' hl'

variable {σ : Type*}

theorem foldl_iff {f : σ → α → σ} {P : σ → Prop} {Q : α → Prop} (h : ∀ s a, P (f s a) ↔ P s ∨ Q a)
    (l : List α) (s : σ) :
  P (l.foldl f s) ↔ P s ∨ ∃ a ∈ l, Q a
  := by
  induction l generalizing s with
  | nil => simp
  | cons a l ih => rw [foldl_cons, ih, h, exists_mem_cons_iff, or_assoc]

theorem foldl_eq {β : Type*} {l : List α} (g : σ → β) (h : ∀ a ∈ l, ∀ s, g (f s a) = g s) (s : σ) :
  g (l.foldl f s) = g s
  := by
  induction l generalizing s with
  | nil => rfl
  | cons a l ih =>
    rw [forall_mem_cons] at h
    rw [foldl_cons, ih h.2, h.1]

/-- A system in which an action may be impossible. -/
structure System (σ α : Type*) where
  step : σ → α → Option σ

namespace System

variable (S : System σ α)

def run (s : σ) : List α → Option σ
  | [] => some s
  | a :: as => (S.step s a).bind (run · as)

@[simp]
theorem run_nil :
  S.run s [] = some s
  := rfl

variable {s : σ} {as : List α} {C : σ → α → Prop} {P : σ → Prop} {t : σ} {a : α}

theorem run_cons :
  S.run s (a :: as) = some t ↔ ∃ u, S.step s a = some u ∧ S.run u as = some t
  := by
  simp [run, Option.bind_eq_some_iff]

variable {bs : List α}

theorem run_append :
  S.run s (as ++ bs) = some t ↔ ∃ u, S.run s as = some u ∧ S.run u bs = some t
  := by
  induction as generalizing s with
  | nil => simp
  | cons a as ih =>
    rw [cons_append, run_cons]
    constructor
    · rintro ⟨u, hu, ht⟩
      obtain ⟨v, hv, ht⟩ := ih.1 ht
      use v, S.run_cons.2 ⟨u, hu, hv⟩, ht
    · rintro ⟨v, hv, ht⟩
      obtain ⟨u, hu, hv⟩ := S.run_cons.1 hv
      use u, hu, ih.2 ⟨v, hv, ht⟩

theorem run_concat (h : S.run s as = some t) (a : α) :
  S.run s (as ++ [a]) = S.step t a
  := by
  induction as generalizing s with
  | nil =>
    cases h
    exact Option.bind_fun_some _
  | cons b as ih =>
    obtain ⟨u, hu, h⟩ := S.run_cons.1 h
    rw [cons_append, run, hu]
    apply ih h

theorem run_mono {T : System σ α} (h : ∀ a ∈ as, ∀ u v, S.step u a = some v → T.step u a = some v)
    (hr : S.run s as = some t) :
  T.run s as = some t
  := by
  induction as generalizing s with
  | nil => exact hr
  | cons a as ih =>
    obtain ⟨u, hu, hr⟩ := S.run_cons.1 hr
    apply T.run_cons.2
    use u, h a (by simp) s u hu
    apply ih _ hr
    intro b hb
    apply h b (by simp [hb])

def Meets (C : σ → α → Prop) (s : σ) : List α → Prop
  | [] => True
  | a :: as => C s a ∧ ∀ t, S.step s a = some t → Meets C t as

theorem meets_cons :
  S.Meets C s (a :: as)
    ↔ C s a ∧ (match S.step s a with | none => True | some t => S.Meets C t as)
  := by
  rw [Meets]
  cases S.step s a with
  | _ => simp

instance decidableMeets {C : σ → α → Prop} [∀ s a, Decidable (C s a)] (s : σ) (as : List α) :
    Decidable (S.Meets C s as) :=
  match as with
  | [] => isTrue trivial
  | a :: as =>
    have : Decidable (match S.step s a with | none => True | some t => S.Meets C t as) :=
      match S.step s a with
      | none => isTrue trivial
      | some t => decidableMeets t as
    decidable_of_iff _ S.meets_cons.symm

/-- A property that every enabled action meeting `C` preserves is preserved by every run meeting
`C`. -/
theorem run_induction (start : P s) (step : ∀ u a v, P u → C u a → S.step u a = some v → P v)
    (h : S.Meets C s as) (hr : S.run s as = some t) :
  P t
  := by
  induction as generalizing s with
  | nil =>
    cases hr
    apply start
  | cons a as ih =>
    obtain ⟨u, hu, hr⟩ := S.run_cons.1 hr
    obtain ⟨ha, has⟩ := h
    apply ih (step s a u start ha hu) (has u hu) hr

/-- A property of the actions taken and the state reached that every enabled action preserves is
preserved by every run. -/
theorem run_history {P : List α → σ → Prop} (start : P [] s)
    (step : ∀ as u a v, P as u → S.step u a = some v → P (as ++ [a]) v) (hr : S.run s as = some t) :
  P as t
  := by
  induction as using reverseRecOn generalizing t with
  | nil =>
    cases hr
    apply start
  | append_singleton as a ih =>
    obtain ⟨u, hu, -⟩ := S.run_append.1 hr
    rw [S.run_concat hu] at hr
    apply step as u a t (ih hu) hr

variable {D : σ → α → Prop}

theorem meets_of_invariant (start : P s) (step : ∀ u a v, P u → C u a → S.step u a = some v → P v)
    (hD : ∀ u a, P u → C u a → D u a) (h : S.Meets C s as) :
  S.Meets D s as
  := by
  induction as generalizing s with
  | nil => trivial
  | cons a as ih =>
    constructor
    · apply hD s a start h.1
    · intro t ht
      apply ih (step s a t start h.1 ht) (h.2 t ht)

theorem meets_append (h : S.Meets C s (as ++ bs)) :
  S.Meets C s as
  := by
  induction as generalizing s with
  | nil => trivial
  | cons a as ih => exact ⟨h.1, fun t ht => ih (h.2 t ht)⟩

theorem meets_append_of_run (h : S.Meets C s as) (hr : S.run s as = some t) (ht : S.Meets C t bs) :
  S.Meets C s (as ++ bs)
  := by
  induction as generalizing s with
  | nil =>
    cases hr
    apply ht
  | cons a as ih =>
    obtain ⟨u, hu, hr⟩ := S.run_cons.1 hr
    constructor
    · apply h.1
    · intro v hv
      cases hu.symm.trans hv
      apply ih (h.2 u hu) hr

theorem meets_of_forall (h : ∀ a ∈ as, ∀ s, C s a) (s : σ) :
  S.Meets C s as
  := by
  induction as generalizing s with
  | nil => trivial
  | cons a as ih =>
    constructor
    · apply h a (by simp)
    · intro t _
      apply ih
      intro b hb
      apply h b (by simp [hb])

theorem meets_true (s : σ) (as : List α) :
  S.Meets (fun _ _ => True) s as
  := S.meets_of_forall (fun _ _ _ => trivial) s

theorem meets_and (hC : S.Meets C s as) (hD : S.Meets D s as) :
  S.Meets (fun s a => C s a ∧ D s a) s as
  := by
  induction as generalizing s with
  | nil => trivial
  | cons a as ih => exact ⟨⟨hC.1, hD.1⟩, fun t ht => ih (hC.2 t ht) (hD.2 t ht)⟩

/-- Let an invariant hold at the start and be kept by every action meeting `D` in a state with a
property. -/
theorem forall_run_iff_meets_of_invariant {I : σ → Prop} (start : P s) (hI : I s)
    (kept : ∀ u a v, P u → I u → D u a → S.step u a = some v → I v)
    (step : ∀ u a, P u → I u → D u a → ((∀ v, S.step u a = some v → P v) ↔ C u a))
    (hD : S.Meets D s as) :
  (∀ bs, bs <+: as → ∀ t, S.run s bs = some t → P t) ↔ S.Meets C s as
  := by
  constructor
  · intro h
    induction as generalizing s with
    | nil => trivial
    | cons a as ih =>
      have hf (u : σ) (hu : S.step s a = some u) : P u := by
        apply h [a] (by simp)
        rw [run, hu]
        rfl
      constructor
      · apply (step s a start hI hD.1).1 hf
      · intro u hu
        apply ih (hf u hu) (kept s a u start hI hD.1 hu) (hD.2 u hu)
        intro bs hbs t ht
        apply h (a :: bs) (cons_prefix_cons.2 ⟨rfl, hbs⟩)
        apply S.run_cons.2 ⟨u, hu, ht⟩
  · intro h bs hbs t ht
    obtain ⟨cs, rfl⟩ := hbs
    have hbo : P t ∧ I t := by
      apply S.run_induction ⟨start, hI⟩ _ (S.meets_append (S.meets_and h hD)) ht
      intro u a v hu ha hv
      constructor
      · apply (step u a hu.1 hu.2 ha.2).2 ha.1 v hv
      · apply kept u a v hu.1 hu.2 ha.2 hv
    exact hbo.1

/-- If among the actions meeting `D` exactly those meeting `C` keep a property, it holds along a run
meeting `D` if and only if the run meets `C`. -/
theorem forall_run_iff_meets (start : P s)
    (step : ∀ u a, P u → D u a → ((∀ v, S.step u a = some v → P v) ↔ C u a)) (hD : S.Meets D s as) :
  (∀ bs, bs <+: as → ∀ t, S.run s bs = some t → P t) ↔ S.Meets C s as
  := by
  apply S.forall_run_iff_meets_of_invariant (I := fun _ => True) start trivial _ _ hD
  · intro u a v _ _ _ _
    trivial
  · intro u a hu _ ha
    apply step u a hu ha

end System

end Transition
