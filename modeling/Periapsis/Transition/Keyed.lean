import Periapsis.Transition.Mealy

/-!
# A family of machines, one for each key

Each input carries a key.
-/

namespace Transition

open List Function

variable {σ ι ο κ : Type*} [DecidableEq κ]

/-- How a family of machines is kept: the key an input carries, the keys accepted, the
state standing for an absent one, and the states worth holding. -/
structure Routing (σ ι κ : Type*) where
  key : ι → κ
  accepts : κ → Bool
  zero : σ
  live : σ → Bool

def Mealy.keyed (M : Mealy σ ι ο) (R : Routing σ ι κ) : Mealy (κ → Option σ) ι ο where
  step m i :=
    if R.accepts (R.key i) then
      let r := M.step ((m (R.key i)).getD R.zero) i
      (Function.update m (R.key i) (if R.live r.1 then some r.1 else none), r.2)
    else (m, [])

namespace Mealy

variable (M : Mealy σ ι ο) (R : Routing σ ι κ) {m : κ → Option σ} {i : ι}

theorem step_keyed (h : R.accepts (R.key i)) :
  (M.keyed R).step m i
    = (update m (R.key i)
        (if R.live (M.step ((m (R.key i)).getD R.zero) i).1
          then some (M.step ((m (R.key i)).getD R.zero) i).1 else none),
      (M.step ((m (R.key i)).getD R.zero) i).2)
  := by
  simp only [keyed, h, if_true]

theorem step_keyed_of_not_accepts (h : ¬ R.accepts (R.key i)) :
  (M.keyed R).step m i = (m, [])
  := by
  simp only [keyed, h]
  rfl

variable {k : κ}

theorem step_keyed_of_ne (h : R.key i ≠ k) :
  ((M.keyed R).step m i).1 k = m k
  := by
  by_cases ha : R.accepts (R.key i)
  · rw [M.step_keyed R ha]
    apply update_of_ne h.symm
  · rw [M.step_keyed_of_not_accepts R ha]

variable {m' : κ → Option σ}

theorem step_keyed_congr (h : m (R.key i) = m' (R.key i)) :
  ((M.keyed R).step m i).1 (R.key i) = ((M.keyed R).step m' i).1 (R.key i)
    ∧ ((M.keyed R).step m i).2 = ((M.keyed R).step m' i).2
  := by
  by_cases ha : R.accepts (R.key i)
  · rw [M.step_keyed R ha, M.step_keyed R ha, h]
    simp
  · rw [M.step_keyed_of_not_accepts R ha, M.step_keyed_of_not_accepts R ha]
    exact ⟨h, rfl⟩

theorem final_keyed (h : m k = m' k) :
  (M.keyed R).final m is k = (M.keyed R).final m' (is.filter (R.key · = k)) k
  := by
  induction is generalizing m m' with
  | nil => apply h
  | cons i is ih =>
    by_cases hi : R.key i = k
    · subst hi
      rw [filter_cons_of_pos (by simp)]
      apply ih
      apply (M.step_keyed_congr R h).1
    · rw [filter_cons_of_neg (by simpa using hi)]
      apply ih
      rw [M.step_keyed_of_ne R hi, h]

def Owned (ident : σ → κ) (m : κ → Option σ) : Prop :=
  ∀ k s, m k = some s → ident s = k

section Isolation

variable {M R} {ident : σ → κ} {owner : ο → κ}

theorem Owned.step
    (keeps : ∀ s i, ident s = R.key i → R.live (M.step s i).1 → ident (M.step s i).1 = R.key i)
    (fresh : ∀ i, R.live (M.step R.zero i).1 → ident (M.step R.zero i).1 = R.key i)
    (hm : Owned ident m) (i : ι) :
  Owned ident ((M.keyed R).step m i).1
  := by
  intro k s hs
  by_cases hk : R.key i = k
  · subst hk
    by_cases ha : R.accepts (R.key i)
    · simp only [M.step_keyed R ha, update_self] at hs
      split at hs
      next hl =>
        cases hs
        cases hg : m (R.key i) with
        | none =>
          rw [hg] at hl
          apply fresh i hl
        | some t =>
          rw [hg] at hl
          apply keeps t i (hm _ _ hg) hl
      · cases hs
    · rw [M.step_keyed_of_not_accepts R ha] at hs
      apply hm _ s hs
  · rw [M.step_keyed_of_ne R hk] at hs
    apply hm k s hs

/-- When every state is held under its own key, the outputs belonging to a key are those emitted on
the inputs carrying that key. -/
theorem outputs_keyed
    (keeps : ∀ s i, ident s = R.key i → R.live (M.step s i).1 → ident (M.step s i).1 = R.key i)
    (fresh : ∀ i, R.live (M.step R.zero i).1 → ident (M.step R.zero i).1 = R.key i)
    (emits : ∀ s i, ident s = R.key i → ∀ o ∈ (M.step s i).2, owner o = R.key i)
    (silent : ∀ i, (M.step R.zero i).2 = []) (hm : Owned ident m) (hm' : Owned ident m')
    (h : m k = m' k) (is : List ι) :
  ((M.keyed R).outputs m is).filter (owner · = k)
    = ((M.keyed R).outputs m' (is.filter (R.key · = k))).filter (owner · = k)
  := by
  induction is generalizing m m' with
  | nil => rfl
  | cons i is ih =>
    have hst := hm.step keeps fresh i
    by_cases hi : R.key i = k
    · subst hi
      obtain ⟨hen, hou⟩ := M.step_keyed_congr R h
      rw [filter_cons_of_pos (by simp), outputs_cons, outputs_cons, filter_append,
        filter_append, hou, ih hst (hm'.step keeps fresh i) hen]
    · have hq : ((M.keyed R).step m i).2.filter (owner · = k) = [] := by
        apply filter_eq_nil_iff.2
        intro o ho
        suffices owner o = R.key i by simpa [this] using hi
        by_cases ha : R.accepts (R.key i)
        · rw [M.step_keyed R ha] at ho
          cases hg : m (R.key i) with
          | none =>
            rw [hg, Option.getD_none, silent] at ho
            cases ho
          | some t =>
            rw [hg] at ho
            apply emits t i (hm _ _ hg) o ho
        · rw [M.step_keyed_of_not_accepts R ha] at ho
          cases ho
      rw [filter_cons_of_neg (by simpa using hi), outputs_cons, filter_append, hq,
        nil_append]
      apply ih hst hm'
      rw [M.step_keyed_of_ne R hi, h]

end Isolation

end Mealy

end Transition
