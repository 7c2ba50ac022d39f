import Mathlib.Data.List.Infix

/-!
# Machines with outputs

A machine moves to a new state on each input, and emits a list of outputs.
-/

namespace Transition

open List

@[ext]
structure Mealy (σ ι ο : Type*) where
  step : σ → ι → σ × List ο

namespace Mealy

variable {σ ι ο : Type*} (M : Mealy σ ι ο)

def final (s : σ) : List ι → σ
  | [] => s
  | i :: is => final (M.step s i).1 is

def outputs (s : σ) : List ι → List ο
  | [] => []
  | i :: is => (M.step s i).2 ++ outputs (M.step s i).1 is

def trace (s : σ) : List ι → List (ι ⊕ ο)
  | [] => []
  | i :: is => .inl i :: ((M.step s i).2.map .inr ++ trace (M.step s i).1 is)

def states (s : σ) : List ι → List σ
  | [] => [s]
  | i :: is => s :: states (M.step s i).1 is

variable {s : σ}

@[simp]
theorem final_nil :
  M.final s [] = s
  := rfl

variable {i : ι} {is : List ι}

@[simp]
theorem final_cons :
  M.final s (i :: is) = M.final (M.step s i).1 is
  := rfl

@[simp]
theorem outputs_nil :
  M.outputs s [] = []
  := rfl

@[simp]
theorem outputs_cons :
  M.outputs s (i :: is) = (M.step s i).2 ++ M.outputs (M.step s i).1 is
  := rfl

variable {js : List ι}

theorem final_append :
  M.final s (is ++ js) = M.final (M.final s is) js
  := by
  induction is generalizing s with
  | nil => rfl
  | cons i is ih => apply ih

theorem outputs_append :
  M.outputs s (is ++ js) = M.outputs s is ++ M.outputs (M.final s is) js
  := by
  induction is generalizing s with
  | nil => rfl
  | cons i is ih => simp [ih]

theorem states_concat :
  M.states s (is ++ [i]) = M.states s is ++ [(M.step (M.final s is) i).1]
  := by
  induction is generalizing s with
  | nil => rfl
  | cons j is ih => simp [states, ih]

variable {C : σ → ι → Prop}

theorem final_eq_self (h : ∀ i ∈ is, (M.step s i).1 = s) :
  M.final s is = s
  := by
  induction is with
  | nil => rfl
  | cons i is ih =>
    rw [final_cons, h i mem_cons_self]
    apply ih
    intro j hj
    apply h j (mem_cons_of_mem i hj)

/-- Every step of the run meets the condition. -/
def Meets (C : σ → ι → Prop) (s : σ) : List ι → Prop
  | [] => True
  | i :: is => C s i ∧ Meets C (M.step s i).1 is

theorem meets_of_forall {C : ι → Prop} (s : σ) (h : ∀ i ∈ is, C i) :
  M.Meets (fun _ i => C i) s is
  := by
  induction is generalizing s with
  | nil => trivial
  | cons i is ih =>
    use h i mem_cons_self
    apply ih
    intro j hj
    apply h j (mem_cons_of_mem i hj)

theorem meets_iff_forall_split (s : σ) (is : List ι) :
  M.Meets C s is ↔ ∀ pre i post, is = pre ++ i :: post → C (M.final s pre) i
  := by
  induction is generalizing s with
  | nil => simp [Meets]
  | cons i is ih =>
    constructor
    · rintro ⟨hi, his⟩ pre j post heq
      cases pre with
      | nil =>
        cases heq
        apply hi
      | cons k pre =>
        obtain ⟨rfl, hta⟩ := List.cons.inj heq
        apply (ih _).1 his pre j post hta
    · intro h
      use h [] i is rfl
      apply (ih _).2
      rintro pre j post rfl
      apply h (i :: pre) j post rfl

theorem Meets.left (h : M.Meets C s (is ++ js)) :
  M.Meets C s is
  := by
  apply (M.meets_iff_forall_split s is).2
  rintro pre i post rfl
  apply (M.meets_iff_forall_split s _).1 h pre i (post ++ js)
  simp

/-- A property of traces and states that every step meeting `C` preserves is preserved by every run
meeting `C`. -/
theorem trace_induction {P : List (ι ⊕ ο) → σ → Prop} (start : P [] s)
    (step : ∀ tr t i, P tr t → C t i → P (tr ++ .inl i :: (M.step t i).2.map .inr) (M.step t i).1)
    (h : M.Meets C s is) :
  P (M.trace s is) (M.final s is)
  := by
  suffices general : ∀ is tr t, P tr t → M.Meets C t is → P (tr ++ M.trace t is) (M.final t is) by
    apply general is [] s start h
  intro is
  induction is with
  | nil =>
    intro tr t ht _
    simpa [trace] using ht
  | cons i is ih =>
    rintro tr t ht ⟨hi, his⟩
    have hs := ih _ _ (step tr t i ht hi) his
    simpa [trace] using hs

theorem filterMap_getRight?_step :
  (.inl i :: os.map (.inr : ο → ι ⊕ ο)).filterMap Sum.getRight? = os
  := by
  rw [filterMap_cons_none rfl, filterMap_map]
  exact filterMap_some

theorem outputs_eq_filterMap_trace :
  M.outputs s is = (M.trace s is).filterMap Sum.getRight?
  := by
  induction is generalizing s with
  | nil => rfl
  | cons i is ih =>
    rw [outputs_cons, trace, ← cons_append, filterMap_append,
      filterMap_getRight?_step, ih]

/-- A property of outputs and states that every step meeting `C` preserves is preserved by every run
meeting `C`. -/
theorem outputs_induction {P : List ο → σ → Prop} (start : P [] s)
    (step : ∀ os t i, P os t → C t i → P (os ++ (M.step t i).2) (M.step t i).1)
    (h : M.Meets C s is) :
  P (M.outputs s is) (M.final s is)
  := by
  rw [outputs_eq_filterMap_trace]
  apply M.trace_induction (P := fun tr t => P (tr.filterMap Sum.getRight?) t) start _ h
  intro tr t i ht hi
  rw [filterMap_append, filterMap_getRight?_step]
  apply step _ t i ht hi

variable {P : σ → Prop}

/-- A property of states that every step meeting `C` preserves is preserved by every run meeting
`C`. -/
theorem final_induction (start : P s) (step : ∀ t i, P t → C t i → P (M.step t i).1)
    (h : M.Meets C s is) :
  P (M.final s is)
  := M.trace_induction (P := fun _ t => P t) start (fun _ t i => step t i) h

theorem forall_prefix_cons {α : Type*} {Q : List α → Prop} (a : α) (l : List α) :
  (∀ l', l' <+: a :: l → Q l') ↔ Q [] ∧ ∀ l', l' <+: l → Q (a :: l')
  := by
  constructor
  · intro h
    use h [] nil_prefix
    intro l' hl'
    apply h
    apply (prefix_cons_inj a).2 hl'
  · rintro ⟨hn, hc⟩ l' hl'
    rcases prefix_cons_iff.1 hl' with rfl | ⟨t, rfl, ht⟩
    · exact hn
    · exact hc t ht

/-- If under an invariant `I` exactly the steps satisfying `C` keep `P`, then `P` holds throughout a
run exactly when the run meets `C`. -/
theorem forall_final_iff_meets {D : ι → Prop} {I : σ → Prop} (hI : I s) (hP : P s)
    (inv : ∀ t i, D i → I t → I (M.step t i).1)
    (step : ∀ t i, D i → I t → P t → (P (M.step t i).1 ↔ C t i)) (hD : ∀ i ∈ is, D i) :
  (∀ pre, pre <+: is → P (M.final s pre)) ↔ M.Meets C s is
  := by
  induction is generalizing s with
  | nil =>
    constructor
    · intro _
      trivial
    · intro _ pre hp
      rw [prefix_nil.1 hp]
      apply hP
  | cons i is ih =>
    have hi : D i := hD i mem_cons_self
    have his : ∀ j ∈ is, D j := fun j hj => hD j (mem_cons_of_mem i hj)
    have hr := fun hf => ih (inv s i hi hI) hf his
    rw [forall_prefix_cons, Meets, ← step s i hi hI hP]
    constructor
    · rintro ⟨-, h⟩
      have hf : P (M.step s i).1 := h [] nil_prefix
      exact ⟨hf, (hr hf).1 h⟩
    · rintro ⟨hf, hm⟩
      exact ⟨hP, (hr hf).2 hm⟩

theorem mem_outputs_iff :
  o ∈ M.outputs s is
    ↔ ∃ pre i post, is = pre ++ i :: post ∧ o ∈ (M.step (M.final s pre) i).2
  := by
  induction is generalizing s with
  | nil => simp
  | cons i is ih =>
    rw [outputs_cons, mem_append, ih]
    constructor
    · rintro (ho | ⟨pre, j, post, rfl, ho⟩)
      · use [], i, is, rfl, ho
      · use i :: pre, j, post, rfl, ho
    · rintro ⟨pre, j, post, heq, ho⟩
      cases pre with
      | nil =>
        cases heq
        left
        apply ho
      | cons k pre =>
        cases heq
        right
        use pre, j, post, rfl, ho

section Iteration

variable {δ γ : Type*}

def Iterates (holds : σ → δ → Prop) (observe : List ο → List γ) (f : δ → δ) (g : δ → γ)
    (s : σ) (i : ι) : Prop :=
  ∀ d, holds s d →
    observe (M.step s i).2 = [] ∧ holds (M.step s i).1 d
      ∨ observe (M.step s i).2 = [g d] ∧ holds (M.step s i).1 (f d)

variable {observe : List ο → List γ} {f : δ → δ} {g : δ → γ} {d : δ}

theorem observed_eq_iterates {holds : σ → δ → Prop} (hn : observe [] = [])
    (ha : ∀ os os', observe (os ++ os') = observe os ++ observe os')
    (hst : ∀ s i, C s i → M.Iterates holds observe f g s i) (hme : M.Meets C s is)
    (hs : holds s d) :
  ∃ k, observe (M.outputs s is) = (range k).map fun n => g (f^[n] d)
  := by
  induction is generalizing s d with
  | nil =>
    use 0
    simpa using hn
  | cons i is ih =>
    obtain ⟨hi, his⟩ := hme
    rw [outputs_cons, ha]
    rcases hst s i hi d hs with ⟨hsh, hke⟩ | ⟨hsh, hmo⟩
    · obtain ⟨k, hk⟩ := ih his hke
      use k
      rw [hsh, hk, nil_append]
    · obtain ⟨k, hk⟩ := ih his hmo
      use k + 1
      rw [hsh, hk, range_succ_eq_map]
      simp [Function.comp_def]

theorem observed_eq_iterate {holds : σ → δ → Prop} (hn : observe [] = [])
    (ha : ∀ os os', observe (os ++ os') = observe os ++ observe os')
    (hst : ∀ s i, C s i → M.Iterates holds observe f g s i) (hme : M.Meets C s is)
    (hs : holds s d) (hx : (observe (M.outputs s is))[n]? = some x) :
  x = g (f^[n] d)
  := by
  obtain ⟨k, hk⟩ := M.observed_eq_iterates hn ha hst hme hs
  rw [hk, getElem?_map] at hx
  obtain ⟨m, hm, rfl⟩ := Option.map_eq_some_iff.1 hx
  obtain ⟨hlt, rfl⟩ := List.getElem?_eq_some_iff.1 hm
  rw [getElem_range]

end Iteration

/-! ### Machines seen in part -/

variable {τ κ π : Type*}

def along (proj : σ → ι → κ) (s : σ) : List ι → List κ
  | [] => []
  | i :: is => proj s i :: along proj (M.step s i).1 is

variable {M}

theorem forall_mem_along {proj : σ → ι → κ} {D : κ → Prop} :
  (∀ k ∈ M.along proj s is, D k) ↔ M.Meets (fun t i => D (proj t i)) s is
  := by
  induction is generalizing s with
  | nil => simp [along, Meets]
  | cons i is ih => rw [along, List.forall_mem_cons, Meets, ih]

/-- As long as `I` holds, the part of the state given by `view` moves as the machine `N` does, with
the outputs given by `seen`. -/
structure Projects (M : Mealy σ ι ο) (N : Mealy τ κ π) (I : σ → Prop) (view : σ → τ)
    (proj : σ → ι → κ) (seen : ο → Option π) : Prop where
  inv : ∀ s i, I s → I (M.step s i).1
  state : ∀ s i, I s → (N.step (view s) (proj s i)).1 = view (M.step s i).1
  emitted : ∀ s i, I s → (N.step (view s) (proj s i)).2 = (M.step s i).2.filterMap seen

namespace Projects

variable {N : Mealy τ κ π} {I : σ → Prop} {view : σ → τ} {proj : σ → ι → κ} {seen : ο → Option π}

section

variable (h : Projects M N I view proj seen)
include h

theorem inv_final (hs : I s) (is : List ι) :
  I (M.final s is)
  := by
  induction is generalizing s with
  | nil => apply hs
  | cons i is ih => apply ih (h.inv s i hs)

theorem final (hs : I s) (is : List ι) :
  N.final (view s) (M.along proj s is) = view (M.final s is)
  := by
  induction is generalizing s with
  | nil => rfl
  | cons i is ih =>
    rw [along, final_cons, final_cons, h.state s i hs]
    apply ih (h.inv s i hs)

theorem outputs (hs : I s) (is : List ι) :
  N.outputs (view s) (M.along proj s is) = (M.outputs s is).filterMap seen
  := by
  induction is generalizing s with
  | nil => rfl
  | cons i is ih =>
    rw [along, outputs_cons, outputs_cons, List.filterMap_append, h.state s i hs,
      h.emitted s i hs, ih (h.inv s i hs)]

theorem meets {C : τ → κ → Prop} (hs : I s) (is : List ι) :
  N.Meets C (view s) (M.along proj s is) ↔ M.Meets (fun t i => C (view t) (proj t i)) s is
  := by
  induction is generalizing s with
  | nil => rfl
  | cons i is ih =>
    rw [along, Meets, Meets, h.state s i hs, ih (h.inv s i hs)]

theorem forall_prefix (hs : I s) {P : τ → Prop} (is : List ι) :
  (∀ ks, ks <+: M.along proj s is → P (N.final (view s) ks))
    ↔ ∀ js, js <+: is → P (view (M.final s js))
  := by
  induction is generalizing s with
  | nil => simp [along]
  | cons i is ih =>
    have hr := ih (h.inv s i hs)
    rw [← h.state s i hs] at hr
    rw [along, forall_prefix_cons, forall_prefix_cons]
    exact and_congr Iff.rfl hr

end

end Projects

end Mealy

end Transition
