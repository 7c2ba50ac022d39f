import Mathlib.Data.List.Count

/-!
# Threads and marks

One of several threads takes a step, and leaves any number of threads in its place (`splice`).
-/

namespace Transition

open List Function Bool

variable {τ κ : Type*}

/-- The `i`-th thread is replaced by others. -/
def splice (l : List τ) (i : Nat) (ts : List τ) : List τ :=
  l.take i ++ ts ++ l.drop (i + 1)

variable {l ts : List τ} {i : Nat} {t : τ}

theorem eq_append_of_getElem? (h : l[i]? = some t) :
  l = l.take i ++ t :: l.drop (i + 1)
  := by
  obtain ⟨hi, rfl⟩ := List.getElem?_eq_some_iff.1 h
  rw [← drop_eq_getElem_cons hi, take_append_drop]

variable {u : τ}

theorem mem_splice (h : u ∈ splice l i ts) :
  u ∈ l ∨ u ∈ ts
  := by
  rw [splice, mem_append, mem_append] at h
  rcases h with (hta | hts) | hd
  · left
    apply mem_of_mem_take hta
  · right
    exact hts
  · left
    apply mem_of_mem_drop hd

theorem mem_splice_of_mem (ts : List τ) (h : l[i]? = some t) (hu : u ∈ l) :
  u = t ∨ u ∈ splice l i ts
  := by
  rw [eq_append_of_getElem? h, mem_append, mem_cons] at hu
  rw [splice, mem_append, mem_append]
  rcases hu with hta | rfl | hd
  · exact .inr (.inl (.inl hta))
  · exact .inl rfl
  · exact .inr (.inr hd)

theorem mem_splice_of_left (hu : u ∈ ts) :
  u ∈ splice l i ts
  := by
  rw [splice, mem_append, mem_append]
  exact .inl (.inr hu)

theorem exists_mem_splice {P : τ → Prop} (h : l[i]? = some t) (hts : P t → ∃ u ∈ ts, P u)
    (hex : ∃ u ∈ l, P u) :
  ∃ u ∈ splice l i ts, P u
  := by
  obtain ⟨u, hu, hP⟩ := hex
  rcases mem_splice_of_mem ts h hu with rfl | hu'
  · obtain ⟨v, hv, hPv⟩ := hts hP
    exact ⟨v, mem_splice_of_left hv, hPv⟩
  · exact ⟨u, hu', hP⟩

variable {α : Type*}

theorem filterMap_splice (f : τ → Option α) (ts : List τ) (h : l[i]? = some t) :
  ∃ a b, l.filterMap f = a ++ (f t).toList ++ b
    ∧ (splice l i ts).filterMap f = a ++ ts.filterMap f ++ b
  := by
  refine ⟨(l.take i).filterMap f, (l.drop (i + 1)).filterMap f, ?_, ?_⟩
  · have hl := congrArg (filterMap f) (eq_append_of_getElem? h)
    rw [filterMap_append, filterMap_cons] at hl
    rw [hl]
    cases f t with
    | _ => simp
  · rw [splice, filterMap_append, filterMap_append]

theorem filterMap_splice_eq (h : l[i]? = some t) (hts : ts.filterMap f = (f t).toList) :
  (splice l i ts).filterMap f = l.filterMap f
  := by
  obtain ⟨a, b, hl, hs⟩ := filterMap_splice f ts h
  rw [hl, hs, hts]

section Marks

variable [DecidableEq κ] {holds : τ → Option κ} {marks : κ → Bool} {k : κ}

def Exclusive (holds : τ → Option κ) (marks : κ → Bool) (l : List τ) : Prop :=
  ∀ k, (l.filterMap holds).count k = (marks k).toNat

theorem Exclusive.nil :
  Exclusive holds (fun _ => false) []
  := fun _ => rfl

theorem count_splice (holds : τ → Option κ) (ts : List τ) (h : l[i]? = some t) (k : κ) :
  ((splice l i ts).filterMap holds).count k + (holds t).toList.count k
    = (l.filterMap holds).count k + (ts.filterMap holds).count k
  := by
  obtain ⟨a, b, hl, hs⟩ := filterMap_splice holds ts h
  rw [hl, hs]
  simp only [count_append]
  omega

section

variable (h : Exclusive holds marks l)
include h

theorem Exclusive.splice (ht : l[i]? = some t) (hts : ts.filterMap holds = (holds t).toList) :
  Exclusive holds marks (splice l i ts)
  := by
  intro k
  rw [filterMap_splice_eq ht hts]
  apply h

theorem Exclusive.acquire (ht : l[i]? = some t) (hn : holds t = none)
    (hts : ts.filterMap holds = [k]) (hf : marks k = false) :
  Exclusive holds (update marks k true) (Transition.splice l i ts)
  := by
  intro k'
  have hc := count_splice holds ts ht k'
  rw [hn, hts, h k'] at hc
  by_cases heq : k' = k
  · subst heq
    simpa [hf] using hc
  · rw [update_of_ne heq]
    simpa [Ne.symm heq] using hc

theorem Exclusive.release (ht : l[i]? = some t) (hh : holds t = some k)
    (hts : ts.filterMap holds = []) :
  Exclusive holds (update marks k false) (Transition.splice l i ts)
  := by
  intro k'
  have hc := count_splice holds ts ht k'
  rw [hh, hts, h k'] at hc
  by_cases heq : k' = k
  · subst heq
    rw [update_self]
    have hle : (marks k').toNat ≤ 1 := toNat_le _
    simp only [Option.toList_some, count_singleton_self, count_nil] at hc
    simp only [toNat_false]
    omega
  · rw [update_of_ne heq]
    simpa [Ne.symm heq] using hc

theorem Exclusive.append (hts : ts.filterMap holds = []) :
  Exclusive holds marks (l ++ ts)
  := by
  intro k
  rw [filterMap_append, hts, append_nil]
  apply h

theorem Exclusive.countP_le_one (hp : ∀ t, p t → holds t = some k) :
  l.countP p ≤ 1
  := by
  have hc := h k
  rw [count, countP_filterMap] at hc
  have hm : l.countP p ≤ l.countP fun t => ((holds t).map (· == k)).getD false := by
    apply countP_mono_left
    intro t _ hpt
    simp [hp t hpt]
  have hle : (marks k).toNat ≤ 1 := toNat_le _
  omega

theorem Exclusive.eq_of_holds (ht : t ∈ l) (hu : u ∈ l) (htk : holds t = some k)
    (huk : holds u = some k) :
  t = u
  := by
  have hle : (l.filter fun t => holds t = some k).length ≤ 1 := by
    rw [← countP_eq_length_filter]
    apply h.countP_le_one (k := k)
    intro t ht
    simpa using ht
  have hme (v : τ) (hv : v ∈ l) (hvk : holds v = some k) :
      v ∈ l.filter fun t => holds t = some k :=
    mem_filter.2 ⟨hv, by simpa using hvk⟩
  have htm := hme t ht htk
  have hum := hme u hu huk
  obtain ⟨x, hx⟩ := length_eq_one_iff.1
    (Nat.le_antisymm hle (length_pos_of_mem htm))
  rw [hx, mem_singleton] at htm hum
  rw [htm, hum]

end

end Marks

end Transition
