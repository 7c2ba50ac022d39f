import Mathlib.Data.List.Rotate
import Mathlib.Data.Nat.ModEq
import Periapsis.Image.PeerFallback

/-!
# Round robin over the peers

The cursor of a selector counts the picks, and is reduced only when a peer is marked bad.
-/

namespace Periapsis.Image

open Transition List PeerSelector Nat

variable {ε : Type*} [DecidableEq ε]

inductive SelectorCall (ε : Type*) where
  | pick
  | markBad (ep : ε)

def selectorCalls : System (PeerSelector ε × Option ε) (SelectorCall ε) where
  step s
    | .pick => some (s.1.pick.1, s.1.pick.2 <|> s.2)
    | .markBad ep => some (s.1.markBad ep, s.2)

/-- The peers in turn, beginning after `last`. -/
def following (peers : List ε) : Option ε → List ε
  | none => peers
  | some last => peers.rotate (peers.idxOf last + 1)

def nextHealthy (peers : List ε) (s : PeerSelector ε × Option ε) : Option ε :=
  (following peers s.2).find? (· ∈ s.1.healthy)

/-- With `q` whole rounds behind the cursor, dropping the peer at `i` of `n` moves the cursor by
`q` places, and by one that is meant. -/
def KeepsTurn (s : PeerSelector ε × Option ε) : SelectorCall ε → Prop
  | .pick => True
  | .markBad ep =>
    let n := s.1.healthy.length
    ep ∈ s.1.healthy → 1 < n → if s.1.healthy.idxOf ep < s.1.next % n then n - 1 ∣ s.1.next / n
      else s.1.next / n = 0 ∨ n - 1 ∣ s.1.next / n - 1

instance (s : PeerSelector ε × Option ε) (c : SelectorCall ε) : Decidable (KeepsTurn s c) := by
  cases c with
  | _ => unfold KeepsTurn; infer_instance

/-- The healthy peers in turn begin at the cursor. -/
def InTurn (peers : List ε) (s : PeerSelector ε × Option ε) : Prop :=
  (following peers s.2).filter (· ∈ s.1.healthy) = s.1.healthy.rotate s.1.next

variable {peers : List ε} {s : PeerSelector ε × Option ε} {ps : PeerSelector ε}

omit [DecidableEq ε] in
theorem pick_eq :
  ps.pick.2 = (ps.healthy.rotate ps.next).head?
  := by
  unfold pick
  split
  next h => simp [length_eq_zero_iff.1 h]
  next h => rw [← rotate_mod, head?_rotate (Nat.mod_lt _ (Nat.pos_of_ne_zero h))]

omit [DecidableEq ε] in
theorem filter_rotate (l : List ε) (p : ε → Bool) (k : ℕ) :
  ∃ j, (l.rotate k).filter p = (l.filter p).rotate j
  := by
  use ((l.take (k % l.length)).filter p).length
  rw [rotate_eq_drop_append_take_mod, filter_append, ← rotate_append_length_eq,
    ← filter_append, take_append_drop]

variable {l : List ε}

omit [DecidableEq ε] in
theorem rotate_eq_of_head? (hl : l.Nodup) (h : (l.rotate j).head? = (l.rotate k).head?) :
  l.rotate j = l.rotate k
  := by
  rw [hl.rotate_congr_iff]
  by_cases hn : l = []
  · exact .inr hn
  · have h0 := length_pos_of_ne_nil hn
    have hj := Nat.mod_lt j h0
    have hk := Nat.mod_lt k h0
    rw [← rotate_mod, ← rotate_mod l k, head?_rotate hj, head?_rotate hk,
      getElem?_eq_getElem hj, getElem?_eq_getElem hk, Option.some_inj,
      hl.getElem_inj_iff] at h
    exact .inl h

theorem pick_eq_nextHealthy_iff (hp : peers.Nodup)
    (hs : peers.filter (· ∈ s.1.healthy) = s.1.healthy) :
  s.1.pick.2 = nextHealthy peers s ↔ InTurn peers s
  := by
  obtain ⟨j, hj⟩ : ∃ j, (following peers s.2).filter (· ∈ s.1.healthy) = s.1.healthy.rotate j := by
    cases h : s.2 with
    | none => exact ⟨0, by simp [following, hs]⟩
    | some last =>
      obtain ⟨j, hj⟩ := filter_rotate peers (· ∈ s.1.healthy) (peers.idxOf last + 1)
      exact ⟨j, by rw [following, hj, hs]⟩
  have hd : s.1.healthy.Nodup := hs ▸ hp.filter _
  rw [pick_eq, nextHealthy, ← head?_filter, InTurn, hj, eq_comm]
  exact ⟨rotate_eq_of_head? hd, congrArg _⟩

variable {A B : List ε}

theorem rotate_idxOf (hx : x ∉ A) :
  (A ++ x :: B).rotate ((A ++ x :: B).idxOf x + 1) = B ++ (A ++ [x])
  := by
  rw [idxOf_append_of_notMem hx, idxOf_cons_self, add_zero, append_cons]
  have h := rotate_append_length_eq (A ++ [x]) B
  rwa [length_append] at h

theorem filter_following (hp : peers.Nodup) (hl : peers.filter (· ∈ l) = l) (hx : x ∈ l) :
  (following peers (some x)).filter (· ∈ l) = l.rotate (l.idxOf x + 1)
  := by
  have hxp : x ∈ peers := (mem_filter.1 (hl ▸ hx)).1
  obtain ⟨A, B, rfl⟩ := append_of_mem hxp
  have hxA : x ∉ A := fun h => (nodup_append.1 hp).2.2 x h x (by simp) rfl
  rw [following, rotate_idxOf hxA]
  rw [filter_append, filter_cons_of_pos (by simpa using hx)] at hl
  conv_rhs => rw [← hl, rotate_idxOf (fun h => hxA (mem_filter.1 h).1)]
  simp [filter_append, hx]

theorem inTurn_pick (hp : peers.Nodup) (hs : peers.filter (· ∈ s.1.healthy) = s.1.healthy)
    (h : InTurn peers s) :
  InTurn peers (s.1.pick.1, s.1.pick.2 <|> s.2)
  := by
  have hd : s.1.healthy.Nodup := hs ▸ hp.filter _
  unfold pick
  split
  · exact h
  next hn =>
    have hc := Nat.mod_lt s.1.next (Nat.pos_of_ne_zero hn)
    rw [getElem?_eq_getElem hc]
    change (following peers (some _)).filter _ = _
    rw [filter_following hp hs (getElem_mem hc), hd.idxOf_getElem, ← rotate_mod,
      mod_add_mod, rotate_mod]

theorem filter_ne_middle (h : ep ∉ l ++ m) :
  (l ++ ep :: m).filter (· ≠ ep) = l ++ m
  := by
  rw [filter_append, filter_cons_of_neg (by simp), ← filter_append,
    filter_eq_self]
  intro x hx
  rw [decide_eq_true_iff]
  rintro rfl
  exact h hx

theorem filter_ne_eq_rotate (hd : (A ++ ep :: B).Nodup) (h : A ++ ep :: B = C ++ D) :
  (D ++ C).filter (· ≠ ep)
    = (A ++ B).rotate (if A.length < C.length then C.length - 1 else C.length)
  := by
  rw [nodup_middle, nodup_cons] at hd
  rcases append_eq_append_iff.1 h with ⟨E, rfl, hE⟩ | ⟨E, rfl, rfl⟩
  · cases E with
    | nil =>
      obtain rfl : ep :: B = D := hE
      rw [append_nil, if_neg (lt_irrefl _), rotate_append_length_eq]
      exact filter_ne_middle (l := []) (by simpa [and_comm] using hd.1)
    | cons e E =>
      obtain ⟨rfl, rfl⟩ : ep = e ∧ B = E ++ D := List.cons.inj hE
      have hr := rotate_append_length_eq (A ++ E) D
      rw [← append_assoc, filter_ne_middle (by simp_all)]
      simpa using hr.symm
  · rw [append_assoc, cons_append, filter_ne_middle (by simp_all), if_neg (by simp),
      append_assoc, rotate_append_length_eq, append_assoc]

theorem cursor_iff (hi : i < n) (hn : 1 < n) :
  (if i < k then k - 1 else k) % (n - 1)
      = (if i < k % n then k % n - 1 else k % n) % (n - 1)
    ↔ if i < k % n then n - 1 ∣ k / n else k / n = 0 ∨ n - 1 ∣ k / n - 1
  := by
  obtain ⟨d, rfl⟩ : ∃ d, n = d + 1 := ⟨n - 1, by omega⟩
  have hk := div_add_mod k (d + 1)
  generalize k / (d + 1) = q, k % (d + 1) = r at hk ⊢
  subst hk
  have key (m a b : ℕ) : (d * m + (a + b)) % d = b % d ↔ d ∣ a := by
    rw [mul_add_mod, ← modEq_zero_iff_dvd]
    constructor
    · intro h
      apply Nat.ModEq.add_right_cancel' b
      rwa [Nat.zero_add]
    · intro h
      have hb := h.add_right b
      rwa [Nat.zero_add] at hb
  rw [Nat.add_sub_cancel]
  by_cases hir : i < r
  · have he : (d + 1) * q + r = d * q + (q + (r - 1)) + 1 := by
      rw [add_mul]
      omega
    have hik : i < (d + 1) * q + r := lt_of_lt_of_le hir (le_add_left _ _)
    simp only [if_pos hir, if_pos hik]
    rw [he, Nat.add_sub_cancel, key]
  · cases q with
    | zero => simp [hir]
    | succ q =>
      have he : (d + 1) * (q + 1) + r = d * (q + 1) + (q + r) + 1 := by
        rw [add_mul]
        omega
      have hik : i < (d + 1) * (q + 1) + r := by
        rw [mul_add]
        omega
      simp only [if_neg hir, if_pos hik]
      rw [he, Nat.add_sub_cancel, key]
      simp

theorem markBad_next (h : ep ∈ ps.healthy) (hn : 0 < (ps.markBad ep).healthy.length) :
  (ps.markBad ep).next = (if ps.healthy.idxOf ep < ps.next then ps.next - 1 else ps.next)
    % (ps.markBad ep).healthy.length
  := by
  have hi := idxOf_eq_getD_idxOf? ep ps.healthy
  rw [markBad] at hn ⊢
  cases hq : ps.healthy.idxOf? ep with
  | none => exact absurd h (idxOf?_eq_none_iff.1 hq)
  | some i =>
    simp only [hq, Option.getD_some] at hi hn
    rw [hi]
    exact if_pos hn

theorem filter_pick (hs : peers.filter (· ∈ ps.healthy) = ps.healthy) :
  peers.filter (· ∈ ps.pick.1.healthy) = ps.pick.1.healthy
  := by
  have h : ps.pick.1.healthy = ps.healthy := (pick_healthy (r := ps.pick.2) rfl).1
  rw [h, hs]

theorem filter_erase (hl : l.Nodup) (m : List ε) :
  m.filter (· ∈ l.erase ep) = (m.filter (· ∈ l)).filter (· ≠ ep)
  := by
  rw [filter_filter]
  apply filter_congr
  intro x _
  simp [hl.mem_erase_iff]

theorem filter_markBad (hp : peers.Nodup) (hs : peers.filter (· ∈ ps.healthy) = ps.healthy)
    (ep : ε) :
  peers.filter (· ∈ (ps.markBad ep).healthy) = (ps.markBad ep).healthy
  := by
  have hd : ps.healthy.Nodup := hs ▸ hp.filter _
  rw [markBad_healthy, filter_erase hd, hs, hd.erase_eq_filter]
  apply filter_congr
  intro x _
  rw [Bool.eq_iff_iff]
  simp

theorem filter_ne_rotate (hl : l.Nodup) (hm : ep ∈ l) :
  (l.rotate k).filter (· ≠ ep) = (l.erase ep).rotate
    (if l.idxOf ep < k % l.length then k % l.length - 1 else k % l.length)
  := by
  have hk := Nat.mod_lt k (length_pos_of_mem hm)
  rw [rotate_eq_drop_append_take_mod]
  generalize k % l.length = c at hk ⊢
  obtain ⟨A, B, rfl⟩ := append_of_mem hm
  have hA : ep ∉ A := fun hA => (nodup_append.1 hl).2.2 ep hA ep (by simp) rfl
  rw [filter_ne_eq_rotate hl (take_append_drop c _).symm, erase_append_right _ hA,
    erase_cons_head, idxOf_append_of_notMem hA, idxOf_cons_self, add_zero,
    length_take_of_le (le_of_lt hk)]

theorem inTurn_markBad_iff (hp : peers.Nodup)
    (hs : peers.filter (· ∈ s.1.healthy) = s.1.healthy) (h : InTurn peers s) (ep : ε) :
  InTurn peers (s.1.markBad ep, s.2) ↔ KeepsTurn s (.markBad ep)
  := by
  have hd : s.1.healthy.Nodup := hs ▸ hp.filter _
  by_cases hm : ep ∈ s.1.healthy
  · have hi := idxOf_lt_length_of_mem hm
    have hl : (s.1.markBad ep).healthy.length = s.1.healthy.length - 1 := by
      rw [markBad_healthy, length_erase_of_mem hm]
    rw [InTurn, markBad_healthy, filter_erase hd, h, filter_ne_rotate hd hm,
      (hd.erase ep).rotate_congr_iff, ← markBad_healthy, ← length_eq_zero_iff, hl]
    rcases Nat.eq_or_lt_of_le (Nat.lt_of_le_of_lt (Nat.zero_le _) hi) with h1 | h1
    · rw [← h1]
      exact iff_of_true (.inr rfl) (fun _ h2 => absurd h2 (by omega))
    · rw [markBad_next hm (by omega), hl, mod_mod, or_iff_left (by omega), eq_comm,
        cursor_iff hi h1]
      exact ⟨fun h _ _ => h, fun h => h hm h1⟩
  · rw [markBad, idxOf?_eq_none_iff.2 hm]
    exact iff_of_true h (fun hm' => absurd hm' hm)

/-- Along every sequence of calls each pick would return the next healthy peer, exactly if each
marking meets the condition. -/
theorem pick_nextHealthy_iff (peers : List ε) (hp : peers.Nodup) (calls : List (SelectorCall ε)) :
  (∀ done, done <+: calls → ∀ s, selectorCalls.run ({ healthy := peers }, none) done = some s
      → s.1.pick.2 = nextHealthy peers s)
    ↔ selectorCalls.Meets KeepsTurn ({ healthy := peers }, none) calls
  := by
  have hf : peers.filter (· ∈ peers) = peers := by simp
  apply selectorCalls.forall_run_iff_meets_of_invariant (D := fun _ _ => True)
    (I := fun s => peers.filter (· ∈ s.1.healthy) = s.1.healthy) _ hf _ _
    (selectorCalls.meets_true _ _)
  · rw [pick_eq_nextHealthy_iff hp hf]
    simp [InTurn, following]
  · intro s c t _ hs _ ht
    cases c with
    | pick =>
      obtain rfl := Option.some.inj ht
      exact filter_pick hs
    | markBad ep =>
      obtain rfl := Option.some.inj ht
      exact filter_markBad hp hs ep
  · intro s c h hs _
    rw [pick_eq_nextHealthy_iff hp hs] at h
    cases c with
    | pick =>
      apply iff_of_true _ trivial
      intro t ht
      obtain rfl := Option.some.inj ht
      exact (pick_eq_nextHealthy_iff (s := (s.1.pick.1, s.1.pick.2 <|> s.2)) hp
        (filter_pick hs)).mpr (inTurn_pick hp hs h)
    | markBad ep =>
      rw [← inTurn_markBad_iff hp hs h ep, ← pick_eq_nextHealthy_iff hp (filter_markBad hp hs ep)]
      exact ⟨fun h => h _ rfl, fun h t ht => Option.some.inj ht ▸ h⟩

theorem pick_nextHealthy_first_round :
  selectorCalls.Meets KeepsTurn ({ healthy := [1, 2, 3] }, none) [.pick, .markBad 1]
    ∧ ∀ s, selectorCalls.run ({ healthy := [1, 2, 3] }, none) [.pick, .markBad 1] = some s
      → s.1.pick.2 = nextHealthy [1, 2, 3] s
  := by
  have h : selectorCalls.Meets KeepsTurn ({ healthy := [1, 2, 3] }, none) [.pick, .markBad 1] := by
    decide
  exact ⟨h, (pick_nextHealthy_iff [1, 2, 3] (by decide) _).mpr h _ (prefix_refl _)⟩

theorem pick_skips :
  ¬ ∀ s, selectorCalls.run (({ healthy := [1, 2, 3] } : PeerSelector ℕ), none)
      [.pick, .pick, .pick, .pick, .markBad 1] = some s
    → s.1.pick.2 = nextHealthy [1, 2, 3] s
  := by
  intro h
  exact absurd (h _ rfl) (by decide)

end Periapsis.Image
