import Mathlib.Data.List.Infix

/-!
# Trees and overlays

A tree says what stands at each path, and in a closed tree everything stands in a directory.
-/

namespace Files

open List Option Function

inductive Kind (β : Type*) where
  | dir
  | leaf (content : β)
  deriving DecidableEq

def Kind.isLeaf {β : Type*} : Kind β → Bool
  | .dir => false
  | .leaf _ => true

abbrev Tree (ν β : Type*) :=
  List ν → Option (Kind β)

namespace Tree

variable {ν β : Type*}

def bare : Tree ν β := fun p => if p.isEmpty then some .dir else none

def Closed (t : Tree ν β) : Prop :=
  ∀ p n, (t (p ++ [n])).isSome → t p = some .dir

/-- Place a node at a path, making directories as needed. What was beneath stays only if both the
node and what it replaces are directories. -/
def put [DecidableEq ν] (p : List ν) (k : Kind β) (t : Tree ν β) : Tree ν β := fun q =>
  if q = p then some k
  else if q <+: p then some .dir
  else if p <+: q then
    match k, t p with
    | .dir, some .dir => t q
    | _, _ => none
  else t q

def blocks (t : Tree ν β) (p : List ν) : Bool :=
  p.inits.any fun q => (t q).any Kind.isLeaf

def decides (t : Tree ν β) (p : List ν) : Bool :=
  (t p).isSome || t.blocks p

def overlay (u l : Tree ν β) : Tree ν β := fun p =>
  if u.decides p then u p else l p

theorem closed_bare :
  (bare : Tree ν β).Closed
  := by
  intro p n hs
  simp [bare] at hs

/-! ### Leaves and directories -/

variable {t u l : Tree ν β} {p q : List ν} {k : Kind β}

theorem Closed.dir_above (h : t.Closed) (hpq : p <+: q) (hne : p ≠ q) (hq : (t q).isSome) :
  t p = some .dir
  := by
  induction q using reverseRecOn with
  | nil => exact absurd (prefix_nil.1 hpq) hne
  | append_singleton q n ih =>
    have hdi := h q n hq
    rcases prefix_concat_iff.1 hpq with heq | hpq
    · exact absurd heq hne
    · by_cases heq : p = q
      · rw [heq]
        apply hdi
      · apply ih hpq heq
        simp [hdi]

variable {c : β}

theorem Closed.eq_none_of_leaf (h : t.Closed) (hp : t p = some (.leaf c)) (hpq : p <+: q)
    (hne : p ≠ q) :
  t q = none
  := by
  by_contra hq
  rw [h.dir_above hpq hne (isSome_iff_ne_none.2 hq)] at hp
  cases hp

theorem Closed.isSome_above (h : t.Closed) (hpq : p <+: q) (hq : (t q).isSome) :
  (t p).isSome
  := by
  by_cases heq : p = q
  · rw [heq]
    apply hq
  · simp [h.dir_above hpq heq hq]

theorem blocks_iff :
  t.blocks p ↔ ∃ q c, q <+: p ∧ t q = some (.leaf c)
  := by
  unfold blocks
  rw [List.any_eq_true]
  constructor
  · rintro ⟨q, hq, hle⟩
    cases hno : t q with
    | none => simp [hno] at hle
    | some k =>
      cases k with
      | dir => simp [hno, Kind.isLeaf] at hle
      | leaf c => exact ⟨q, c, (mem_inits q p).1 hq, hno⟩
  · rintro ⟨q, c, hq, hle⟩
    exact ⟨q, (mem_inits q p).2 hq, by simp [hle, Kind.isLeaf]⟩

theorem blocks_beneath (hpq : p <+: q) (h : t.blocks p) :
  t.blocks q
  := by
  obtain ⟨r, c, hr, hle⟩ := blocks_iff.1 h
  exact blocks_iff.2 ⟨r, c, hr.trans hpq, hle⟩

theorem not_blocks_above (hpq : p <+: q) (h : t.blocks q = false) :
  t.blocks p = false
  := by
  rw [Bool.eq_false_iff] at h ⊢
  exact fun hb => h (blocks_beneath hpq hb)

theorem cases_of_not_blocks (h : t.blocks p = false) :
  t p = none ∨ t p = some .dir
  := by
  cases hp : t p with
  | none => exact .inl rfl
  | some k =>
    cases k with
    | dir => exact .inr rfl
    | leaf c =>
      have hb := blocks_iff.2 ⟨p, c, prefix_refl _, hp⟩
      rw [h] at hb
      cases hb

theorem decides_of_isSome (h : (t p).isSome) :
  t.decides p
  := by
  rw [decides, h, Bool.true_or]

theorem decides_of_blocks (h : t.blocks p) :
  t.decides p
  := by
  rw [decides, h, Bool.or_true]

theorem overlay_of_decides (h : u.decides p) :
  overlay u l p = u p
  := if_pos h

theorem overlay_of_not_decides (h : u.decides p ≠ true) :
  overlay u l p = l p
  := if_neg h

theorem not_decides :
  u.decides p ≠ true ↔ u p = none ∧ u.blocks p ≠ true
  := by
  rw [decides, Ne, Bool.or_eq_true, not_or, Bool.not_eq_true, isSome_eq_false_iff,
    isNone_iff_eq_none]

theorem decides_beneath (hpq : p <+: q) (hp : u.decides p) (hdi : u p ≠ some .dir) :
  u.decides q
  := by
  apply decides_of_blocks
  rw [decides, Bool.or_eq_true] at hp
  rcases hp with hs | hb
  · obtain ⟨k, hk⟩ := isSome_iff_exists.1 hs
    cases k with
    | dir => exact absurd hk hdi
    | leaf c => exact blocks_iff.2 ⟨p, c, hpq, hk⟩
  · apply blocks_beneath hpq hb

theorem closed_overlay (hu : u.Closed) (hl : l.Closed) :
  (overlay u l).Closed
  := by
  intro p n hs
  by_cases hd : u.decides (p ++ [n])
  · rw [overlay_of_decides hd] at hs
    have hdi := hu p n hs
    rw [overlay_of_decides (decides_of_isSome (by simp [hdi])), hdi]
  · rw [overlay_of_not_decides hd] at hs
    by_cases hp : u.decides p
    · rw [overlay_of_decides hp]
      by_contra hdi
      exact hd (decides_beneath (prefix_append _ _) hp hdi)
    · rw [overlay_of_not_decides hp]
      apply hl p n hs

theorem isSome_overlay (hl : (l p).isSome) (hb : u.blocks p.dropLast = false) :
  (overlay u l p).isSome
  := by
  by_cases hd : u.decides p
  · rw [overlay_of_decides hd]
    rw [decides, Bool.or_eq_true] at hd
    rcases hd with hs | hbl
    · apply hs
    · obtain ⟨q, c, hq, hle⟩ := blocks_iff.1 hbl
      by_cases heq : q = p
      · rw [← heq, hle]
        rfl
      · induction p using reverseRecOn with
        | nil => exact absurd (prefix_nil.1 hq) heq
        | append_singleton p n =>
          rw [dropLast_concat] at hb
          have hq := (prefix_concat_iff.1 hq).resolve_left heq
          rw [blocks_iff.2 ⟨q, c, hq, hle⟩] at hb
          cases hb
  · rw [overlay_of_not_decides hd]
    apply hl

theorem overlay_bare (h : l [] = some .dir) :
  overlay bare l = l
  := by
  funext p
  cases p with
  | nil => exact h.symm
  | cons n p =>
    apply overlay_of_not_decides
    apply not_decides.2
    use rfl
    intro hb
    obtain ⟨q, c, -, hle⟩ := blocks_iff.1 hb
    unfold bare at hle
    split_ifs at hle
    cases hle

theorem stack_eq (ts : List (Tree ν β)) :
  ts.foldr overlay l p = ((ts.find? fun t => t.decides p).map fun t => t p).getD (l p)
  := by
  induction ts with
  | nil => rfl
  | cons t ts ih =>
    rw [foldr_cons]
    by_cases hd : t.decides p
    · rw [overlay_of_decides hd, find?_cons, hd]
      rfl
    · rw [overlay_of_not_decides hd, find?_cons, Bool.eq_false_iff.2 hd, ih]

/-! ### Placing a node -/

variable [DecidableEq ν]

@[simp]
theorem put_self :
  t.put p k p = some k
  := if_pos rfl

theorem put_of_above (hqp : q <+: p) (hne : q ≠ p) :
  t.put p k q = some .dir
  := by
  unfold put
  rw [if_neg hne, if_pos hqp]

theorem put_of_beneath (hpq : p <+: q) (hne : q ≠ p) :
  t.put p k q = match k, t p with
    | .dir, some .dir => t q
    | _, _ => none
  := by
  unfold put
  rw [if_neg hne, if_neg, if_pos hpq]
  intro hqp
  exact hne (hqp.eq_of_length_le hpq.length_le)

theorem put_of_apart (hqp : ¬ q <+: p) (hpq : ¬ p <+: q) :
  t.put p k q = t q
  := by
  unfold put
  rw [if_neg, if_neg hqp, if_neg hpq]
  rintro rfl
  exact hqp (prefix_refl _)

theorem put_beneath_eq_some (hpq : p <+: q) (hne : q ≠ p) :
  t.put p k q = some k' ↔ k = .dir ∧ t p = some .dir ∧ t q = some k'
  := by
  rw [put_of_beneath hpq hne]
  split
  next hp =>
    simp [hp]
  next hnt =>
    simpa using fun hk hp => absurd hp (hnt hk)

omit [DecidableEq ν] in
theorem path_cases (p q : List ν) :
  q = p ∨ (q <+: p ∧ q ≠ p) ∨ (p <+: q ∧ q ≠ p) ∨ ¬ q <+: p ∧ ¬ p <+: q
  := by
  by_cases heq : q = p
  · exact .inl heq
  · by_cases hqp : q <+: p
    · exact .inr (.inl ⟨hqp, heq⟩)
    · by_cases hpq : p <+: q
      · exact .inr (.inr (.inl ⟨hpq, heq⟩))
      · exact .inr (.inr (.inr ⟨hqp, hpq⟩))

theorem closed_put (ht : t.Closed) :
  (t.put p k).Closed
  := by
  intro q n hs
  have hq : q <+: q ++ [n] := prefix_append _ _
  by_cases hqp : q ++ [n] <+: p
  · apply put_of_above (hq.trans hqp)
    rintro rfl
    have hln := hqp.length_le
    rw [length_append, length_singleton] at hln
    omega
  · by_cases hpq : p <+: q ++ [n]
    · rw [put_of_beneath hpq (fun heq => hqp (heq ▸ prefix_refl _))] at hs
      split at hs
      next hp =>
        have hdi := ht q n hs
        rcases prefix_concat_iff.1 hpq with heq | hpq
        · exact absurd (heq ▸ prefix_refl _) hqp
        · by_cases heq : q = p
          · rw [heq, put_self]
          · rw [put_of_beneath hpq heq, hp]
            apply hdi
      · cases hs
    · rw [put_of_apart hqp hpq] at hs
      have hdi := ht q n hs
      by_cases hqp' : q <+: p
      · apply put_of_above hqp'
        rintro rfl
        exact hpq hq
      · rw [put_of_apart hqp' fun hpq' => hpq (hpq'.trans hq)]
        apply hdi

theorem blocks_put (ha : ∀ r c, r <+: p → r ≠ p → t r ≠ some (.leaf c)) (hpq : ¬ p <+: q) :
  (t.put p k).blocks q = t.blocks q
  := by
  rw [Bool.eq_iff_iff, blocks_iff, blocks_iff]
  constructor
  · rintro ⟨r, c, hr, hle⟩
    have hpr : ¬ p <+: r := fun hpr => hpq (hpr.trans hr)
    by_cases hrp : r <+: p
    · rw [put_of_above hrp fun heq => hpr (heq ▸ prefix_refl _)] at hle
      cases hle
    · rw [put_of_apart hrp hpr] at hle
      exact ⟨r, c, hr, hle⟩
  · rintro ⟨r, c, hr, hle⟩
    have hpr : ¬ p <+: r := fun hpr => hpq (hpr.trans hr)
    have hrp : ¬ r <+: p := fun hrp =>
      ha r c hrp (fun heq => hpr (heq ▸ prefix_refl _)) hle
    exact ⟨r, c, hr, by rw [put_of_apart hrp hpr, hle]⟩

theorem put_dir_of_beneath (ht : t.Closed) (hpq : p <+: q) (hne : q ≠ p) :
  t.put p .dir q = t q
  := by
  rw [put_of_beneath hpq hne]
  split
  · rfl
  next hnt =>
    by_contra hs
    exact hnt rfl (ht.dir_above hpq hne.symm (isSome_iff_ne_none.2 (Ne.symm hs)))

theorem put_dir_of_leaf (ht : t.Closed) (hp : t.blocks p = false) (hq : t q = some (.leaf c)) :
  t.put p .dir q = some (.leaf c)
  := by
  have hqp : ¬ q <+: p := by
    intro hqp
    rw [blocks_iff.2 ⟨q, c, hqp, hq⟩] at hp
    cases hp
  rw [← hq]
  by_cases hpq : p <+: q
  · apply put_dir_of_beneath ht hpq fun heq => hqp (heq ▸ prefix_refl _)
  · apply put_of_apart hqp hpq

theorem leaf_of_put_dir (h : t.put p .dir q = some (.leaf c)) :
  t q = some (.leaf c)
  := by
  rcases path_cases p q with rfl | ⟨hqp, hne⟩ | ⟨hpq, hne⟩ | ⟨hqp, hpq⟩
  · simp at h
  · simp [put_of_above hqp hne] at h
  · exact ((put_beneath_eq_some hpq hne).1 h).2.2
  · rwa [put_of_apart hqp hpq] at h

theorem put_dir_self (ht : t.Closed) (hp : t p = some .dir) :
  t.put p .dir = t
  := by
  funext q
  by_cases heq : q = p
  · rw [heq, put_self, hp]
  · by_cases hqp : q <+: p
    · rw [put_of_above hqp heq, ht.dir_above hqp heq (by simp [hp])]
    · by_cases hpq : p <+: q
      · apply put_dir_of_beneath ht hpq heq
      · apply put_of_apart hqp hpq

theorem put_dir_put (ht : t.Closed) :
  (t.put p .dir).put (p ++ [n]) k = t.put (p ++ [n]) k
  := by
  have hp : p <+: p ++ [n] := prefix_append _ _
  have hbe {q : List ν} (hpq : p ++ [n] <+: q) : t.put p .dir q = t q := by
    apply put_dir_of_beneath ht (hp.trans hpq)
    rintro rfl
    have hln := hpq.length_le
    rw [length_append, length_singleton] at hln
    omega
  funext q
  by_cases heq : q = p ++ [n]
  · rw [heq, put_self, put_self]
  · by_cases hqp : q <+: p ++ [n]
    · rw [put_of_above hqp heq, put_of_above hqp heq]
    · by_cases hpq : p ++ [n] <+: q
      · rw [put_of_beneath hpq heq, put_of_beneath hpq heq, hbe hpq,
          hbe (prefix_refl _)]
      · rw [put_of_apart hqp hpq, put_of_apart hqp hpq]
        have hq : ¬ q <+: p := fun h => hqp (h.trans hp)
        by_cases hpq' : p <+: q
        · apply put_dir_of_beneath ht hpq' fun h => hq (h ▸ prefix_refl _)
        · apply put_of_apart hq hpq'

variable {n : ν}

theorem put_eq_update (ht : t.Closed) (hp : t p = some .dir) (hn : t (p ++ [n]) ≠ some .dir) :
  t.put (p ++ [n]) k = update t (p ++ [n]) (some k)
  := by
  funext q
  by_cases heq : q = p ++ [n]
  · rw [heq, put_self, update_self]
  · rw [update_of_ne heq]
    by_cases hqp : q <+: p ++ [n]
    · rw [put_of_above hqp heq]
      have hqp := (prefix_concat_iff.1 hqp).resolve_left heq
      by_cases heq' : q = p
      · rw [heq', hp]
      · rw [ht.dir_above hqp heq' (by simp [hp])]
    · by_cases hpq : p ++ [n] <+: q
      · rw [put_of_beneath hpq heq]
        split
        next hdi =>
          exact absurd hdi hn
        · by_contra hs
          exact hn (ht.dir_above hpq (Ne.symm heq) (isSome_iff_ne_none.2 (Ne.symm hs)))
      · rw [put_of_apart hqp hpq]

theorem update_put_dir (ht : t.Closed) (hn : t (p ++ [n]) ≠ some .dir) :
  update (t.put p .dir) (p ++ [n]) (some k) = t.put (p ++ [n]) k
  := by
  rw [← put_eq_update (closed_put ht) put_self, put_dir_put ht]
  rw [put_dir_of_beneath ht (prefix_append _ _) (by simp)]
  apply hn

theorem blocks_put_dir (ht : t.Closed) (ha : ∀ r c, r <+: p → t r ≠ some (.leaf c))
    (hpq : p <+: q) :
  (t.put p .dir).blocks q = t.blocks q
  := by
  have hpu {r : List ν} (hr : r <+: q) (hrp : ¬ r <+: p) : t.put p .dir r = t r :=
    put_dir_of_beneath ht ((List.prefix_or_prefix_of_prefix hr hpq).resolve_left hrp)
      fun heq => hrp (heq ▸ prefix_refl _)
  rw [Bool.eq_iff_iff, blocks_iff, blocks_iff]
  constructor
  · rintro ⟨r, c, hr, hle⟩
    by_cases hrp : r <+: p
    · by_cases heq : r = p
      · rw [heq, put_self] at hle
        cases hle
      · rw [put_of_above hrp heq] at hle
        cases hle
    · rw [hpu hr hrp] at hle
      exact ⟨r, c, hr, hle⟩
  · rintro ⟨r, c, hr, hle⟩
    exact ⟨r, c, hr, by rw [hpu hr fun hrp => ha r c hrp hle, hle]⟩

theorem overlay_put (hu : u.Closed) (hl : l.Closed)
    (ha : ∀ r c, r <+: p → r ≠ p → u r ≠ some (.leaf c))
    (hdi : k = .dir → ∀ c, u p ≠ some (.leaf c)) :
  (overlay u l).put p k = overlay (u.put p k) l
  := by
  funext q
  by_cases hqp : q <+: p
  · by_cases heq : q = p
    · rw [heq, put_self, overlay_of_decides (decides_of_isSome (by simp)), put_self]
    · have hpu := put_of_above (t := u) (k := k) hqp heq
      rw [put_of_above hqp heq, overlay_of_decides (decides_of_isSome (by simp [hpu])), hpu]
  · have heq : q ≠ p := fun heq => hqp (heq ▸ prefix_refl _)
    by_cases hpq : p <+: q
    · cases k with
      | dir =>
        have hle (r : List ν) (c : β) (hr : r <+: p) : u r ≠ some (.leaf c) := by
          by_cases hrp : r = p
          · rw [hrp]
            apply hdi rfl
          · apply ha r c hr hrp
        rw [put_dir_of_beneath (closed_overlay hu hl) hpq heq, overlay, overlay, decides,
          decides, blocks_put_dir hu hle hpq, put_dir_of_beneath hu hpq heq]
      | leaf c =>
        have hb : (u.put p (.leaf c)).blocks q := blocks_iff.2 ⟨p, c, hpq, put_self⟩
        rw [overlay_of_decides (decides_of_blocks hb), put_of_beneath hpq heq,
          put_of_beneath hpq heq]
    · rw [put_of_apart hqp hpq, overlay, overlay, decides, decides, blocks_put ha hpq,
        put_of_apart hqp hpq]

end Tree

end Files
