import Periapsis.Image.ExtractTree

/-!
# Whiteouts

What is extracted of a layer has its whiteouts as files.
-/

namespace Periapsis.Image

open Files List Option Bool Files.Tree

section Hide

variable {header : Header} {headers : List Header} {lower : ImageTree} {p q : List Name}

theorem above_of_hides (h : hides header p) :
  isWhiteout (entryPath header) ∧ (entryPath header).dropLast <+: p
  := by
  unfold hides at h
  unfold isWhiteout
  cases hla : (entryPath header).getLast? with
  | none => simp [hla] at h
  | some name =>
    simp only [hla] at h
    split at h
    next hop =>
      simp only [and_eq_true, isPrefixOf_iff_prefix] at h
      exact ⟨by rw [hop]; decide +kernel, h.1⟩
    · simp only [and_eq_true, isPrefixOf_iff_prefix] at h
      exact ⟨h.1, (prefix_append _ _).trans h.2⟩

theorem hides_beneath (h : hides header p) (hpq : p <+: q) :
  hides header q
  := by
  unfold hides at h ⊢
  cases hla : (entryPath header).getLast? with
  | none => simp [hla] at h
  | some name =>
    simp only [hla] at h ⊢
    split at h
    next hop =>
      simp only [and_eq_true, isPrefixOf_iff_prefix, decide_eq_true_eq] at h
      rw [if_pos hop]
      simp only [and_eq_true, isPrefixOf_iff_prefix, decide_eq_true_eq]
      refine ⟨h.1.trans hpq, ?_⟩
      rintro rfl
      exact h.2 (hpq.eq_of_length_le h.1.length_le)
    next hop =>
      simp only [and_eq_true, isPrefixOf_iff_prefix] at h
      rw [if_neg hop]
      simp only [and_eq_true, isPrefixOf_iff_prefix]
      exact ⟨h.1, h.2.trans hpq⟩

theorem not_hides_root :
  hides header [] = false
  := by
  unfold hides
  cases (entryPath header).getLast? with
  | none => rfl
  | some name =>
    cases (entryPath header).dropLast with
    | nil | cons => simp

theorem hide_of_not_hides (h : ∀ header ∈ headers, hides header p = false) :
  hide headers lower p = lower p
  := by
  unfold hide
  rw [if_neg]
  simpa using h

theorem hide_root :
  hide headers lower [] = lower []
  := hide_of_not_hides fun _ _ => not_hides_root

theorem hide_eq_none (h : lower p = none) :
  hide headers lower p = none
  := by
  unfold hide
  rw [h, ite_self]

theorem closed_hide (h : lower.Closed) :
  (hide headers lower).Closed
  := by
  intro p n hso
  unfold hide at hso ⊢
  split at hso
  · cases hso
  next hsh =>
    rw [if_neg]
    · apply h p n hso
    · rintro hhi
      apply hsh
      obtain ⟨header, hh, hhd⟩ := any_eq_true.1 hhi
      exact any_eq_true.2
        ⟨header, hh, hides_beneath hhd (prefix_append _ _)⟩

end Hide

section Entry

variable {header : Header} {t : ImageTree} {p q : List Name} {k : Kind Inode}

theorem isWhiteout_concat :
  isWhiteout (p ++ [n]) = whiteoutName n
  := by
  rw [isWhiteout, getLast?_concat]
  rfl

theorem Fits.not_whiteout_above (h : Fits t header) (hq : isWhiteout q)
    (hqp : q <+: entryPath header) :
  q = entryPath header
  := by
  by_contra hne
  induction q using reverseRecOn with
  | nil => cases hq
  | append_singleton q n =>
    rw [isWhiteout_concat] at hq
    obtain ⟨r, hr⟩ := hqp
    induction r using reverseRecOn with
    | nil => exact hne (by rw [← hr, append_nil])
    | append_singleton r m =>
      have hpl := h.plain n (by rw [← hr, ← append_assoc, dropLast_concat]; simp)
      rw [hq] at hpl
      cases hpl

theorem Fits.not_leaf_above (h : Fits t header) (hqp : q <+: entryPath header)
    (hne : q ≠ entryPath header) :
  t q ≠ some (.leaf c)
  := by
  intro hl
  obtain ⟨d, n, hdn⟩ : ∃ d n, entryPath header = d ++ [n] := by
    refine ⟨_, _, (dropLast_append_getLast ?_).symm⟩
    rintro hni
    rw [hni] at hqp hne
    exact hne (prefix_nil.1 hqp)
  have ha := h.above
  rw [hdn, dropLast_concat] at ha
  rw [hdn] at hqp hne
  have hqd := (prefix_concat_iff.1 hqp).resolve_left hne
  rw [blocks_iff.2 ⟨q, c, hqd, hl⟩] at ha
  cases ha

theorem Fits.entryKind (h : Fits t header) :
  ∃ k, Image.entryKind t header = some k
    ∧ (k = .dir → ∀ c, t (entryPath header) ≠ some (.leaf c))
    ∧ (k ≠ .dir → t (entryPath header) ≠ some .dir)
  := by
  unfold Image.entryKind
  cases ht : header.typeflag with
  | dir =>
    refine ⟨_, rfl, ?_, fun hne => absurd rfl hne⟩
    intro _ c hl
    have hbl := h.dir ht
    rw [blocks_iff.2 ⟨_, c, prefix_refl _, hl⟩] at hbl
    cases hbl
  | reg =>
    refine ⟨_, rfl, by simp, ?_⟩
    rw [(h.reg ht).1]
    simp
  | symlink => exact ⟨_, rfl, by simp, fun _ => (h.symlink ht).1⟩
  | link =>
    obtain ⟨hno, -, -, -, han⟩ := h.link ht
    cases hki : t (linkPath header) with
    | none => simp [hki] at han
    | some k =>
      cases k with
      | dir => simp [hki, Kind.isLeaf] at han
      | leaf inode => exact ⟨_, rfl, by simp, fun _ => hno⟩
  | other => exact absurd ht h.known

theorem applyEntry_eq_put (hpa : entryPath header ≠ []) (hk : Image.entryKind t header = some k) :
  applyEntry t header = t.put (entryPath header) k
  := by
  unfold applyEntry
  rw [if_neg hpa, hk]

theorem closed_applyEntry (h : t.Closed) :
  (applyEntry t header).Closed
  := by
  unfold applyEntry
  split
  · apply h
  · split
    · apply h
    · apply closed_put h

theorem closed_layerTree :
  (layerTree headers).Closed
  := by
  unfold layerTree
  have hba : (bare : ImageTree).Closed := closed_bare
  revert hba
  generalize (bare : ImageTree) = t
  intro h
  induction headers generalizing t with
  | nil => apply h
  | cons header headers ih => apply ih _ (closed_applyEntry h)

end Entry

/-- The whiteouts of a layer. -/
def whiteouts (headers : List Header) : List (List Name) :=
  (headers.map entryPath).filter isWhiteout

structure Plain (ws : List (List Name)) (full plain : ImageTree) : Prop where
  closed_full : full.Closed
  closed_plain : plain.Closed
  root : plain [] = some .dir
  kept : ∀ p k, plain p = some k → full p = some k
  added : ∀ p k, full p = some k → plain p = some k ∨ ∃ w ∈ ws, p <+: w
  present : ∀ w ∈ ws, (full w).isSome = true
  named : ∀ w ∈ ws, isWhiteout w = true
  absent : ∀ p, isWhiteout p = true → plain p = none

namespace Plain

variable {ws : List (List Name)} {full plain lower : ImageTree} {header : Header} {p q : List Name}

theorem bare :
  Plain [] bare bare where
  closed_full := closed_bare
  closed_plain := closed_bare
  root := rfl
  kept _ _ h := h
  added _ _ h := .inl h
  present := nofun
  named := nofun
  absent := by
    intro p hp
    cases p with
    | nil => cases hp
    | cons n p => rfl

theorem leaf (h : Plain ws full plain) (hp : full p = some (.leaf c)) :
  plain p = some (.leaf c) ∨ p ∈ ws
  := by
  rcases h.added p _ hp with hpl | ⟨w, hw, hpw⟩
  · exact .inl hpl
  · right
    by_cases heq : p = w
    · rw [heq]
      apply hw
    · rw [h.closed_full.dir_above hpw heq (h.present w hw)] at hp
      cases hp

theorem entryKind_eq (h : Plain ws full plain) (hf : Fits full header) :
  Image.entryKind plain header = Image.entryKind full header
  := by
  unfold Image.entryKind
  cases ht : header.typeflag with
  | dir | reg | symlink | other => rfl
  | link =>
    obtain ⟨-, -, -, hs, han⟩ := hf.link ht
    cases hki : full (linkPath header) with
    | none => simp [hki] at han
    | some k =>
      cases k with
      | dir => simp [hki, Kind.isLeaf] at han
      | leaf inode =>
        rcases h.leaf hki with hpl | hw
        · rw [hpl]
        · rw [h.named _ hw] at hs
          cases hs

section Put

variable {k : Kind Inode}

section

variable (h : Plain ws full plain)
include h

theorem kept_put (hq : plain.put p k q = some k') :
  full.put p k q = some k'
  := by
  rcases path_cases p q with rfl | ⟨ha, hne⟩ | ⟨hb, hne⟩ | hap
  · rw [put_self] at hq ⊢
    apply hq
  · rw [put_of_above ha hne] at hq ⊢
    apply hq
  · obtain ⟨hd, hp, hq⟩ := (put_beneath_eq_some hb hne).1 hq
    exact (put_beneath_eq_some hb hne).2 ⟨hd, h.kept _ _ hp, h.kept _ _ hq⟩
  · rw [put_of_apart hap.1 hap.2] at hq ⊢
    apply h.kept _ _ hq

theorem added_put (hq : full.put p k q = some k') :
  plain.put p k q = some k' ∨ ∃ w ∈ ws, q <+: w
  := by
  rcases path_cases p q with rfl | ⟨ha, hne⟩ | ⟨hb, hne⟩ | hap
  · rw [put_self] at hq ⊢
    exact .inl hq
  · rw [put_of_above ha hne] at hq ⊢
    exact .inl hq
  · obtain ⟨hd, -, hq⟩ := (put_beneath_eq_some hb hne).1 hq
    rcases h.added q k' hq with hpl | hw
    · left
      apply (put_beneath_eq_some hb hne).2
      exact ⟨hd, h.closed_plain.dir_above hb hne.symm (by simp [hpl]), hpl⟩
    · exact .inr hw
  · rw [put_of_apart hap.1 hap.2] at hq ⊢
    apply h.added _ _ hq

theorem present_put (hno : k ≠ .dir → full p ≠ some .dir) (hw : w ∈ ws) :
  (full.put p k w).isSome
  := by
  obtain ⟨k', hk'⟩ := isSome_iff_exists.1 (h.present w hw)
  rcases path_cases p w with rfl | ⟨ha, hne⟩ | ⟨hb, hne⟩ | hap
  · rw [put_self]
    rfl
  · rw [put_of_above ha hne]
    rfl
  · have hd := h.closed_full.dir_above hb hne.symm (h.present w hw)
    have hk : k = .dir := by
      by_contra hk
      exact hno hk hd
    exact isSome_iff_exists.2
      ⟨k', (put_beneath_eq_some hb hne).2 ⟨hk, hd, hk'⟩⟩
  · rw [put_of_apart hap.1 hap.2]
    apply h.present w hw

theorem absent_put (hq : isWhiteout q) (ha : ¬ q <+: p) :
  plain.put p k q = none
  := by
  rcases path_cases p q with rfl | ⟨hqp, -⟩ | ⟨hb, hne⟩ | hap
  · exact absurd (prefix_refl _) ha
  · exact absurd hqp ha
  · by_contra hso
    obtain ⟨k', hk'⟩ := ne_none_iff_exists'.1 hso
    obtain ⟨-, -, hk'⟩ := (put_beneath_eq_some hb hne).1 hk'
    rw [h.absent q hq] at hk'
    cases hk'
  · rw [put_of_apart hap.1 hap.2]
    apply h.absent q hq

end

end Put

section

variable (h : Plain ws full plain)
include h

theorem entry (hf : Fits full header) (hpl : isWhiteout (entryPath header) = false) :
  Plain ws (applyEntry full header) (applyEntry plain header)
  := by
  by_cases hpa : entryPath header = []
  · unfold applyEntry
    rw [if_pos hpa, if_pos hpa]
    apply h
  · obtain ⟨k, hk, -, hno⟩ := hf.entryKind
    rw [applyEntry_eq_put hpa hk, applyEntry_eq_put hpa ((h.entryKind_eq hf).trans hk)]
    constructor
    · apply closed_put h.closed_full
    · apply closed_put h.closed_plain
    · apply put_of_above nil_prefix (Ne.symm hpa)
    · exact fun _ _ => h.kept_put
    · exact fun _ _ => h.added_put
    · exact fun _ => h.present_put hno
    · apply h.named
    · intro q hq
      apply h.absent_put hq
      intro hqp
      rw [hf.not_whiteout_above hq hqp, hpl] at hq
      cases hq

theorem whiteout (hf : Fits full header) (hwh : isWhiteout (entryPath header)) :
  Plain (ws ++ [entryPath header]) (applyEntry full header) plain
  := by
  have hpa : entryPath header ≠ [] := by
    intro hni
    rw [hni] at hwh
    cases hwh
  have hrg := hf.whiteout hwh
  have hfr := (hf.reg hrg).1
  have hk : entryKind full header = some (.leaf (.file header.body)) := by rw [entryKind, hrg]
  rw [applyEntry_eq_put hpa hk]
  constructor
  · apply closed_put h.closed_full
  · apply h.closed_plain
  · apply h.root
  · intro q k' hq
    have hfu := h.kept q k' hq
    rcases path_cases (entryPath header) q with heq | ⟨ha, hne⟩ | ⟨hb, hne⟩ | hap
    · rw [heq, hfr] at hfu
      cases hfu
    · rw [put_of_above ha hne]
      cases k' with
      | dir => rfl
      | leaf c => exact absurd hfu (hf.not_leaf_above ha hne)
    · have hd := h.closed_full.dir_above hb hne.symm (by simp [hfu])
      rw [hfr] at hd
      cases hd
    · rw [put_of_apart hap.1 hap.2]
      apply hfu
  · intro q k' hq
    rcases path_cases (entryPath header) q with rfl | ⟨ha, -⟩ | ⟨hb, hne⟩ | hap
    · exact .inr ⟨_, by simp, prefix_refl _⟩
    · exact .inr ⟨_, by simp, ha⟩
    · cases ((put_beneath_eq_some hb hne).1 hq).1
    · rw [put_of_apart hap.1 hap.2] at hq
      rcases h.added q k' hq with hpl | ⟨w, hw, hqw⟩
      · exact .inl hpl
      · exact .inr ⟨w, by simp [hw], hqw⟩
  · intro w hw
    rcases mem_append.1 hw with hw | hw
    · exact h.present_put (fun _ => by rw [hfr]; nofun) hw
    · rw [mem_singleton.1 hw, put_self]
      rfl
  · intro w hw
    rcases mem_append.1 hw with hw | hw
    · apply h.named w hw
    · rw [mem_singleton.1 hw, hwh]
  · apply h.absent

theorem layer (hre : Regular full headers) :
  Plain (ws ++ whiteouts headers) (headers.foldl applyEntry full)
    ((plainEntries headers).foldl applyEntry plain)
  := by
  induction headers generalizing ws full plain with
  | nil => simpa [whiteouts, plainEntries] using h
  | cons header headers ih =>
    cases hwh : isWhiteout (entryPath header) with
    | true =>
      have hn := ih (h.whiteout hre.1 hwh) hre.2
      simpa [whiteouts, plainEntries, hwh] using hn
    | false =>
      have hn := ih (h.entry hre.1 hwh) hre.2
      simpa [whiteouts, plainEntries, hwh] using hn

theorem overlay_entry (hf : Fits full header) (hlo : lower.Closed) :
  applyEntry (overlay plain lower) header = overlay (applyEntry plain header) lower
  := by
  by_cases hpa : entryPath header = []
  · unfold applyEntry
    rw [if_pos hpa, if_pos hpa]
  · obtain ⟨k, hk, hd, -⟩ := hf.entryKind
    have hpl := (h.entryKind_eq hf).trans hk
    have ho : entryKind (overlay plain lower) header = some k := by
      rw [← hpl]
      unfold entryKind at hpl ⊢
      cases ht : header.typeflag with
      | dir | reg | symlink | other => rfl
      | link =>
        rw [ht] at hpl
        cases hs : plain (linkPath header) with
        | none => simp [hs] at hpl
        | some k =>
          rw [overlay_of_decides (decides_of_isSome (by simp [hs])), hs]
    rw [applyEntry_eq_put hpa ho, applyEntry_eq_put hpa hpl]
    apply overlay_put h.closed_plain hlo
    · intro r c hr hne hl
      exact hf.not_leaf_above hr hne (h.kept _ _ hl)
    · intro hk c hl
      exact hd hk c (h.kept _ _ hl)

theorem overlay_layer (hre : Regular full headers) (hlo : lower.Closed) :
  (plainEntries headers).foldl applyEntry (overlay plain lower)
    = overlay ((plainEntries headers).foldl applyEntry plain) lower
  := by
  induction headers generalizing ws full plain with
  | nil => rfl
  | cons header headers ih =>
    cases hwh : isWhiteout (entryPath header) with
    | true =>
      have hn := ih (h.whiteout hre.1 hwh) hre.2
      simpa [plainEntries, hwh] using hn
    | false =>
      have hn := ih (h.entry hre.1 hwh) hre.2
      rw [← h.overlay_entry hre.1 hlo] at hn
      simpa [plainEntries, hwh] using hn

end

end Plain

def plainTree (headers : List Header) : ImageTree :=
  (plainEntries headers).foldl applyEntry Tree.bare

theorem plain_layerTree (hre : Regular bare headers) :
  Plain (whiteouts headers) (layerTree headers) (plainTree headers)
  := Plain.bare.layer hre

theorem applyLayer_eq {lower : ImageTree} (hre : Regular bare headers) (hlo : lower.Closed)
    (hro : lower [] = some .dir) :
  applyLayer lower headers = overlay (plainTree headers) (hide headers lower)
  := by
  have hba : overlay bare (hide headers lower) = hide headers lower :=
    overlay_bare (hide_root.trans hro)
  rw [applyLayer, plainTree, ← Plain.bare.overlay_layer hre (closed_hide hlo), hba]

end Periapsis.Image
