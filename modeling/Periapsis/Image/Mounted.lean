import Periapsis.Image.Whiteouts

/-!
# What a mount shows

An overlay knows whiteouts only as devices and attributes, and none are made when a layer is
extracted.
-/

namespace Periapsis.Image

open Files List Bool Files.Tree

/-- The overlay of the trees that the layers were extracted to. -/
def stacked (layers : List (List Header)) (lower : ImageTree) : ImageTree :=
  layers.foldl (fun lower headers => Tree.overlay (layerTree headers) lower) lower

section Stack

variable {α : Type*} [DecidableEq α] {seen : List α}

theorem find_unseen (hse : ∀ a ∈ seen, f a = false) :
  (unseen seen ps).find? f = ps.find? f
  := by
  induction ps generalizing seen with
  | nil => rfl
  | cons p ps ih =>
    rw [unseen]
    split
    next hme =>
      rw [ih hse, find?_cons, hse p hme]
    · cases hp : f p with
      | true => rw [find?_cons, hp, find?_cons, hp]
      | false =>
        have hsn : ∀ a ∈ p :: seen, f a = false := forall_mem_cons.2 ⟨hp, hse⟩
        rw [find?_cons, hp, find?_cons, hp, ih hsn]

variable {lower : ImageTree}

theorem stack_unseen (dirs : α → ImageTree) :
  ((unseen [] ps).map dirs).foldr overlay lower = (ps.map dirs).foldr overlay lower
  := by
  funext p
  rw [stack_eq, stack_eq, find?_map, find?_map, find_unseen (by simp)]

theorem mem_of_mem_unseen (h : a ∈ unseen seen ps) :
  a ∈ ps
  := by
  induction ps generalizing seen with
  | nil => cases h
  | cons p ps ih =>
    rw [unseen] at h
    split at h
    · exact mem_cons_of_mem _ (ih h)
    · rcases mem_cons.1 h with rfl | h
      · exact mem_cons_self
      · exact mem_cons_of_mem _ (ih h)

variable {layerPaths : List α}

theorem mem_of_mem_lowerDirs (h : a ∈ lowerDirs layerPaths) :
  a ∈ layerPaths
  := mem_reverse.1 (mem_of_mem_unseen h)

theorem stack_lowerDirs (streams : α → List Header) :
  ((lowerDirs layerPaths).map fun a => layerTree (streams a)).foldr overlay lower
    = stacked (layerPaths.map streams) lower
  := by
  rw [lowerDirs, stack_unseen, foldr_map, foldr_reverse, stacked, foldl_map]

end Stack

section Stacked

variable {headers : List Header} {layers above : List (List Header)} {lower : ImageTree}
  {p : List Name}

theorem stacked_cons :
  stacked (headers :: layers) lower = stacked layers (overlay (layerTree headers) lower)
  := rfl

theorem closed_stacked (h : lower.Closed) :
  (stacked layers lower).Closed
  := by
  induction layers generalizing lower with
  | nil => apply h
  | cons headers layers ih =>
    apply ih (closed_overlay closed_layerTree h)

theorem stacked_root (hre : ∀ headers ∈ layers, Regular bare headers)
    (h : lower [] = some .dir) :
  stacked layers lower [] = some .dir
  := by
  induction layers generalizing lower with
  | nil => apply h
  | cons headers layers ih =>
    obtain ⟨hh, hl⟩ := forall_mem_cons.1 hre
    have hpl := plain_layerTree hh
    have hro := hpl.kept _ _ hpl.root
    rw [stacked_cons]
    apply ih hl
    rw [overlay_of_decides (decides_of_isSome (by simp [hro])), hro]

theorem isSome_stacked (hp : (lower p).isSome)
    (hb : ∀ upper ∈ layers, (layerTree upper).blocks p.dropLast = false) :
  (stacked layers lower p).isSome
  := by
  induction layers generalizing lower with
  | nil => apply hp
  | cons headers layers ih =>
    apply ih (isSome_overlay hp (hb headers (by simp)))
    intro upper hu
    apply hb upper (by simp [hu])

theorem exists_whiteout_stacked (hre : ∀ headers ∈ layers, Regular bare headers)
    (h : ¬ WhiteoutsCovered layers) :
  ∃ w, isWhiteout w ∧ (stacked layers lower w).isSome
  := by
  induction layers generalizing lower with
  | nil => exact absurd trivial h
  | cons headers layers ih =>
    obtain ⟨hh, hl⟩ := forall_mem_cons.1 hre
    rw [WhiteoutsCovered, not_and_or] at h
    rw [stacked_cons]
    rcases h with h | h
    · unfold Covered at h
      push Not at h
      obtain ⟨header, hhe, hwh, hb⟩ := h
      refine ⟨_, hwh, ?_⟩
      have hpl := plain_layerTree hh
      have hme : entryPath header ∈ whiteouts headers :=
        mem_filter.2 ⟨mem_map_of_mem hhe, hwh⟩
      have hs := hpl.present _ hme
      apply isSome_stacked
      · rw [overlay_of_decides (decides_of_isSome hs)]
        apply hs
      · intro upper hu
        exact eq_false_iff.2 (hb upper hu)
    · apply ih hl h

def Undecided (above : List (List Header)) (p : List Name) : Prop :=
  ∀ upper ∈ above, (layerTree upper).decides p ≠ true

theorem Undecided.not_beneath (hp : Undecided above p) (hc : Covered headers above)
    (hw : w ∈ whiteouts headers) :
  ¬ w.dropLast <+: p
  := by
  intro hwp
  obtain ⟨hme, hwh⟩ := mem_filter.1 hw
  obtain ⟨header, hhe, rfl⟩ := mem_map.1 hme
  obtain ⟨upper, hu, hb⟩ := hc header hhe hwh
  exact hp upper hu (decides_of_blocks (blocks_beneath hwp hb))

theorem Undecided.not_above (hp : Undecided above p) (hc : Covered headers above)
    (hw : w ∈ whiteouts headers) :
  ¬ p <+: w
  := by
  intro hpw
  obtain ⟨hme, hwh⟩ := mem_filter.1 hw
  obtain ⟨header, hhe, rfl⟩ := mem_map.1 hme
  obtain ⟨upper, hu, hb⟩ := hc header hhe hwh
  obtain ⟨r, c, hr, hle⟩ := blocks_iff.1 hb
  rcases prefix_or_prefix_of_prefix (hr.trans ( dropLast_prefix _)) hpw with hrp | hpr
  · exact hp upper hu (decides_of_blocks (blocks_iff.2 ⟨r, c, hrp, hle⟩))
  · exact hp upper hu
      (decides_of_isSome (closed_layerTree.isSome_above hpr (by simp [hle])))

theorem layerTree_eq_of_decides (hre : Regular bare headers)
    (hp : (plainTree headers).decides p) :
  (layerTree headers).decides p ∧ layerTree headers p = plainTree headers p
  := by
  have hpl := plain_layerTree hre
  rw [decides, or_eq_true] at hp
  rcases hp with hs | hb
  · obtain ⟨k, hk⟩ := Option.isSome_iff_exists.1 hs
    have hf := hpl.kept p k hk
    exact ⟨decides_of_isSome (by simp [hf]), hf.trans hk.symm⟩
  · obtain ⟨q, c, hq, hle⟩ := blocks_iff.1 hb
    have hf := hpl.kept q _ hle
    refine ⟨decides_of_blocks (blocks_iff.2 ⟨q, c, hq, hf⟩), ?_⟩
    by_cases heq : q = p
    · rw [← heq, hf, hle]
    · rw [hpl.closed_full.eq_none_of_leaf hf hq heq,
        hpl.closed_plain.eq_none_of_leaf hle hq heq]

theorem decides_plainTree (hre : Regular bare headers) (hc : Covered headers above)
    (hp : Undecided above p) (hd : (layerTree headers).decides p) :
  (plainTree headers).decides p
  := by
  have hpl := plain_layerTree hre
  rw [decides, or_eq_true] at hd
  rcases hd with hs | hb
  · obtain ⟨k, hk⟩ := Option.isSome_iff_exists.1 hs
    rcases hpl.added p k hk with hk | ⟨w, hw, hpw⟩
    · exact decides_of_isSome (by simp [hk])
    · exact absurd hpw (hp.not_above hc hw)
  · obtain ⟨q, c, hq, hle⟩ := blocks_iff.1 hb
    rcases hpl.leaf hle with hle | hw
    · exact decides_of_blocks (blocks_iff.2 ⟨q, c, hq, hle⟩)
    · exact absurd (( dropLast_prefix q).trans hq) (hp.not_beneath hc hw)

variable {lower' : ImageTree}

/-- Two trees that agree where the layers above do not decide still do so under a layer with covered
whiteouts, extracted on the one and applied on the other. -/
theorem overlay_eq_applyLayer (hre : Regular bare headers) (hcl : lower'.Closed)
    (hro : lower' [] = some .dir) (hc : Covered headers above)
    (hag : ∀ p, Undecided (headers :: above) p → lower p = lower' p) (hp : Undecided above p) :
  overlay (layerTree headers) lower p = applyLayer lower' headers p
  := by
  rw [applyLayer_eq hre hcl hro]
  by_cases hd : (plainTree headers).decides p
  · obtain ⟨hf, heq⟩ := layerTree_eq_of_decides hre hd
    rw [overlay_of_decides hd, overlay_of_decides hf, heq]
  · have hf := mt (decides_plainTree hre hc hp) hd
    rw [overlay_of_not_decides hd, overlay_of_not_decides hf,
      hag p (forall_mem_cons.2 ⟨hf, hp⟩), hide_of_not_hides]
    intro header hhe
    rw [eq_false_iff]
    intro hhi
    obtain ⟨hwh, hab⟩ := above_of_hides hhi
    exact hp.not_beneath hc
      (mem_filter.2 ⟨mem_map_of_mem hhe, hwh⟩) hab

structure Applied (t : ImageTree) : Prop where
  closed : t.Closed
  root : t [] = some .dir
  no_whiteout : ∀ w, isWhiteout w = true → t w = none

theorem applied_bare :
  Applied bare
  := ⟨Plain.bare.closed_plain, Plain.bare.root, Plain.bare.absent⟩

theorem Applied.applyLayer (h : Applied lower) (hre : Regular bare headers) :
  Applied (Image.applyLayer lower headers)
  := by
  have hpl := plain_layerTree hre
  rw [applyLayer_eq hre h.closed h.root]
  constructor
  · apply closed_overlay hpl.closed_plain (closed_hide h.closed)
  · rw [overlay_of_decides (decides_of_isSome (by simp [hpl.root])), hpl.root]
  · intro w hw
    unfold overlay
    split
    · apply hpl.absent w hw
    · apply hide_eq_none (h.no_whiteout w hw)

theorem Applied.foldl (h : Applied lower) (hre : ∀ headers ∈ layers, Regular bare headers) :
  Applied (layers.foldl Image.applyLayer lower)
  := by
  induction layers generalizing lower with
  | nil => apply h
  | cons headers layers ih =>
    obtain ⟨hh, hl⟩ := forall_mem_cons.1 hre
    apply ih (h.applyLayer hh) hl

theorem stacked_eq_foldl (h : Applied lower')
    (hre : ∀ headers ∈ layers, Regular bare headers) (hc : WhiteoutsCovered layers)
    (hag : ∀ p, Undecided layers p → lower p = lower' p) :
  stacked layers lower = layers.foldl applyLayer lower'
  := by
  induction layers generalizing lower lower' with
  | nil =>
    funext p
    apply hag p
    nofun
  | cons headers layers ih =>
    obtain ⟨hh, hl⟩ := forall_mem_cons.1 hre
    apply ih (h.applyLayer hh) hl hc.2
    intro p hp
    apply overlay_eq_applyLayer hh h.closed h.root hc.1 hag hp

end Stacked

section Mount

variable {found : ImageTree → List Name → Bool} {merged : ImageTree} {w : List Name}

def FindsNodes (found : ImageTree → List Name → Bool) : Prop :=
  ∀ t p k, t p = some k → (∀ target, k ≠ .leaf (.link target)) → found t p = true

theorem ensureOSRelease_of_found (h : osReleasePaths.any (found merged)) :
  ensureOSRelease found merged = merged
  := if_pos h

theorem isSome_ensureOSRelease (hfo : FindsNodes found) (hm : merged.Closed)
    (hw : isWhiteout w) (hs : (merged w).isSome) :
  (ensureOSRelease found merged w).isSome
  := by
  unfold ensureOSRelease
  split
  · apply hs
  next hn =>
    rcases path_cases ["usr".toList, "lib".toList, "os-release".toList] w with
      rfl | ⟨hab, hne⟩ | ⟨hbe, hne⟩ | hap
    · rfl
    · rw [put_of_above hab hne]
      rfl
    · -- There would be a directory, and it would be found.
      have hdr := hm.dir_above hbe hne.symm hs
      have hin := hfo merged _ _ hdr (by simp)
      exact absurd (any_eq_true.2 ⟨_, by simp [osReleasePaths], hin⟩) hn
    · rw [put_of_apart hap.1 hap.2]
      apply hs

theorem ensureOSRelease_ne (hfo : FindsNodes found) (h : osReleasePaths.any (found merged) ≠ true) :
  ensureOSRelease found merged ≠ merged
  := by
  intro heq
  unfold ensureOSRelease at heq
  rw [if_neg h] at heq
  have hpu := congrFun heq ["usr".toList, "lib".toList, "os-release".toList]
  exact h (any_eq_true.2
    ⟨_, by simp [osReleasePaths], hfo merged _ _ hpu.symm (by simp)⟩)

theorem mount_eq_stacked {α : Type*} [DecidableEq α] {layerPaths : List α}
    {streams : α → List Header} {dests : α → Destination}
    (hre : ∀ a ∈ layerPaths, Regular bare (streams a)) :
  mount found (fun a => (dests a).tree (streams a)) layerPaths
    = ensureOSRelease found (stacked (layerPaths.map streams) bare)
  := by
  have hdi : (lowerDirs layerPaths).map (fun a => (dests a).tree (streams a))
      = (lowerDirs layerPaths).map fun a => layerTree (streams a) := by
    apply map_congr_left
    intro a ha
    exact (extractLayer_regular (dests a) (hre a (mem_of_mem_lowerDirs ha))).2
  rw [mount, hdi, foldr_cons, stack_lowerDirs, overlay_bare]
  apply stacked_root _ rfl
  simpa using hre

end Mount

/-- Layers are extracted to empty directories and mounted. -/
theorem mount_eq_applyLayers_iff {α : Type*} [DecidableEq α] (layerPaths : List α)
    (streams : α → List Header) (dests : α → Destination)
    (found : ImageTree → List Name → Bool) (hfound : FindsNodes found)
    (hregular : ∀ a ∈ layerPaths, Regular Tree.bare (streams a)) :
  (∀ a ∈ layerPaths, ((dests a).extract (streams a)).2 = none)
    ∧ (mount found (fun a => (dests a).tree (streams a)) layerPaths
        = applyLayers (layerPaths.map streams)
      ↔ WhiteoutsCovered (layerPaths.map streams)
        ∧ osReleasePaths.any (found (applyLayers (layerPaths.map streams))) = true)
  := by
  have hl : ∀ headers ∈ layerPaths.map streams, Regular bare headers := by
    simpa using hregular
  have hse (hc : WhiteoutsCovered (layerPaths.map streams)) :
      stacked (layerPaths.map streams) bare = applyLayers (layerPaths.map streams) :=
    stacked_eq_foldl applied_bare hl hc fun _ _ => rfl
  use fun a ha => (extractLayer_regular (dests a) (hregular a ha)).1
  rw [mount_eq_stacked hregular]
  constructor
  · intro heq
    have hc : WhiteoutsCovered (layerPaths.map streams) := by
      by_contra hc
      obtain ⟨w, hw, hs⟩ := exists_whiteout_stacked hl hc
      have hsh := isSome_ensureOSRelease hfound (closed_stacked closed_bare) hw hs
      rw [heq, applyLayers, (applied_bare.foldl hl).no_whiteout w hw] at hsh
      cases hsh
    use hc
    rw [hse hc] at heq
    by_contra hn
    exact ensureOSRelease_ne hfound hn heq
  · rintro ⟨hc, hos⟩
    rw [hse hc, ensureOSRelease_of_found hos]

/-- An empty directory to extract to. -/
def hostDestination : Destination where
  dst := "/dst".toList
  host := hostFiles
  top := ["dst".toList]
  named := by decide +kernel
  emptyDir := by
    have hclean : (parse "/dst".toList).clean = parse "/dst".toList := by decide +kernel
    rw [hclean]
    apply emptyDir_hostFiles

def coveredLayers : Bool → List Header
  | false =>
    [{ name := "./".toList, typeflag := .dir },
      { name := "etc/os-release".toList, typeflag := .reg, body := [1] },
      { name := "etc/release".toList, typeflag := .link, linkname := "/etc/os-release".toList },
      { name := "srv/.wh.old".toList, typeflag := .reg }]
  | true =>
    [{ name := "usr/bin".toList, typeflag := .dir },
      { name := "bin".toList, typeflag := .symlink, linkname := "usr/bin".toList },
      { name := "srv".toList, typeflag := .reg, body := [2, 3] }]

def standsAt (t : ImageTree) (p : List Name) : Bool :=
  (t p).isSome

theorem findsNodes_standsAt :
  FindsNodes standsAt
  := by
  intro t p k hk _
  rw [standsAt, hk]
  rfl

theorem mount_eq_applyLayers_covered :
  mount standsAt (fun a => hostDestination.tree (coveredLayers a)) [true, false, true]
      = applyLayers ([true, false, true].map coveredLayers)
    ∧ applyLayers ([true, false, true].map coveredLayers) ["srv".toList]
      = some (.leaf (.file [2, 3]))
    ∧ applyLayers ([true, false, true].map coveredLayers) ["etc".toList, "release".toList]
      = some (.leaf (.file [1]))
  := by
  refine ⟨?_, by decide +kernel, by decide +kernel⟩
  apply (mount_eq_applyLayers_iff [true, false, true] coveredLayers (fun _ => hostDestination)
    standsAt findsNodes_standsAt (by decide +kernel)).2.mpr
  decide +kernel

def removedLayers : Bool → List Header
  | false =>
    [{ name := "etc/os-release".toList, typeflag := .reg, body := [1] },
      { name := "a".toList, typeflag := .reg, body := [2] }]
  | true => [{ name := ".wh.a".toList, typeflag := .reg }]

theorem mount_shows_whiteout :
  (∀ a ∈ [false, true], (hostDestination.extract (removedLayers a)).2 = none)
    ∧ mount standsAt (fun a => hostDestination.tree (removedLayers a)) [false, true] ["a".toList]
      = some (.leaf (.file [2]))
    ∧ mount standsAt (fun a => hostDestination.tree (removedLayers a)) [false, true]
        [".wh.a".toList] = some (.leaf (.file []))
    ∧ applyLayers ([false, true].map removedLayers) ["a".toList] = none
    ∧ applyLayers ([false, true].map removedLayers) [".wh.a".toList] = none
  := by
  refine ⟨by decide +kernel, by decide +kernel, by decide +kernel, by decide +kernel,
    by decide +kernel⟩

end Periapsis.Image
