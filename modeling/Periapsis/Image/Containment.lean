import Periapsis.Files.Confined
import Periapsis.Image.Extract

/-!
# Layers that stay in their directory

An extraction stays inside its directory if the links that are there before every entry lead inside
(`extractLayer_confined`).
-/

namespace Periapsis.Image

open Files FileSystem List Trace Path

/-- As far as the path can be walked, it leads into the directory. -/
def LeadsInside (top : Loc) (fs : FileSystem) (p : Path) : Prop :=
  ∀ loc ∈ fs.deepest p.rooted p.names.reverse, top <+: loc

def ending (fs : FileSystem) (p : Path) : Option Loc :=
  match fs.entryOf p with
  | .error _ => none
  | .ok (dir, name) => if (fs.at? (dir ++ [name])).isSome then some (dir ++ [name]) else none

/-- The path of an entry leads inside, as far as it exists. -/
def EntryInside (top : Loc) (fs : FileSystem) (target linkTarget : Path) : Typeflag → Prop
  | .dir => fs.found target = none → LeadsInside top fs target.parent
  | .reg => (fs.found target.parent = none → LeadsInside top fs target.parent)
      ∧ ∀ loc ∈ (fs.resolve target).toOption, fs.at? loc ≠ some .dir → Inside top loc
  | .symlink => LeadsInside top fs target.parent
  | .link => LeadsInside top fs target.parent ∧ ∃ loc ∈ ending fs linkTarget, Inside top loc
  | .other => True

def LinksInside (top : Loc) (dst : List Char) (t : Trace) (header : Header) : Prop :=
  ∀ p ∈ (target dst header.name).toOption, ∀ target ∈ p,
    EntryInside top t.now target ((parse dst).join (parse header.linkname)) header.typeflag

instance decidableInside (top loc : Loc) : Decidable (Inside top loc) :=
  inferInstanceAs (Decidable (top <+: loc ∧ loc ≠ top))

instance decidableLeadsInside (top : Loc) (fs : FileSystem) (p : Path) :
    Decidable (LeadsInside top fs p) :=
  inferInstanceAs (Decidable (∀ loc ∈ fs.deepest p.rooted p.names.reverse, top <+: loc))

instance decidableEntryInside (top : Loc) (fs : FileSystem) (target linkTarget : Path)
    (typeflag : Typeflag) : Decidable (EntryInside top fs target linkTarget typeflag) :=
  match typeflag with
  | .dir => inferInstanceAs (Decidable (fs.found target = none → LeadsInside top fs target.parent))
  | .reg =>
    inferInstanceAs (Decidable ((fs.found target.parent = none
      → LeadsInside top fs target.parent)
      ∧ ∀ loc ∈ (fs.resolve target).toOption, fs.at? loc ≠ some .dir → Inside top loc))
  | .symlink => inferInstanceAs (Decidable (LeadsInside top fs target.parent))
  | .link =>
    inferInstanceAs (Decidable (LeadsInside top fs target.parent
      ∧ ∃ loc ∈ ending fs linkTarget, Inside top loc))
  | .other => isTrue trivial

instance decidableLinksInside (top : Loc) (dst : List Char) (t : Trace) (header : Header) :
    Decidable (LinksInside top dst t header) :=
  inferInstanceAs (Decidable (∀ p ∈ (target dst header.name).toOption, ∀ target ∈ p,
    EntryInside top t.now target ((parse dst).join (parse header.linkname)) header.typeflag))

section Entry

variable {top : Loc} {fs₀ : FileSystem} {dst : List Char} {header : Header} {p : Path}
  {t t' : Trace}

theorem tidy_target (h : target dst header.name = .ok (some p)) :
  Path.Tidy p.names.reverse
  := by
  unfold target at h
  dsimp only at h
  split at h
  · cases h
  · split at h
    · cases h
    · split at h
      · cases h
      · cases h
        apply tidy_join

theorem tidy_parent (h : Path.Tidy p.names.reverse) :
  Path.Tidy p.parent.names.reverse
  := by
  rw [parent, ← tail_reverse]
  cases hn : p.names.reverse with
  | nil => trivial
  | cons name above =>
    rw [hn] at h
    apply h.tail

variable {err : Option Errno} {t₁ : Trace}

section

variable (ht : Path.Tidy p.names.reverse)
include ht

theorem made_parent (hi : LeadsInside top t.now p.parent)
    (hu : ∀ fs ∈ t.states, Untouched top fs₀ fs) (h : t.mkdirAll p.parent = (t', err)) :
  Made top fs₀ p.parent t t' err
  := mkdirAll_confined (tidy_parent ht) hi hu h

theorem mkdirAll_target (hi : t.now.found p = none → LeadsInside top t.now p.parent)
    (hu : ∀ fs ∈ t.states, Untouched top fs₀ fs) (h : t.mkdirAll p = (t', err)) :
  ∀ fs ∈ t'.states, Untouched top fs₀ fs
  := by
  by_cases hf : t.now.found p = none
  · apply (mkdirAll_confined ht _ hu h).untouched
    have hpa := hi hf
    rw [LeadsInside, parent, ← tail_reverse] at hpa
    cases hn : p.names.reverse with
    | nil =>
      rw [hn] at hpa
      apply hpa
    | cons name above =>
      rw [deepest_of_not_found]
      · rw [hn] at hpa
        apply hpa
      · rw [← hn, reverse_reverse]
        apply hf
  · obtain rfl := mkdirAll_of_found hf h
    apply hu

theorem inside_of_write
    (hr : ∀ loc ∈ (t.now.resolve p).toOption, t.now.at? loc ≠ some .dir → Inside top loc)
    (hm : t' = t ∨ Made top fs₀ p.parent t t' none) (h : t.mkdirAll p.parent = (t', none))
    (hl : t'.now.resolve p = .ok loc) (hnd : t'.now.at? loc ≠ some .dir) :
  Inside top loc
  := by
  by_cases hs : t' = t
  · subst hs
    apply hr loc _ hnd
    simp [hl, Except.toOption]
  · have hm := hm.resolve_left hs
    have hv := hm.vacant.resolve_left hs
    rw [mkdirAll, parent, ← tail_reverse] at h
    obtain ⟨rooted, names⟩ := p
    obtain ⟨above, rfl⟩ : ∃ above : List Name, names = above.reverse :=
      ⟨names.reverse, by simp⟩
    rw [reverse_reverse] at ht h
    cases above with
    | nil => exact absurd (mkdirAllNames_dotDots (by simp) h) hs
    | cons name above =>
      rcases ht with ⟨-, hd⟩ | ⟨hna, -⟩
      · exact absurd (mkdirAllNames_dotDots hd h) hs
      · rw [parent, reverse_cons, dropLast_concat] at hm hv
        rw [reverse_cons] at hl
        obtain ⟨dir, hdi, hno⟩ := resolve_dir_of_concat hl
        have hfr := hv dir hdi hno name
        have heq := resolve_concat hdi hno hna (by simp [hfr])
        cases heq.symm.trans hl
        apply inside_concat (hm.inside dir hdi hno)

theorem extractReg_confined (hpa : t.now.found p.parent = none → LeadsInside top t.now p.parent)
    (hr : ∀ loc ∈ (t.now.resolve p).toOption, t.now.at? loc ≠ some .dir → Inside top loc)
    (hu : ∀ fs ∈ t.states, Untouched top fs₀ fs) (h : t.mkdirAll p.parent = (t₁, err)) :
  (∀ fs ∈ t₁.states, Untouched top fs₀ fs)
    ∧ (err = none → ∀ body t' err', t₁.call (write p body) = (t', err')
      → ∀ fs ∈ t'.states, Untouched top fs₀ fs)
  := by
  have hm : t₁ = t ∨ Made top fs₀ p.parent t t₁ err := by
    by_cases hf : t.now.found p.parent = none
    · right
      apply made_parent ht (hpa hf) hu h
    · left
      apply mkdirAll_of_found hf h
  have hut : ∀ fs ∈ t₁.states, Untouched top fs₀ fs := by
    rcases hm with rfl | hm
    · apply hu
    · apply hm.untouched
  use hut
  rintro rfl body t' err' hw
  apply untouched_call hw hut
  intro fs hfs
  apply (hut t₁.now (by simp [states])).write _ hfs
  intro loc hl hnd
  apply inside_of_write ht hr hm h hl hnd

end

theorem remove_confined (hm : Made top fs₀ p.parent t t₁ err)
    (h : t₁.call (remove p) = (t', err')) :
  (∀ fs ∈ t'.states, Untouched top fs₀ fs) ∧ t'.now.Extends t₁.now
  := by
  constructor
  · apply untouched_call h hm.untouched
    intro fs hfs
    apply (hm.untouched t₁.now (by simp [states])).remove _ hfs
    intro dir name hen
    apply hm.inside_entryOf hen
  · rcases call_eq h with ⟨fs, hfs, rfl, -⟩ | ⟨e, -, rfl, -⟩
    · apply extends_of_remove hfs
    · apply Extends.refl

variable {t₂ : Trace}

section

variable (ht : Path.Tidy p.names.reverse)
include ht

theorem extractSymlink_confined (hi : LeadsInside top t.now p.parent)
    (hu : ∀ fs ∈ t.states, Untouched top fs₀ fs) (hmk : t.mkdirAll p.parent = (t₁, err₁))
    (hre : t₁.call (remove p) = (t₂, err₂)) (h : t₂.call (symlink linkname p) = (t', err)) :
  ∀ fs ∈ t'.states, Untouched top fs₀ fs
  := by
  have hm := made_parent ht hi hu hmk
  obtain ⟨hun, hex⟩ := remove_confined hm hre
  apply untouched_call h hun
  intro fs hfs
  apply (hun t₂.now (by simp [states])).symlink _ hfs
  intro dir name hen
  apply hm.inside_entryOf (entryOf_extends hex hen)

theorem extractLink_confined (hi : LeadsInside top t.now p.parent)
    (hu : ∀ fs ∈ t.states, Untouched top fs₀ fs) (hmk : t.mkdirAll p.parent = (t₁, err₁))
    (hre : t₁.call (remove p) = (t₂, err₂)) (ho : ∃ loc ∈ ending t.now old, Inside top loc)
    (h : t₂.call (link old p) = (t', err)) :
  ∀ fs ∈ t'.states, Untouched top fs₀ fs
  := by
  have hm := made_parent ht hi hu hmk
  obtain ⟨hun, hex⟩ := remove_confined hm hre
  apply untouched_call h hun
  intro fs hfs
  apply (hun t₂.now (by simp [states])).link _ _ hfs
  · -- What the path of the file ends in is the same before the entry, and now.
    intro dir name i hen _
    obtain ⟨loc, hl, hin⟩ := ho
    unfold ending at hl
    split at hl
    · cases hl
    next dir' name' het =>
      have heq := (entryOf_extends hm.extended het).symm.trans
        (entryOf_extends hex hen)
      cases heq
      split at hl
      · cases hl
        apply hin
      · cases hl
  · intro dir name hen
    apply hm.inside_entryOf (entryOf_extends hex hen)

theorem extractTo_confined
    (hi : EntryInside top t.now p ((parse dst).join (parse header.linkname)) header.typeflag)
    (hu : ∀ fs ∈ t.states, Untouched top fs₀ fs) :
  ∀ fs ∈ (extractTo dst header p t).1.states, Untouched top fs₀ fs
  := by
  unfold extractTo
  cases hty : header.typeflag with
  | dir =>
    rw [hty] at hi
    apply mkdirAll_target ht hi hu rfl
  | reg =>
    rw [hty] at hi
    dsimp only
    split
    next t₁ e hmk =>
      apply (extractReg_confined ht hi.1 hi.2 hu hmk).1
    next t₁ hmk =>
      have hwr := (extractReg_confined ht hi.1 hi.2 hu hmk).2 rfl
      split
      next t₂ e hw =>
        apply hwr _ _ _ hw
      next t₂ hw =>
        apply hwr _ _ _ hw
  | symlink =>
    rw [hty] at hi
    apply extractSymlink_confined ht hi hu rfl rfl rfl
  | link =>
    rw [hty] at hi
    apply extractLink_confined ht hi.1 hu rfl rfl hi.2 rfl
  | other => apply hu

end

theorem extractEntry_confined (hi : LinksInside top dst t header)
    (hu : ∀ fs ∈ t.states, Untouched top fs₀ fs) :
  ∀ fs ∈ (extractEntry dst header t).1.states, Untouched top fs₀ fs
  := by
  unfold extractEntry
  split
  · apply hu
  · apply hu
  next p hp =>
    apply extractTo_confined (tidy_target hp) _ hu
    apply hi _ _ p rfl
    simp [hp, Except.toOption]

end Entry

structure EmptyDir (fs : FileSystem) (p : Path) (top : Loc) : Prop where
  resolved : fs.resolve p = .ok top
  dir : fs.at? top = some .dir
  empty : ∀ loc, Inside top loc → fs.at? loc = none

theorem untouched_extractLayer {complete : Bool} {t : Trace}
    (hu : ∀ fs ∈ t.states, Untouched top fs₀ fs)
    (hi : (extraction dst).Meets (LinksInside top dst) t headers) :
  ∀ fs ∈ (extractLayer dst complete headers t).1.states, Untouched top fs₀ fs
  := by
  induction headers generalizing t with
  | nil => apply hu
  | cons header headers ih =>
    have hen := extractEntry_confined hi.1 hu
    have hne := hi.2
    rw [extractLayer]
    simp only [extraction] at hne
    generalize extractEntry dst header t = r at hen hne
    obtain ⟨t₁, err⟩ := r
    cases err with
    | some e => apply hen
    | none => apply ih hen (hne t₁ rfl)

/-- An extraction into an empty directory touches nothing outside it, if before every entry the
links that are there lead inside. -/
theorem extractLayer_confined {dst : List Char} {top : Loc} {fs : FileSystem} {complete : Bool}
    {headers : List Header} (hdst : EmptyDir fs (parse dst) top)
    (hinside : (extraction dst).Meets (LinksInside top dst) (.start fs) headers) :
  ∀ fs' ∈ (extractLayer dst complete headers (.start fs)).1.states, Untouched top fs fs'
  := by
  apply untouched_extractLayer _ hinside
  intro fs' hf
  obtain rfl := mem_singleton.mp hf
  apply Untouched.refl hdst.empty

def hostFiles : FileSystem :=
  (FileSystem.bare.add [] "dst".toList .dir rfl rfl nofun).add [] "etc".toList .dir rfl rfl nofun

theorem emptyDir_hostFiles :
  EmptyDir hostFiles (parse "/dst".toList) ["dst".toList]
  := by
  refine ⟨by decide +kernel, by decide +kernel, ?_⟩
  have hk : ∀ loc ∈ hostFiles.nodes.keys, ¬ Inside ["dst".toList] loc := by decide +kernel
  intro loc hi
  rw [at?, AList.lookup_eq_none, AList.mem_keys]
  intro hme
  exact hk loc hme hi

def confinedLayer : List Header :=
  [{ name := "usr/bin".toList, typeflag := .dir },
    { name := "bin".toList, typeflag := .symlink, linkname := "usr/bin".toList },
    { name := "bin/sh".toList, typeflag := .reg, body := [1, 2, 3] },
    { name := "out".toList, typeflag := .symlink, linkname := "/etc".toList },
    { name := "usr/bin/bash".toList, typeflag := .link, linkname := "bin/sh".toList }]

theorem extractLayer_confined_links :
  (∀ fs ∈ (extractLayer "/dst".toList true confinedLayer (.start hostFiles)).1.states,
      Untouched ["dst".toList] hostFiles fs)
    ∧ (extractLayer "/dst".toList true confinedLayer (.start hostFiles)).2 = none
    ∧ (extractLayer "/dst".toList true confinedLayer (.start hostFiles)).1.now.at?
        ["dst".toList, "usr".toList, "bin".toList, "bash".toList] = some (.leaf 1)
  := by
  refine ⟨extractLayer_confined emptyDir_hostFiles ?_, by decide +kernel, by decide +kernel⟩
  decide +kernel

def escapingLayer : List Header :=
  [{ name := "s".toList, typeflag := .symlink, linkname := "/etc".toList },
    { name := "s/passwd".toList, typeflag := .reg, body := [1, 2, 3] }]

theorem extractLayer_escapes :
  EmptyDir hostFiles (parse "/dst".toList) ["dst".toList]
    ∧ ∃ fs ∈ (extractLayer "/dst".toList true escapingLayer (.start hostFiles)).1.states,
      ¬ Untouched ["dst".toList] hostFiles fs
      ∧ hostFiles.at? ["etc".toList, "passwd".toList] = none
      ∧ fs.at? ["etc".toList, "passwd".toList] = some (.leaf 1)
  := by
  have hou : ¬ Inside ["dst".toList] ["etc".toList, "passwd".toList] := by decide +kernel
  have hb : hostFiles.at? ["etc".toList, "passwd".toList] = none := by decide +kernel
  have ha : (extractLayer "/dst".toList true escapingLayer (.start hostFiles)).1.now.at?
      ["etc".toList, "passwd".toList] = some (.leaf 1) := by decide +kernel
  refine ⟨emptyDir_hostFiles, _, mem_append_right _ (mem_singleton_self _), ?_, hb, ha⟩
  intro hu
  rw [hu.nodes _ hou, hb] at ha
  cases ha

end Periapsis.Image
