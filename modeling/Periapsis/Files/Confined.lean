import Periapsis.Files.Walk

/-!
# What stays inside a directory

A file system is untouched outside a directory if everything outside is as it was, and no inode from
there has got a name inside.
-/

namespace Files

open List Option Except FileSystem

def Inside (top loc : Loc) : Prop :=
  top <+: loc ∧ loc ≠ top

variable {top dir : Loc}

theorem inside_concat (h : top <+: dir) (name : Name) :
  Inside top (dir ++ [name])
  := by
  constructor
  · apply h.trans (prefix_append _ _)
  · intro heq
    have hle := h.length_le
    rw [← heq, length_append, length_singleton] at hle
    omega

structure Untouched (top : Loc) (fs fs' : FileSystem) : Prop where
  nodes : ∀ loc, ¬ Inside top loc → fs'.at? loc = fs.at? loc
  inodes : ∀ i, i < fs.inodes.length → fs'.inodes[i]? = fs.inodes[i]?
  unlinked : ∀ loc i, Inside top loc → fs'.at? loc = some (.leaf i) → fs.inodes.length ≤ i

namespace FileSystem

variable {fs fs' : FileSystem}

theorem create_eq_ok {dir : Loc} {name : Name} {hnd : ∀ i, node = .leaf i → i < fs.inodes.length}
    (h : fs.create dir name node hnd = .ok fs') :
  ∃ hdr hfr, fs' = fs.add dir name node hdr hfr hnd
  := by
  unfold create at h
  split at h
  next hdr =>
    split_ifs at h with hfr
    exact ⟨hdr, hfr, (ok.inj h).symm⟩
  · cases h

theorem mkdir_eq_ok (h : fs.mkdir p = .ok fs') :
  ∃ dir name, fs.entryOf p = .ok (dir, name)
    ∧ ∃ hdr hfr, fs' = fs.add dir name .dir hdr hfr (by simp)
  := by
  unfold mkdir at h
  split at h
  · cases h
  next dir name hen =>
    exact ⟨dir, name, hen, create_eq_ok h⟩

end FileSystem

namespace Untouched

variable {fs₀ fs fs' : FileSystem}

theorem refl (hem : ∀ loc, Inside top loc → fs.at? loc = none) :
  Untouched top fs fs
  := by
  refine ⟨fun _ _ => rfl, fun _ _ => rfl, ?_⟩
  intro loc i hlo hl
  rw [hem loc hlo] at hl
  cases hl

theorem length_le (h : Untouched top fs₀ fs) :
  fs₀.inodes.length ≤ fs.inodes.length
  := by
  by_contra hlt
  have hg := h.inodes fs.inodes.length (by omega)
  rw [getElem?_eq_none (le_refl _)] at hg
  have := getElem?_eq_none_iff.1 hg.symm
  omega

variable {name : Name} {node : Node}

section

variable (h : Untouched top fs₀ fs)
include h

theorem add (his : top <+: dir) (ho : ∀ i, node = .leaf i → fs₀.inodes.length ≤ i)
    {hdr : fs.at? dir = some .dir} {hfr : fs.at? (dir ++ [name]) = none}
    {hnd : ∀ i, node = .leaf i → i < fs.inodes.length} :
  Untouched top fs₀ (fs.add dir name node hdr hfr hnd)
  := by
  have hin := inside_concat his name
  constructor
  · intro loc hlo
    rw [at?_add, if_neg]
    · apply h.nodes loc hlo
    · rintro rfl
      exact hlo hin
  · apply h.inodes
  · intro loc i hlo hl
    rw [at?_add] at hl
    split at hl
    · apply ho i (some.inj hl)
    · apply h.unlinked loc i hlo hl

theorem create (his : top <+: dir) (ho : ∀ i, node = .leaf i → fs₀.inodes.length ≤ i)
    {hnd : ∀ i, node = .leaf i → i < fs.inodes.length}
    (hcr : fs.create dir name node hnd = .ok fs') :
  Untouched top fs₀ fs'
  := by
  obtain ⟨hdr, hfr, rfl⟩ := create_eq_ok hcr
  apply h.add his ho

theorem allocate (inode : Inode) :
  Untouched top fs₀ (fs.allocate inode)
  := by
  refine ⟨h.nodes, ?_, h.unlinked⟩
  intro i hi
  rw [FileSystem.allocate, List.getElem?_append_left (by have := h.length_le; omega)]
  apply h.inodes i hi

theorem createInode (his : top <+: dir) {inode : Inode}
    (hcr : fs.createInode dir name inode = .ok fs') :
  Untouched top fs₀ fs'
  := by
  apply (h.allocate inode).create his _ hcr
  rintro i ⟨⟩
  apply h.length_le

end

variable {p : Path}

section

variable (h : Untouched top fs₀ fs)
include h

theorem symlink {target : List Char}
    (his : ∀ dir name, fs.entryOf p = .ok (dir, name) → top <+: dir)
    (hsy : fs.symlink target p = .ok fs') :
  Untouched top fs₀ fs'
  := by
  unfold FileSystem.symlink at hsy
  split_ifs at hsy
  split at hsy
  · cases hsy
  next dir name hen =>
    apply h.createInode (his dir name hen) hsy

theorem remove (his : ∀ dir name, fs.entryOf p = .ok (dir, name) → top <+: dir)
    (hr : fs.remove p = .ok fs') :
  Untouched top fs₀ fs'
  := by
  unfold FileSystem.remove at hr
  split at hr
  · cases hr
  next dir name hen =>
    split at hr
    · split_ifs at hr
      cases hr
      have hin := inside_concat (his dir name hen) name
      constructor
      · intro loc hlo
        rw [at?_erase, if_neg]
        · apply h.nodes loc hlo
        · rintro rfl
          exact hlo hin
      · apply h.inodes
      · intro loc i hlo hl
        rw [at?_erase] at hl
        split_ifs at hl
        apply h.unlinked loc i hlo hl
    · cases hr

theorem link
    (ho : ∀ dir name i, fs.entryOf old = .ok (dir, name) → fs.at? (dir ++ [name]) = some (.leaf i) →
      Inside top (dir ++ [name]))
    (his : ∀ dir name, fs.entryOf p = .ok (dir, name) → top <+: dir)
    (hli : fs.link old p = .ok fs') :
  Untouched top fs₀ fs'
  := by
  unfold FileSystem.link at hli
  split at hli
  · cases hli
  next dir name hen =>
    split at hli
    · cases hli
    · cases hli
    next i hl =>
      split at hli
      · cases hli
      next dir' name' het =>
        apply h.create (his dir' name' het) _ hli
        rintro _ ⟨⟩
        apply h.unlinked _ i (ho dir name i hen hl) hl

theorem write {data : List UInt8}
    (his : ∀ loc, fs.resolve p = .ok loc → fs.at? loc ≠ some .dir → Inside top loc)
    (hw : fs.write p data = .ok fs') :
  Untouched top fs₀ fs'
  := by
  unfold FileSystem.write at hw
  split at hw
  · cases hw
  next loc hlo =>
    split at hw
    next hnn =>
      have hin := his loc hlo (by simp [hnn])
      split at hw
      · cases hw
      next name hla =>
        apply h.createInode _ hw
        obtain ⟨dir, rfl⟩ := getLast?_eq_some_iff.1 hla
        rw [dropLast_concat]
        exact (prefix_concat_iff.1 hin.1).resolve_left fun heq => hin.2 heq.symm
    · cases hw
    next i hl =>
      have hin := his loc hlo (by simp [hl])
      split at hw
      next inode hio =>
        cases hw
        refine ⟨h.nodes, ?_, h.unlinked⟩
        intro j hj
        have hne := h.unlinked loc i hin hl
        rw [update, getElem?_set_ne (by omega)]
        apply h.inodes j hj
      · cases hw

end

end Untouched

namespace FileSystem

def found (fs : FileSystem) (p : Path) : Option Loc :=
  match fs.resolve p with
  | .error _ => none
  | .ok loc => if (fs.at? loc).isSome then some loc else none

/-- Where the longest part of a path leads that leads anywhere; the last name comes first. -/
def deepest (fs : FileSystem) (rooted : Bool) : List Name → Option Loc
  | [] => fs.found ⟨rooted, []⟩
  | name :: above =>
    match fs.found ⟨rooted, (name :: above).reverse⟩ with
    | some loc => some loc
    | none => fs.deepest rooted above

variable {fs : FileSystem} {p : Path} {loc : Loc}

theorem found_eq_some :
  fs.found p = some loc ↔ fs.resolve p = .ok loc ∧ (fs.at? loc).isSome
  := by
  unfold found
  cases fs.resolve p with
  | error e => simp
  | ok loc' =>
    dsimp only
    split
    next hso =>
      simp only [Option.some.injEq, ok.injEq, iff_self_and]
      rintro rfl
      apply hso
    next hso =>
      simp only [reduceCtorEq, ok.injEq, false_iff, not_and]
      rintro rfl
      apply hso

theorem stat_eq_ok :
  fs.stat p = .ok node ↔ ∃ loc, fs.resolve p = .ok loc ∧ fs.at? loc = some node
  := by
  unfold stat
  cases fs.resolve p with
  | error e => simp
  | ok loc =>
    cases hnd : fs.at? loc with
    | _ => simp [hnd]

variable {rooted : Bool}

theorem deepest_of_found {names : List Name} (h : fs.found ⟨rooted, names.reverse⟩ = some loc) :
  fs.deepest rooted names = some loc
  := by
  cases names with
  | nil => apply h
  | cons name above => rw [deepest, h]

theorem deepest_of_not_found {name : Name} {above : List Name}
    (h : fs.found ⟨rooted, (name :: above).reverse⟩ = none) :
  fs.deepest rooted (name :: above) = fs.deepest rooted above
  := by
  rw [deepest, h]

end FileSystem

/-- What is left of a trace by making a directory: the outside untouched, and if the path now leads
to a directory then to one inside, empty if it is new. -/
structure Made (top : Loc) (fs₀ : FileSystem) (p : Path) (t t' : Trace) (err : Option Errno) :
    Prop where
  untouched : ∀ fs ∈ t'.states, Untouched top fs₀ fs
  extended : t.now.Extends t'.now
  dir : err = none → ∃ loc, t'.now.resolve p = .ok loc ∧ t'.now.at? loc = some .dir
  not_dir : ∀ e, err = some e → ∀ loc, t'.now.resolve p = .ok loc → t'.now.at? loc ≠ some .dir
  inside : ∀ loc, t'.now.resolve p = .ok loc → t'.now.at? loc = some .dir → top <+: loc
  vacant : t' = t ∨ ∀ loc, t'.now.resolve p = .ok loc → t'.now.at? loc = some .dir
    → ∀ name, t'.now.at? (loc ++ [name]) = none

theorem Made.inside_entryOf {p : Path} {err : Option Errno} (h : Made top fs₀ p.parent t t' err)
    {name : Name} (hen : t'.now.entryOf p = .ok (dir, name)) :
  top <+: dir
  := by
  obtain ⟨-, -, hpa, hdr⟩ := entryOf_eq_ok.1 hen
  apply h.inside dir hpa hdr

namespace Trace

variable {fs₀ : FileSystem} {t t' : Trace} {err : Option Errno} {rooted : Bool} {name : Name}
  {names above : List Name} {f : FileSystem → Except Errno FileSystem}

theorem call_eq (h : t.call f = (t', err)) :
  (∃ fs, f t.now = .ok fs ∧ t' = ⟨t.states, fs⟩ ∧ err = none)
    ∨ ∃ e, f t.now = .error e ∧ t' = t ∧ err = some e
  := by
  unfold call at h
  split at h
  next fs hfs =>
    cases h
    left
    use fs
  next e he =>
    cases h
    right
    use e

variable {fs : FileSystem}

theorem untouched_states (h : ∀ fs ∈ t.states, Untouched top fs₀ fs) (hfs : Untouched top fs₀ fs) :
  ∀ fs' ∈ (Trace.mk t.states fs).states, Untouched top fs₀ fs'
  := by
  intro fs' hf
  rcases mem_append.1 hf with hps | hn
  · apply h fs' hps
  · obtain rfl := mem_singleton.1 hn
    apply hfs

theorem untouched_call (h : t.call f = (t', err)) (hu : ∀ fs ∈ t.states, Untouched top fs₀ fs)
    (hf : ∀ fs, f t.now = .ok fs → Untouched top fs₀ fs) :
  ∀ fs ∈ t'.states, Untouched top fs₀ fs
  := by
  rcases call_eq h with ⟨fs, hfs, rfl, -⟩ | ⟨e, -, rfl, -⟩
  · apply untouched_states hu (hf fs hfs)
  · apply hu

/-- Nothing is done for a path that is empty or leads somewhere; otherwise the directories above are
made, and then the directory. -/
theorem mkdirAllNames_eq (h : t.mkdirAllNames rooted names = (t', err)) :
  t' = t ∧ (err = none ↔ t.now.stat ⟨rooted, names.reverse⟩ = .ok .dir)
    ∨ ∃ name above t₁ err₁, names = name :: above
      ∧ (∀ node, t.now.stat ⟨rooted, names.reverse⟩ ≠ .ok node)
      ∧ t.mkdirAllNames rooted above = (t₁, err₁)
      ∧ ((∃ e, err₁ = some e ∧ t' = t₁ ∧ err = some e)
        ∨ (∃ fs, err₁ = none ∧ t₁.now.mkdir ⟨rooted, names.reverse⟩ = .ok fs
          ∧ t' = ⟨t₁.states, fs⟩ ∧ err = none)
        ∨ ∃ e, err₁ = none ∧ t₁.now.mkdir ⟨rooted, names.reverse⟩ = .error e ∧ t' = t₁
          ∧ err = if t₁.now.lstat ⟨rooted, names.reverse⟩ = .ok .dir then none else some e)
  := by
  rw [mkdirAllNames.eq_def] at h
  dsimp only at h
  split at h
  next hs =>
    cases h
    left
    simp [hs]
  next i hs =>
    cases h
    left
    simp [hs]
  next e hs =>
    split at h
    · cases h
      left
      rw [hs]
      simp
    next name above =>
      right
      generalize ha : mkdirAllNames rooted above t = r at h
      obtain ⟨t₁, err₁⟩ := r
      refine ⟨name, above, t₁, err₁, rfl, fun node => by rw [hs]; nofun, ha, ?_⟩
      cases err₁ with
      | some e₁ =>
        cases h
        left
        use e₁
      | none =>
        right
        dsimp only at h
        generalize hca : t₁.call (mkdir ⟨rooted, (name :: above).reverse⟩) = r at h
        obtain ⟨t₂, err₂⟩ := r
        rcases call_eq hca with ⟨fs, hfs, rfl, rfl⟩ | ⟨e₂, he₂, rfl, rfl⟩
        · cases h
          left
          use fs
        · cases h
          right
          use e₂

theorem mkdirAllNames_dotDots (hnm : ∀ n ∈ names, n = dotDot)
    (h : t.mkdirAllNames rooted names = (t', err)) :
  t' = t
  := by
  induction names generalizing t' err with
  | nil =>
    rcases mkdirAllNames_eq h with ⟨ht, -⟩ | ⟨name, above, t₁, err₁, hni, -⟩
    · apply ht
    · cases hni
  | cons name above ih =>
    rcases mkdirAllNames_eq h with ⟨ht, -⟩ | ⟨_, _, t₁, err₁, ⟨⟩, -, ha, hc⟩
    · apply ht
    · have ht₁ : t₁ = t := ih (fun n hn => hnm n (by simp [hn])) ha
      subst ht₁
      rcases hc with ⟨e, -, ht, -⟩ | ⟨fs, -, hm, -⟩ | ⟨e, -, -, ht, -⟩
      · apply ht
      · obtain ⟨dir, last, hen, -⟩ := mkdir_eq_ok hm
        obtain ⟨hla, hpr, -⟩ := entryOf_eq_ok.1 hen
        have hna : last = name := by simpa [eq_comm] using hla
        exact absurd (hna.trans (hnm name (by simp))) hpr.2
      · apply ht

theorem made_refl (hd : ∀ loc, t.now.deepest rooted names = some loc → top <+: loc)
    (hu : ∀ fs ∈ t.states, Untouched top fs₀ fs)
    (hdr : err = none ↔ t.now.stat ⟨rooted, names.reverse⟩ = .ok .dir) :
  Made top fs₀ ⟨rooted, names.reverse⟩ t t err
  := by
  have hs {loc : Loc} (hlo : t.now.resolve ⟨rooted, names.reverse⟩ = .ok loc)
      (hnd : t.now.at? loc = some .dir) : t.now.stat ⟨rooted, names.reverse⟩ = .ok .dir :=
    stat_eq_ok.2 ⟨loc, hlo, hnd⟩
  refine ⟨hu, .refl _, ?_, ?_, ?_, .inl rfl⟩
  · intro her
    apply stat_eq_ok.1 (hdr.1 her)
  · rintro e rfl loc hlo hnd
    cases hdr.2 (hs hlo hnd)
  · intro loc hlo hnd
    apply hd
    apply deepest_of_found
    exact found_eq_some.2 ⟨hlo, by simp [hnd]⟩

theorem entryOf_concat (hna : Path.Proper name) (hdr : fs.resolve ⟨rooted, names⟩ = .ok dir)
    (hnd : fs.at? dir = some .dir) :
  fs.entryOf ⟨rooted, names ++ [name]⟩ = .ok (dir, name)
  := by
  apply entryOf_eq_ok.2
  refine ⟨by simp, hna, ?_, hnd⟩
  rw [Path.parent, dropLast_concat]
  apply hdr

variable {t₁ : Trace}

theorem made_mkdir (hma : Made top fs₀ ⟨rooted, names⟩ t t₁ none) (hna : Path.Proper name)
    (hdr : t₁.now.resolve ⟨rooted, names⟩ = .ok dir) (hnd : t₁.now.at? dir = some .dir)
    (hm : t₁.now.mkdir ⟨rooted, names ++ [name]⟩ = .ok fs) :
  Made top fs₀ ⟨rooted, names ++ [name]⟩ t ⟨t₁.states, fs⟩ none
  := by
  obtain ⟨dir', last, hen, hdi, hfr, rfl⟩ := mkdir_eq_ok hm
  rw [entryOf_concat hna hdr hnd] at hen
  cases hen
  have hin := hma.inside dir hdr hnd
  set fs := t₁.now.add dir name .dir hdi hfr (by simp) with hfs
  have hex : t₁.now.Extends fs := extends_add
  have hnw : fs.at? (dir ++ [name]) = some .dir := by
    rw [at?_add, if_pos rfl]
  have hpt : fs.resolve ⟨rooted, names ++ [name]⟩ = .ok (dir ++ [name]) := by
    apply resolve_concat (resolve_extends hex hdr hnd) (hex.nodes _ _ hnd) hna
    simp [hnw]
  constructor
  · apply untouched_states hma.untouched
    apply (hma.untouched t₁.now (by simp [states])).add hin
    simp
  · apply hma.extended.trans hex
  · intro _
    exact ⟨_, hpt, hnw⟩
  · nofun
  · intro loc hlo _
    cases hpt.symm.trans hlo
    apply hin.trans (prefix_append _ _)
  · right
    intro loc hlo _ name'
    cases hpt.symm.trans hlo
    rw [at?_add, if_neg (by simp)]
    by_contra hso
    have hpa := t₁.now.closed _ _ (isSome_iff_ne_none.2 hso)
    rw [← at?, hfr] at hpa
    cases hpa

theorem eq_of_mkdir_error (hma : Made top fs₀ ⟨rooted, names⟩ t t₁ none) (hna : Path.Proper name)
    (hdr : t₁.now.resolve ⟨rooted, names⟩ = .ok dir) (hnd : t₁.now.at? dir = some .dir)
    (hm : t₁.now.mkdir ⟨rooted, names ++ [name]⟩ = .error e) :
  t₁ = t
  := by
  apply hma.vacant.resolve_right
  intro hv
  rw [mkdir, entryOf_concat hna hdr hnd] at hm
  simp only [create, dif_pos hnd, dif_pos (hv dir hdr hnd name)] at hm
  cases hm

variable {p : Path}

theorem lstat_ne_dir (h : ∀ node, fs.stat p ≠ .ok node) :
  fs.lstat p ≠ .ok .dir
  := by
  intro hdr
  unfold lstat at hdr
  split at hdr
  · apply h _ hdr
  · cases hdr
  next dir name hen =>
    obtain ⟨hla, hna, hpa, hnd⟩ := entryOf_eq_ok.1 hen
    obtain ⟨names, hnm⟩ := getLast?_eq_some_iff.1 hla
    obtain ⟨rooted, _⟩ := p
    obtain rfl : _ = names ++ [name] := hnm
    rw [Path.parent, dropLast_concat] at hpa
    split at hdr
    · cases hdr
    next node hn =>
      apply h node
      apply stat_eq_ok.2
      use dir ++ [name], resolve_concat hpa hnd hna (by simp [hn, ok.inj hdr])

theorem mkdirAllNames_confined (hti : Path.Tidy names)
    (hd : ∀ loc, t.now.deepest rooted names = some loc → top <+: loc)
    (hu : ∀ fs ∈ t.states, Untouched top fs₀ fs) (h : t.mkdirAllNames rooted names = (t', err)) :
  Made top fs₀ ⟨rooted, names.reverse⟩ t t' err
  := by
  induction names generalizing t' err with
  | nil =>
    rcases mkdirAllNames_eq h with ⟨rfl, hdr⟩ | ⟨name, above, t₁, err₁, hni, -⟩
    · apply made_refl hd hu hdr
    · cases hni
  | cons name above ih =>
    rcases mkdirAllNames_eq h with ⟨rfl, hdr⟩ | ⟨_, _, t₁, err₁, ⟨⟩, hs, ha, hc⟩
    · apply made_refl hd hu hdr
    · have hnt : t.now.found ⟨rooted, (name :: above).reverse⟩ = none := by
        rw [eq_none_iff_forall_not_mem]
        intro loc hlo
        obtain ⟨hre, hso⟩ := found_eq_some.1 hlo
        obtain ⟨node, hnd⟩ := isSome_iff_exists.1 hso
        exact hs node (stat_eq_ok.2 ⟨loc, hre, hnd⟩)
      have hma := ih hti.tail (by rwa [deepest_of_not_found hnt] at hd) ha
      rw [reverse_cons] at hc ⊢
      rcases hc with ⟨e, rfl, rfl, rfl⟩ | ⟨fs, rfl, hm, rfl, rfl⟩
        | ⟨e, rfl, hm, rfl, rfl⟩
      · -- The directory above is none, so the path leads nowhere.
        have hno {loc : Loc} (hlo : t'.now.resolve ⟨rooted, above.reverse ++ [name]⟩ = .ok loc) :
            False := by
          obtain ⟨dir, hdr, hnd⟩ := resolve_dir_of_concat hlo
          exact hma.not_dir e rfl dir hdr hnd
        refine ⟨hma.untouched, hma.extended, nofun, ?_, ?_, .inr ?_⟩
        · intro _ _ loc hlo
          exact (hno hlo).elim
        all_goals
          intro loc hlo
          exact (hno hlo).elim
      · obtain ⟨dir, hdr, hnd⟩ := hma.dir rfl
        have hna : Path.Proper name := by
          obtain ⟨dir', last, hen, -⟩ := mkdir_eq_ok hm
          obtain ⟨hla, hpr, -⟩ := entryOf_eq_ok.1 hen
          rw [getLast?_concat] at hla
          rwa [some.inj hla]
        apply made_mkdir hma hna hdr hnd hm
      · have ht₁ : t' = t := by
          rcases hti with ⟨rfl, hdo⟩ | ⟨hna, -⟩
          · apply mkdirAllNames_dotDots hdo ha
          · obtain ⟨dir, hdr, hnd⟩ := hma.dir rfl
            apply eq_of_mkdir_error hma hna hdr hnd hm
        subst ht₁
        rw [← reverse_cons]
        apply made_refl hd hu
        simp only [hs, iff_false]
        rw [if_neg (lstat_ne_dir hs)]
        nofun

theorem mkdirAll_confined (hti : Path.Tidy p.names.reverse)
    (hd : ∀ loc ∈ t.now.deepest p.rooted p.names.reverse, top <+: loc)
    (hu : ∀ fs ∈ t.states, Untouched top fs₀ fs) (h : t.mkdirAll p = (t', err)) :
  Made top fs₀ p t t' err
  := by
  have hma := mkdirAllNames_confined hti hd hu h
  rwa [reverse_reverse] at hma

theorem mkdirAll_of_found (hp : t.now.found p ≠ none) (h : t.mkdirAll p = (t', err)) :
  t' = t
  := by
  obtain ⟨loc, hlo⟩ := ne_none_iff_exists'.1 hp
  obtain ⟨hre, hso⟩ := found_eq_some.1 hlo
  obtain ⟨node, hnd⟩ := isSome_iff_exists.1 hso
  rcases mkdirAllNames_eq h with ⟨ht, -⟩ | ⟨_, _, _, _, -, hs, -⟩
  · apply ht
  · rw [reverse_reverse] at hs
    exact absurd (stat_eq_ok.2 ⟨loc, hre, hnd⟩) (hs node)

end Trace

end Files
