import Periapsis.Files.Beneath
import Periapsis.Image.Containment
import Periapsis.Image.Layering

/-!
# What an extraction makes

Entries that fit are extracted to an empty directory without an error, to what they come to one
after the other (`extractLayer_regular`).
-/

namespace Periapsis.Image

open Files FileSystem List Function Files.Tree Trace Path

structure Destination where
  dst : List Char
  host : FileSystem
  top : Loc
  named : (parse dst).clean.names ≠ []
  emptyDir : EmptyDir host (parse dst).clean top

namespace Destination

def path (dest : Destination) : Path :=
  (parse dest.dst).clean

def extract (dest : Destination) (headers : List Header) : Trace × Option ExtractError :=
  extractLayer dest.dst true headers (.start dest.host)

def tree (dest : Destination) (headers : List Header) : ImageTree :=
  (dest.extract headers).1.now.treeAt dest.top

structure Holds (dest : Destination) (fs : FileSystem) (tree : ImageTree) : Prop where
  extended : dest.host.Extends fs
  tree_eq : fs.treeAt dest.top = tree

variable {dest : Destination} {t : Trace} {tree : ImageTree} {header : Header} {d p : List Name}
  {n : Name}

theorem Holds.start :
  dest.Holds (start dest.host).now bare
  := by
  refine ⟨Extends.refl _, ?_⟩
  funext p
  cases p with
  | nil => exact treeAt_root dest.emptyDir.dir
  | cons n p =>
    apply treeAt_eq_none.2
    apply dest.emptyDir.empty
    exact ⟨prefix_append _ _, by simp⟩

theorem Holds.reaches (h : dest.Holds fs tree) :
  fs.Reaches dest.path dest.top
  := by
  apply Reaches.extends _ h.extended
  exact ⟨dest.emptyDir.resolved, dest.emptyDir.dir⟩

theorem Holds.closed (h : dest.Holds fs tree) :
  tree.Closed
  := by
  rw [← h.tree_eq]
  apply closed_treeAt

theorem names_ne_nil :
  (parse dest.dst).names ≠ []
  := by
  intro hni
  apply dest.named
  rw [clean, hni]
  rfl

theorem target_eq (hrl : (parse header.name).rooted = false)
    (hproper : ∀ n ∈ entryPath header, Path.Proper n) :
  target dest.dst header.name
    = .ok (if entryPath header = [] then none else some (dest.path.below (entryPath header)))
  := by
  have hj : (parse dest.dst).join (parse header.name).clean
      = dest.path.below (entryPath header) := by
    rw [join_eq_below names_ne_nil] <;> rw [relative_of_proper hproper]
    · rfl
    · apply hproper
  have hro : (parse header.name).clean.rooted = false := hrl
  have hd : (parse dest.dst).clean = dest.path := rfl
  unfold target
  dsimp only
  rw [hro, if_neg (by simp), hj, hd]
  by_cases hp : entryPath header = []
  · rw [if_pos hp, hp, below_nil, if_neg fun h => h.1 rfl, if_pos rfl]
  · have hte : (dest.path.below (entryPath header)).text
        = dest.path.text ++ '/' :: ['/'].intercalate (entryPath header) :=
      text_append dest.named hp
    have hne : (dest.path.below (entryPath header)).text ≠ dest.path.text := by
      rw [hte]
      simp
    rw [if_neg hp, if_neg, if_neg hne]
    rintro ⟨-, hno⟩
    apply hno
    rw [hte]
    exact ⟨['/'].intercalate (entryPath header), by simp⟩

theorem Holds.mkdirAll (h : dest.Holds t.now tree) (hproper : ∀ m ∈ p, Path.Proper m)
    (hblocks : tree.blocks p = false) :
  ∃ t', t.mkdirAll (dest.path.below p) = (t', none) ∧ dest.Holds t'.now (tree.put p .dir)
  := by
  rw [← h.tree_eq] at hblocks
  obtain ⟨t', hmk, hex, htr⟩ := mkdirAll_below h.reaches hproper hblocks
  refine ⟨t', hmk, h.extended.trans hex, ?_⟩
  rw [htr, h.tree_eq]

theorem Holds.call (h : dest.Holds t.now tree) {k : Option (Kind Inode)}
    {f : FileSystem → Except Errno FileSystem} (hf : ∃ fs, f t.now = .ok fs ∧ t.now.Extends fs
      ∧ fs.treeAt dest.top = update (t.now.treeAt dest.top) p k) :
  ∃ t', t.call f = (t', none) ∧ dest.Holds t'.now (update tree p k)
  := by
  obtain ⟨fs, hfs, hex, htr⟩ := hf
  refine ⟨⟨t.states, fs⟩, ?_, h.extended.trans hex, ?_⟩
  · rw [Trace.call, hfs]
  · rw [htr, h.tree_eq]

theorem Holds.remove (h : dest.Holds t.now tree) (hproper : ∀ m ∈ d ++ [n], Path.Proper m)
    (hdi : tree d = some .dir) (hno : tree (d ++ [n]) ≠ some .dir) :
  dest.Holds (t.call (remove (dest.path.below (d ++ [n])))).1.now
    (update tree (d ++ [n]) none)
  := by
  rw [← h.tree_eq] at hdi hno ⊢
  cases hn : t.now.treeAt dest.top (d ++ [n]) with
  | none =>
    obtain ⟨e, he⟩ := remove_below_free h.reaches hproper hdi hn
    rw [Trace.call, he, ← hn, Function.update_eq_self]
    exact ⟨h.extended, rfl⟩
  | some k =>
    cases k with
    | dir => exact absurd hn hno
    | leaf inode =>
      obtain ⟨fs, hfs, htr, hex⟩ := remove_below h.reaches hproper hdi hn
      rw [Trace.call, hfs]
      refine ⟨hex _ ?_ h.extended, htr⟩
      apply dest.emptyDir.empty
      rw [← append_assoc]
      apply inside_concat (prefix_append _ _)

section Entry

variable (h : dest.Holds t.now tree) (hproper : ∀ m ∈ d ++ [n], Path.Proper m)
  (hblocks : tree.blocks d = false)

include h hproper hblocks

theorem extractReg (hfr : tree (d ++ [n]) = none) (hrg : header.typeflag = .reg)
    (hc : header.complete) :
  ∃ t', extractTo dest.dst header (dest.path.below (d ++ [n])) t = (t', none)
    ∧ dest.Holds t'.now (tree.put (d ++ [n]) (.leaf (.file header.body)))
  := by
  obtain ⟨t₁, hmk, h₁⟩ := h.mkdirAll (fun m hm => hproper m (by simp [hm])) hblocks
  have hfe : tree.put d .dir (d ++ [n]) = none := by
    rw [put_dir_of_beneath h.closed (prefix_append _ _) (by simp), hfr]
  obtain ⟨t₂, hw, h₂⟩ := h₁.call (write_below h₁.reaches hproper
    (by rw [h₁.tree_eq, put_self]) (by rw [h₁.tree_eq, hfe]) header.body)
  rw [update_put_dir h.closed (by simp [hfr])] at h₂
  refine ⟨t₂, ?_, h₂⟩
  unfold extractTo
  rw [hrg, parent_below]
  rw [hmk]
  dsimp only
  rw [hw, hc]
  rfl

section

variable (hno : tree (d ++ [n]) ≠ some .dir)
include hno

theorem makeRoom :
  ∃ t₁ t₂ err, t.mkdirAll (dest.path.below d) = (t₁, none)
    ∧ t₁.call (remove (dest.path.below (d ++ [n]))) = (t₂, err)
    ∧ dest.Holds t₂.now (update (tree.put d .dir) (d ++ [n]) none)
  := by
  obtain ⟨t₁, hmk, h₁⟩ := h.mkdirAll (fun m hm => hproper m (by simp [hm])) hblocks
  refine ⟨t₁, _, _, hmk, rfl, h₁.remove hproper put_self ?_⟩
  rw [put_dir_of_beneath h.closed (prefix_append _ _) (by simp)]
  apply hno

theorem extractSymlink (hsy : header.typeflag = .symlink) (hl : header.linkname ≠ []) :
  ∃ t', extractTo dest.dst header (dest.path.below (d ++ [n])) t = (t', none)
    ∧ dest.Holds t'.now (tree.put (d ++ [n]) (.leaf (.link header.linkname)))
  := by
  obtain ⟨t₁, t₂, err, hmk, hre, h₂⟩ := makeRoom h hproper hblocks hno
  obtain ⟨t₃, hca, h₃⟩ := h₂.call (symlink_below h₂.reaches hproper
    (by rw [h₂.tree_eq, update_of_ne (by simp), put_self])
    (by rw [h₂.tree_eq, update_self]) hl)
  rw [update_idem, update_put_dir h.closed hno] at h₃
  refine ⟨t₃, ?_, h₃⟩
  unfold extractTo
  rw [hsy, parent_below]
  dsimp only
  rw [hmk, hre, hca]
  rfl

theorem extractLink (hli : header.typeflag = .link) (hs : ∀ m ∈ linkPath header, Path.Proper m)
    (hne : linkPath header ≠ d ++ [n]) (hle : tree (linkPath header) = some (.leaf inode)) :
  ∃ t', extractTo dest.dst header (dest.path.below (d ++ [n])) t = (t', none)
    ∧ dest.Holds t'.now (tree.put (d ++ [n]) (.leaf inode))
  := by
  obtain ⟨t₁, t₂, err, hmk, hre, h₂⟩ := makeRoom h hproper hblocks hno
  obtain ⟨t₃, hca, h₃⟩ := h₂.call (link_below h₂.reaches hproper
    (by rw [h₂.tree_eq, update_of_ne (by simp), put_self])
    (by rw [h₂.tree_eq, update_self]) hs
    (by rw [h₂.tree_eq, update_of_ne hne, put_dir_of_leaf h.closed hblocks hle]))
  rw [update_idem, update_put_dir h.closed hno] at h₃
  refine ⟨t₃, ?_, h₃⟩
  unfold extractTo
  rw [hli, parent_below, join_eq_below names_ne_nil hs]
  dsimp only
  rw [hmk, hre]
  rw [← path, ← linkPath, hca]
  rfl

end

end Entry

theorem Holds.extractEntry (h : dest.Holds t.now tree) (hfi : Fits tree header) :
  ∃ t', Image.extractEntry dest.dst header t = (t', none)
    ∧ dest.Holds t'.now (applyEntry tree header)
  := by
  unfold Image.extractEntry applyEntry
  rw [target_eq hfi.relative hfi.proper]
  by_cases hp : entryPath header = []
  · rw [if_pos hp, if_pos hp]
    exact ⟨t, rfl, h⟩
  · rw [if_neg hp, if_neg hp]
    obtain ⟨d, n, hdn⟩ : ∃ d n, entryPath header = d ++ [n] :=
      ⟨_, _, (dropLast_append_getLast hp).symm⟩
    have hproper := hfi.proper
    have hblocks := hfi.above
    rw [hdn] at hproper
    rw [hdn, dropLast_concat] at hblocks
    unfold entryKind
    cases ht : header.typeflag with
    | dir =>
      obtain ⟨t', hmk, h'⟩ := h.mkdirAll hfi.proper (hfi.dir ht)
      refine ⟨t', ?_, h'⟩
      unfold extractTo
      rw [ht]
      dsimp only
      rw [hmk]
      rfl
    | reg =>
      obtain ⟨hfr, hc⟩ := hfi.reg ht
      rw [hdn] at hfr ⊢
      apply extractReg h hproper hblocks hfr ht hc
    | symlink =>
      obtain ⟨hno, hl⟩ := hfi.symlink ht
      rw [hdn] at hno ⊢
      apply extractSymlink h hproper hblocks hno ht hl
    | link =>
      obtain ⟨hno, hs, hne, -, ha⟩ := hfi.link ht
      rw [hdn] at hno hne ⊢
      cases hk : tree (linkPath header) with
      | none => simp [hk] at ha
      | some k =>
        cases k with
        | dir => simp [hk, Kind.isLeaf] at ha
        | leaf inode => apply extractLink h hproper hblocks hno ht hs hne hk
    | other => exact absurd ht hfi.known

theorem Holds.extractLayer (h : dest.Holds t.now tree) (hr : Regular tree headers) :
  ∃ t', Image.extractLayer dest.dst true headers t = (t', none)
    ∧ dest.Holds t'.now (headers.foldl applyEntry tree)
  := by
  induction headers generalizing t tree with
  | nil => exact ⟨t, rfl, h⟩
  | cons header headers ih =>
    obtain ⟨t₁, hen, h₁⟩ := h.extractEntry hr.1
    obtain ⟨t₂, hla, h₂⟩ := ih h₁ hr.2
    refine ⟨t₂, ?_, h₂⟩
    rw [Image.extractLayer, hen]
    apply hla

end Destination

theorem extractLayer_regular (dest : Destination) (hr : Regular bare headers) :
  (dest.extract headers).2 = none ∧ dest.tree headers = layerTree headers
  := by
  have hst : dest.Holds (start dest.host).now bare := .start
  obtain ⟨t, hla, h⟩ := hst.extractLayer hr
  rw [Destination.tree, Destination.extract, hla]
  exact ⟨rfl, h.tree_eq⟩

end Periapsis.Image
