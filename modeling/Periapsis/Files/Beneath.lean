import Periapsis.Files.Confined
import Periapsis.Files.Tree

/-!
# The tree beneath a directory

What stands beneath a directory of a file system is a tree.
-/

namespace Files

open List Option Function Files.Tree

namespace FileSystem

def kindOf (fs : FileSystem) : Node → Option (Kind Inode)
  | .dir => some .dir
  | .leaf i => fs.inodes[i]?.map .leaf

def treeAt (fs : FileSystem) (top : Loc) : Tree Name Inode := fun p =>
  (fs.at? (top ++ p)).bind fs.kindOf

structure Reaches (fs : FileSystem) (base : Path) (top : Loc) : Prop where
  resolved : fs.resolve base = .ok top
  dir : fs.at? top = some .dir

variable {fs fs' : FileSystem} {base : Path} {top : Loc} {p d : List Name} {n : Name}

theorem treeAt_eq_none :
  fs.treeAt top p = none ↔ fs.at? (top ++ p) = none
  := by
  unfold treeAt
  cases hn : fs.at? (top ++ p) with
  | none => simp
  | some node =>
    cases node with
    | dir => simp [kindOf]
    | leaf i => simp [kindOf, fs.allocated _ i hn]

theorem treeAt_eq_dir :
  fs.treeAt top p = some .dir ↔ fs.at? (top ++ p) = some .dir
  := by
  unfold treeAt
  cases hn : fs.at? (top ++ p) with
  | none => simp
  | some node =>
    cases node with
    | _ => simp [kindOf]

variable {inode : Inode}

theorem treeAt_eq_leaf :
  fs.treeAt top p = some (.leaf inode)
    ↔ ∃ i, fs.at? (top ++ p) = some (.leaf i) ∧ fs.inodes[i]? = some inode
  := by
  unfold treeAt
  cases hn : fs.at? (top ++ p) with
  | none => simp
  | some node =>
    cases node with
    | _ => simp [kindOf]

theorem closed_treeAt :
  (fs.treeAt top).Closed
  := by
  intro p n hso
  apply treeAt_eq_dir.2
  apply fs.closed (top ++ p) n
  rw [append_assoc, isSome_iff_ne_none]
  exact fun hno => isSome_iff_ne_none.1 hso (treeAt_eq_none.2 hno)

theorem exists_leaf (h : fs.at? (top ++ p) = some (.leaf i)) :
  ∃ inode, fs.treeAt top p = some (.leaf inode)
  := ⟨_, treeAt_eq_leaf.2 ⟨i, h, getElem?_eq_getElem (fs.allocated _ i h)⟩⟩

theorem treeAt_root (h : fs.at? top = some .dir) :
  fs.treeAt top [] = some .dir
  := by
  apply treeAt_eq_dir.2
  rw [append_nil, h]

theorem eq_of_resolve_below (hbase : fs.Reaches base top) (hproper : ∀ n ∈ p, Path.Proper n)
    (hb : (fs.treeAt top).blocks p = false) (h : fs.resolve (base.below p) = .ok loc) :
  loc = top ++ p
  := by
  induction p using reverseRecOn generalizing loc with
  | nil =>
    rw [Path.below, append_nil] at h
    rw [append_nil]
    exact Except.ok.inj (h.symm.trans hbase.resolved)
  | append_singleton p n ih =>
    rw [Path.below, ← append_assoc] at h
    obtain ⟨dir, hdir, hn⟩ := resolve_dir_of_concat h
    obtain rfl := ih (fun m hm => hproper m (by simp [hm]))
      (not_blocks_above (prefix_append _ _) hb) hdir
    have hco := resolve_concat hdir hn (hproper n (by simp)) (by
      intro i hi
      rw [append_assoc] at hi
      obtain ⟨inode, hin⟩ := exists_leaf hi
      rcases cases_of_not_blocks hb with hno | hd
      · cases hin.symm.trans hno
      · cases hin.symm.trans hd)
    rw [← append_assoc]
    exact Except.ok.inj (h.symm.trans hco)

theorem resolve_below (hbase : fs.Reaches base top) (hproper : ∀ n ∈ p, Path.Proper n)
    (hdir : fs.treeAt top p = some .dir) :
  fs.resolve (base.below p) = .ok (top ++ p)
  := by
  induction p using reverseRecOn with
  | nil =>
    rw [Path.below, append_nil, append_nil]
    apply hbase.resolved
  | append_singleton p n ih =>
    have ha : fs.treeAt top p = some .dir := closed_treeAt p n (by simp [hdir])
    have hr := ih (fun m hm => hproper m (by simp [hm])) ha
    rw [Path.below, ← append_assoc, ← append_assoc]
    apply resolve_concat hr (treeAt_eq_dir.1 ha) (hproper n (by simp))
    intro i hi
    rw [append_assoc, treeAt_eq_dir.1 hdir] at hi
    cases hi

theorem resolve_below_free (hbase : fs.Reaches base top) (hproper : ∀ m ∈ d ++ [n], Path.Proper m)
    (hdir : fs.treeAt top d = some .dir) (hf : fs.treeAt top (d ++ [n]) = none) :
  fs.resolve (base.below (d ++ [n])) = .ok (top ++ (d ++ [n]))
  := by
  have hr := resolve_below hbase (fun m hm => hproper m (by simp [hm])) hdir
  rw [Path.below, ← append_assoc, ← append_assoc]
  apply resolve_concat hr (treeAt_eq_dir.1 hdir) (hproper n (by simp))
  intro i hi
  rw [append_assoc, treeAt_eq_none.1 hf] at hi
  cases hi

theorem entryOf_below (hbase : fs.Reaches base top) (hproper : ∀ m ∈ d ++ [n], Path.Proper m)
    (hdir : fs.treeAt top d = some .dir) :
  fs.entryOf (base.below (d ++ [n])) = .ok (top ++ d, n)
  := by
  apply entryOf_eq_ok.2
  refine ⟨by simp [Path.below], hproper n (by simp), ?_, treeAt_eq_dir.1 hdir⟩
  rw [Path.parent_below]
  apply resolve_below hbase (fun m hm => hproper m (by simp [hm])) hdir

theorem Reaches.extends (hbase : fs.Reaches base top) (h : fs.Extends fs') :
  fs'.Reaches base top
  := ⟨resolve_extends h hbase.resolved hbase.dir, h.nodes _ _ hbase.dir⟩

theorem extends_allocate :
  fs.Extends (fs.allocate inode)
  := ⟨fun _ _ h => h, fun _ hi => getElem?_append_left hi, rfl⟩

theorem treeAt_allocate :
  (fs.allocate inode).treeAt top = fs.treeAt top
  := by
  funext p
  unfold treeAt
  cases hn : fs.at? (top ++ p) with
  | none =>
    have hnd : (fs.allocate inode).at? (top ++ p) = none := hn
    rw [hnd]
    rfl
  | some node =>
    have hnd : (fs.allocate inode).at? (top ++ p) = some node := hn
    rw [hnd]
    cases node with
    | dir => rfl
    | leaf i =>
      rw [bind_some, bind_some, kindOf, kindOf,
        extends_allocate.inodes i (fs.allocated _ i hn)]

theorem treeAt_add {hdir : fs.at? (top ++ d) = some .dir} {hf : fs.at? (top ++ d ++ [n]) = none}
    {hn : ∀ i, node = .leaf i → i < fs.inodes.length} :
  (fs.add (top ++ d) n node hdir hf hn).treeAt top
    = Function.update (fs.treeAt top) (d ++ [n]) (fs.kindOf node)
  := by
  funext p
  unfold treeAt
  rw [at?_add]
  by_cases hp : p = d ++ [n]
  · rw [hp, if_pos (append_assoc _ _ _).symm, update_self]
    rfl
  · rw [update_of_ne hp, if_neg]
    · rfl
    · rw [append_assoc]
      exact fun heq => hp (append_cancel_left heq)

theorem treeAt_erase {hlo : top ++ p ≠ []} {hem : ∀ name, fs.at? (top ++ p ++ [name]) = none} :
  (fs.erase (top ++ p) hlo hem).treeAt top = Function.update (fs.treeAt top) p none
  := by
  funext q
  unfold treeAt
  rw [at?_erase]
  by_cases hq : q = p
  · rw [hq, if_pos rfl, update_self]
    rfl
  · rw [update_of_ne hq, if_neg fun heq => hq (append_cancel_left heq)]
    rfl

variable {i : Nat} {old new : List UInt8}

theorem link?_update (h : ∀ inode ∈ fs.inodes[i]?, ∃ old, inode = .file old) (j : Nat) :
  (fs.update i (.file new)).link? j = fs.link? j
  := by
  unfold link? update
  rw [getElem?_set]
  split_ifs with hij hlt
  · obtain ⟨old, ho⟩ := h _ (getElem?_eq_getElem hlt)
    rw [← hij, getElem?_eq_getElem hlt, ho]
  · rw [← hij, getElem?_eq_none (by omega)]
  · rfl

theorem resolve_update (h : ∀ inode ∈ fs.inodes[i]?, ∃ old, inode = .file old) (p : Path) :
  (fs.update i (.file new)).resolve p = fs.resolve p
  := by
  apply resolve_congr
  · exact fun _ => rfl
  · exact link?_update h
  · rfl

theorem treeAt_update (hi : i < fs.inodes.length) :
  (fs.update i (.file new)).treeAt top q
    = if fs.at? (top ++ q) = some (.leaf i) then some (.leaf (.file new)) else fs.treeAt top q
  := by
  change ((fs.at? (top ++ q)).bind fun node => (fs.update i (.file new)).kindOf node) = _
  unfold treeAt
  cases fs.at? (top ++ q) with
  | none => rfl
  | some node =>
    cases node with
    | dir => rfl
    | leaf j =>
      by_cases hij : i = j
      · simp [kindOf, update, hij ▸ hi, hij]
      · simp [kindOf, update, getElem?_set_ne hij, Ne.symm hij]

theorem write_below_file (hbase : fs.Reaches base top) (hproper : ∀ m ∈ d ++ [n], Path.Proper m)
    (hdir : fs.treeAt top d = some .dir) (hi : fs.at? (top ++ (d ++ [n])) = some (.leaf i))
    (ho : fs.inodes[i]? = some (.file old)) :
  fs.write (base.below (d ++ [n])) data
    = .ok (fs.update i (.file (data ++ old.drop data.length)))
  := by
  have hr : fs.resolve (base.below (d ++ [n])) = .ok (top ++ (d ++ [n])) := by
    have hr := resolve_below hbase (fun m hm => hproper m (by simp [hm])) hdir
    rw [Path.below, ← append_assoc, ← append_assoc]
    apply resolve_concat hr (treeAt_eq_dir.1 hdir) (hproper n (by simp))
    intro j hj
    rw [append_assoc, hi] at hj
    cases hj
    rw [link?, ho]
  unfold write
  rw [hr]
  dsimp only
  rw [hi]
  dsimp only
  rw [ho]
  rfl

theorem extends_createInode {dir : Loc} {name : Name}
    (h : fs.createInode dir name inode = .ok fs') :
  fs.Extends fs'
  := by
  unfold createInode create at h
  split_ifs at h
  cases h
  exact extends_allocate.trans extends_add

theorem write_keeps_link {path : Path} {target : List Char} (h : fs.write path data = .ok fs')
    (hq : fs.treeAt top q = some (.leaf (.link target))) :
  fs'.treeAt top q = some (.leaf (.link target))
  := by
  obtain ⟨i, hi, hl⟩ := treeAt_eq_leaf.1 hq
  apply treeAt_eq_leaf.2
  use i
  unfold write at h
  split at h
  · cases h
  · split at h
    · split at h
      · cases h
      · have hex := extends_createInode h
        exact ⟨hex.nodes _ _ hi, (hex.inodes i (fs.allocated _ i hi)).trans hl⟩
    · cases h
    next j _ =>
      split at h
      next inode hj =>
        cases h
        refine ⟨hi, ?_⟩
        unfold update
        rw [getElem?_set]
        split_ifs with hij hlt
        · subst hij
          cases hj.symm.trans hl
          rfl
        · exact absurd (fs.allocated _ i hi) (hij ▸ hlt)
        · exact hl
      · cases h

theorem leaf_of_link (hbase : fs.Reaches base top) (hs : ∀ m ∈ s, Path.Proper m) (hne : s ≠ [])
    (hb : (fs.treeAt top).blocks s.dropLast = false) (h : fs.link (base.below s) path = .ok fs') :
  ∃ inode, fs.treeAt top s = some (.leaf inode)
  := by
  obtain ⟨d, n, rfl⟩ : ∃ d n, s = d ++ [n] := ⟨_, _, (dropLast_append_getLast hne).symm⟩
  rw [dropLast_concat] at hb
  unfold link at h
  split at h
  · cases h
  next dir name he =>
    obtain ⟨hla, -, hr, -⟩ := entryOf_eq_ok.1 he
    rw [Path.parent_below] at hr
    obtain rfl := eq_of_resolve_below hbase (fun m hm => hs m (by simp [hm])) hb hr
    obtain rfl : n = name := by simpa [Path.below] using hla
    split at h
    · cases h
    · cases h
    next i hi =>
      rw [append_assoc] at hi
      exact exists_leaf hi

theorem create_below {node : Node} {hn : ∀ i, node = .leaf i → i < fs.inodes.length}
    (hdir : fs.treeAt top d = some .dir) (hf : fs.treeAt top (d ++ [n]) = none) :
  ∃ fs', fs.create (top ++ d) n node hn = .ok fs' ∧ fs.Extends fs'
    ∧ fs'.treeAt top = Function.update (fs.treeAt top) (d ++ [n]) (fs.kindOf node)
  := by
  have hfr : fs.at? (top ++ d ++ [n]) = none := by
    rw [append_assoc, treeAt_eq_none.1 hf]
  refine ⟨fs.add (top ++ d) n node (treeAt_eq_dir.1 hdir) hfr hn, ?_, extends_add, treeAt_add⟩
  unfold create
  rw [dif_pos (treeAt_eq_dir.1 hdir), dif_pos hfr]

theorem createInode_below (hdir : fs.treeAt top d = some .dir)
    (hf : fs.treeAt top (d ++ [n]) = none) :
  ∃ fs', fs.createInode (top ++ d) n inode = .ok fs' ∧ fs.Extends fs'
    ∧ fs'.treeAt top = Function.update (fs.treeAt top) (d ++ [n]) (some (.leaf inode))
  := by
  have ht : (fs.allocate inode).treeAt top = fs.treeAt top := treeAt_allocate
  rw [← ht] at hdir hf ⊢
  obtain ⟨fs', hc, hex, ht⟩ := create_below hdir hf
  refine ⟨fs', hc, extends_allocate.trans hex, ?_⟩
  rw [ht]
  simp [kindOf, allocate]

section Calls

variable (hbase : fs.Reaches base top) (hproper : ∀ m ∈ d ++ [n], Path.Proper m)
  (hdir : fs.treeAt top d = some .dir)

include hbase hproper hdir

section

variable (hf : fs.treeAt top (d ++ [n]) = none)
include hf

theorem mkdir_below :
  ∃ fs', fs.mkdir (base.below (d ++ [n])) = .ok fs' ∧ fs.Extends fs'
    ∧ fs'.treeAt top = Function.update (fs.treeAt top) (d ++ [n]) (some .dir)
  := by
  unfold mkdir
  rw [entryOf_below hbase hproper hdir]
  apply create_below hdir hf

theorem write_below (data : List UInt8) :
  ∃ fs', fs.write (base.below (d ++ [n])) data = .ok fs' ∧ fs.Extends fs'
    ∧ fs'.treeAt top = Function.update (fs.treeAt top) (d ++ [n]) (some (.leaf (.file data)))
  := by
  unfold write
  rw [resolve_below_free hbase hproper hdir hf]
  dsimp only
  rw [treeAt_eq_none.1 hf, ← append_assoc, getLast?_concat, dropLast_concat]
  apply createInode_below hdir hf

theorem symlink_below {target : List Char} (hta : target ≠ []) :
  ∃ fs', fs.symlink target (base.below (d ++ [n])) = .ok fs' ∧ fs.Extends fs'
    ∧ fs'.treeAt top = Function.update (fs.treeAt top) (d ++ [n]) (some (.leaf (.link target)))
  := by
  unfold symlink
  rw [if_neg hta, entryOf_below hbase hproper hdir]
  apply createInode_below hdir hf

theorem link_below (hs : ∀ m ∈ s, Path.Proper m) (hl : fs.treeAt top s = some (.leaf inode)) :
  ∃ fs', fs.link (base.below s) (base.below (d ++ [n])) = .ok fs' ∧ fs.Extends fs'
    ∧ fs'.treeAt top = Function.update (fs.treeAt top) (d ++ [n]) (some (.leaf inode))
  := by
  induction s using reverseRecOn with
  | nil =>
    rw [treeAt_root hbase.dir] at hl
    cases hl
  | append_singleton s m =>
    have ha : fs.treeAt top s = some .dir := closed_treeAt s m (by simp [hl])
    obtain ⟨i, hi, hin⟩ := treeAt_eq_leaf.1 hl
    unfold link
    rw [entryOf_below hbase hs ha]
    dsimp only
    split
    next hno =>
      rw [append_assoc, hi] at hno
      cases hno
    next hd =>
      rw [append_assoc, hi] at hd
      cases hd
    next j hj =>
      rw [append_assoc, hi] at hj
      cases hj
      rw [entryOf_below hbase hproper hdir]
      have hal : ∀ j, Node.leaf i = .leaf j → j < fs.inodes.length := by
        rintro _ ⟨⟩
        exact fs.allocated _ i hi
      obtain ⟨fs', hc, hex, ht⟩ := @create_below _ _ _ _ _ hal hdir hf
      refine ⟨fs', hc, hex, ?_⟩
      rw [ht, kindOf, hin]
      rfl

end

theorem remove_below (hl : fs.treeAt top (d ++ [n]) = some (.leaf inode)) :
  ∃ fs', fs.remove (base.below (d ++ [n])) = .ok fs'
    ∧ fs'.treeAt top = Function.update (fs.treeAt top) (d ++ [n]) none
    ∧ ∀ fs₀ : FileSystem, fs₀.at? (top ++ (d ++ [n])) = none → fs₀.Extends fs → fs₀.Extends fs'
  := by
  obtain ⟨i, hi, -⟩ := treeAt_eq_leaf.1 hl
  have hv : fs.vacant (top ++ d ++ [n]) := by
    apply all_eq_true.2
    intro loc hlo
    simp only [decide_eq_true_eq, or_iff_not_imp_left]
    intro hne heq
    have hso := AList.lookup_isSome.2 (AList.mem_keys.2 hlo)
    rw [← dropLast_append_getLast hne] at hso
    have hd := fs.closed _ _ hso
    rw [heq, append_assoc] at hd
    cases hi.symm.trans hd
  have hso : (fs.at? (top ++ d ++ [n])).isSome := by
    rw [append_assoc, hi]
    rfl
  unfold remove
  rw [entryOf_below hbase hproper hdir]
  dsimp only
  rw [if_pos hso, dif_pos hv]
  refine ⟨_, rfl, ?_, ?_⟩
  · simp only [append_assoc]
    apply treeAt_erase
  · intro fs₀ hno hex
    refine ⟨?_, hex.inodes, hex.cwd⟩
    intro loc node hn
    rw [at?_erase, if_neg]
    · apply hex.nodes loc node hn
    · rintro rfl
      rw [append_assoc, hno] at hn
      cases hn

theorem remove_below_free (hf : fs.treeAt top (d ++ [n]) = none) :
  ∃ e, fs.remove (base.below (d ++ [n])) = .error e
  := by
  unfold remove
  rw [entryOf_below hbase hproper hdir]
  dsimp only
  rw [if_neg]
  · exact ⟨_, rfl⟩
  · rw [append_assoc, treeAt_eq_none.1 hf]
    simp

end Calls

end FileSystem

namespace Trace

open FileSystem

variable {t : Trace} {base : Path} {top : Loc} {p : List Name}

theorem mkdirAll_of_dir (hbase : t.now.Reaches base top) (hproper : ∀ n ∈ p, Path.Proper n)
    (hdir : t.now.treeAt top p = some .dir) :
  t.mkdirAll (base.below p) = (t, none)
  := by
  have hst : t.now.stat (base.below p) = .ok .dir :=
    stat_eq_ok.2 ⟨_, resolve_below hbase hproper hdir, treeAt_eq_dir.1 hdir⟩
  rw [mkdirAll, mkdirAllNames.eq_def]
  dsimp only
  rw [reverse_reverse, hst]

theorem mkdirAll_concat (hst : t.now.stat (base.below (p ++ [n])) = .error e)
    (ha : t.mkdirAll (base.below p) = (t₁, none))
    (hmk : t₁.now.mkdir (base.below (p ++ [n])) = .ok fs) :
  t.mkdirAll (base.below (p ++ [n])) = (⟨t₁.states, fs⟩, none)
  := by
  have hna : (base.names ++ (p ++ [n])).reverse = n :: (base.names ++ p).reverse := by simp
  rw [Path.below] at hst hmk
  rw [mkdirAll, Path.below] at ha
  rw [mkdirAll, Path.below, mkdirAllNames.eq_def]
  dsimp only at ha ⊢
  rw [reverse_reverse, hst, hna]
  dsimp only
  rw [ha]
  dsimp only
  rw [← hna, reverse_reverse, call, hmk]

theorem mkdirAll_below (hbase : t.now.Reaches base top) (hproper : ∀ n ∈ p, Path.Proper n)
    (hb : (t.now.treeAt top).blocks p = false) :
  ∃ t', t.mkdirAll (base.below p) = (t', none) ∧ t.now.Extends t'.now
    ∧ t'.now.treeAt top = (t.now.treeAt top).put p .dir
  := by
  induction p using reverseRecOn with
  | nil =>
    have hdir := treeAt_root hbase.dir
    exact ⟨t, mkdirAll_of_dir hbase hproper hdir, Extends.refl _,
      (put_dir_self closed_treeAt hdir).symm⟩
  | append_singleton p n ih =>
    by_cases hdir : t.now.treeAt top (p ++ [n]) = some .dir
    · exact ⟨t, mkdirAll_of_dir hbase hproper hdir, Extends.refl _,
        (put_dir_self closed_treeAt hdir).symm⟩
    · have hf : t.now.treeAt top (p ++ [n]) = none := by
        rcases cases_of_not_blocks hb with hno | hd
        · apply hno
        · exact absurd hd hdir
      obtain ⟨t₁, ha, hex, ht⟩ := ih (fun m hm => hproper m (by simp [hm]))
        (not_blocks_above (prefix_append _ _) hb)
      have hp : t₁.now.treeAt top p = some .dir := by rw [ht, put_self]
      have hpu : t₁.now.treeAt top (p ++ [n]) = none := by
        rw [ht, put_dir_of_beneath closed_treeAt (prefix_append _ _) (by simp),
          hf]
      obtain ⟨fs, hmk, het, htr⟩ := mkdir_below (hbase.extends hex) hproper hp
        hpu
      cases hst : t.now.stat (base.below (p ++ [n])) with
      | ok node =>
        obtain ⟨loc, hlo, hn⟩ := stat_eq_ok.1 hst
        obtain rfl := eq_of_resolve_below hbase hproper hb hlo
        rw [treeAt_eq_none.1 hf] at hn
        cases hn
      | error e =>
        refine ⟨_, mkdirAll_concat hst ha hmk, hex.trans het, ?_⟩
        rw [htr, ← Tree.put_eq_update closed_treeAt hp (by simp [hpu]), ht,
          put_dir_put closed_treeAt]

end Trace

end Files
