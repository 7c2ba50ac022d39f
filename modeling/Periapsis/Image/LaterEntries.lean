import Periapsis.Image.Mounted
import Periapsis.Transition.Mealy

/-!
# Several entries for one path

A regular entry is written over what stands at its path: a longer file keeps its end, other names
change with it, and a link is followed.
-/

namespace Periapsis.Image

open Files FileSystem Transition List Function Files.Tree Trace Path

structure Clean (tree : ImageTree) (header : Header) : Prop where
  relative : (parse header.name).rooted = false
  proper : ∀ n ∈ entryPath header, Path.Proper n
  named : entryPath header ≠ []
  above : tree.blocks (entryPath header).dropLast = false
  not_dir : tree (entryPath header) ≠ some .dir
  kind : header.typeflag = .reg ∨ header.typeflag = .symlink ∨ header.typeflag = .link
  source : header.typeflag = .link → linkPath header ≠ [] ∧ (∀ n ∈ linkPath header, Path.Proper n)
    ∧ tree.blocks (linkPath header).dropLast = false

def CleanAll (tree : ImageTree) : List Header → Prop
  | [] => True
  | header :: headers => Clean tree header ∧ CleanAll (applyEntry tree header) headers

def Afresh (top : Loc) (t : Trace) (header : Header) : Prop :=
  header.typeflag = .reg → ∀ i, t.now.at? (top ++ entryPath header) = some (.leaf i) →
    ∃ old, t.now.inodes[i]? = some (.file old) ∧ old.length ≤ header.body.length
      ∧ ∀ q, q ≠ entryPath header → t.now.at? (top ++ q) = some (.leaf i) → header.body = old

namespace Destination

variable {dest : Destination} {t t' : Trace} {tree : ImageTree} {header : Header} {i : Nat}
  {old : List UInt8}

def rewritten (dest : Destination) (i : Nat) (new : List UInt8)
    (h : ∀ inode ∈ dest.host.inodes[i]?, ∃ old, inode = .file old) : Destination where
  dst := dest.dst
  host := dest.host.update i (.file new)
  top := dest.top
  named := dest.named
  emptyDir := ⟨(resolve_update h _).trans dest.emptyDir.resolved, dest.emptyDir.dir,
    dest.emptyDir.empty⟩

theorem Holds.update (h : dest.Holds t.now tree) (ho : t.now.inodes[i]? = some (.file old))
    (new : List UInt8) :
  ∃ hf, (dest.rewritten i new hf).Holds (t.now.update i (.file new))
    ((t.now.update i (.file new)).treeAt dest.top)
  := by
  have hf : ∀ inode ∈ dest.host.inodes[i]?, ∃ old, inode = .file old := by
    intro inode hi
    have hlt := (List.getElem?_eq_some_iff.1 hi).1
    rw [← h.extended.inodes i hlt, ho] at hi
    cases hi
    exact ⟨old, rfl⟩
  refine ⟨hf, ⟨fun loc node => h.extended.nodes loc node, fun j hj => ?_, h.extended.cwd⟩, rfl⟩
  change (t.now.inodes.set i _)[j]? = (dest.host.inodes.set i _)[j]?
  have hj : j < dest.host.inodes.length := by simpa [rewritten, FileSystem.update] using hj
  have hlt := (List.getElem?_eq_some_iff.1 ho).1
  rw [getElem?_set, getElem?_set, h.extended.inodes j hj]
  split_ifs
  · rfl
  · omega
  · rfl

theorem update_iff (h : dest.Holds t.now tree) (hi : t.now.at? (dest.top ++ p) = some (.leaf i))
    (ho : t.now.inodes[i]? = some (.file old)) (data : List UInt8) :
  (t.now.update i (.file (data ++ old.drop data.length))).treeAt dest.top
      = update tree p (some (.leaf (.file data)))
    ↔ old.length ≤ data.length
      ∧ ∀ q, q ≠ p → t.now.at? (dest.top ++ q) = some (.leaf i) → data = old
  := by
  have hlt := (List.getElem?_eq_some_iff.1 ho).1
  have hdr : data ++ old.drop data.length = data ↔ old.length ≤ data.length := by simp
  have hol (q : List Name) (hq : t.now.at? (dest.top ++ q) = some (.leaf i)) :
      tree q = some (.leaf (.file old)) := by
    rw [← h.tree_eq]
    exact treeAt_eq_leaf.2 ⟨i, hq, ho⟩
  constructor
  · intro heq
    have hat (q : List Name) := congrFun heq q
    simp only [treeAt_update hlt] at hat
    have hp := hat p
    rw [if_pos hi, update_self] at hp
    have hsa : data ++ old.drop data.length = data := by simpa using hp
    refine ⟨hdr.1 hsa, fun q hne hq => ?_⟩
    have hq' := hat q
    rw [if_pos hq, update_of_ne hne, hol q hq, hsa] at hq'
    simpa using hq'
  · rintro ⟨hle, hsh⟩
    funext q
    rw [treeAt_update hlt, hdr.2 hle]
    by_cases hqp : q = p
    · rw [hqp, if_pos hi, update_self]
    · rw [update_of_ne hqp]
      split_ifs with hq
      · rw [hol q hq, hsh q hqp hq]
      · rw [h.tree_eq]

theorem extractEntry_eq (hc : Clean tree header) :
  extractEntry dest.dst header t
    = extractTo dest.dst header (dest.path.below (entryPath header)) t
  := by
  rw [extractEntry, target_eq hc.relative hc.proper, if_neg hc.named]

theorem applyEntry_eq (hc : Clean tree header) (hk : entryKind tree header = some k) :
  applyEntry tree header = tree.put (entryPath header) k
  := by
  rw [applyEntry, if_neg hc.named, hk]

theorem ok_of_call (h : orFail (t.call f) = (t', none)) :
  ∃ fs, f t.now = .ok fs
  := by
  unfold call at h
  cases hf : f t.now with
  | ok fs => exact ⟨fs, rfl⟩
  | error e => simp [hf, orFail] at h

theorem exists_concat (hc : Clean tree header) :
  ∃ d n, entryPath header = d ++ [n]
  := ⟨_, _, (dropLast_append_getLast hc.named).symm⟩

theorem written (hdn : entryPath header = d ++ [n])
    (hs : extractTo dest.dst header (dest.path.below (entryPath header)) t = (t', none))
    (hl : header.typeflag = .reg) :
  header.complete ∧ ∃ t₁ fs, t.mkdirAll (dest.path.below d) = (t₁, none)
    ∧ write (dest.path.below (d ++ [n])) header.body t₁.now = .ok fs
    ∧ t'.now = fs
  := by
  unfold extractTo at hs
  rw [hl, hdn, parent_below] at hs
  generalize t.mkdirAll (dest.path.below d) = r at hs ⊢
  obtain ⟨t₁, err⟩ := r
  cases err with
  | some e => cases hs
  | none =>
    dsimp only [call] at hs
    cases hw : write (dest.path.below (d ++ [n])) header.body t₁.now with
    | error e =>
      rw [hw] at hs
      cases hs
    | ok fs =>
      rw [hw] at hs
      cases hco : header.complete with
      | false => simp [hco] at hs
      | true =>
        simp only [hco] at hs
        cases hs
        exact ⟨rfl, t₁, fs, rfl, hw, rfl⟩

section Entry

variable (h : dest.Holds t.now tree) (hc : Clean tree header)
  (hs : extractTo dest.dst header (dest.path.below (entryPath header)) t = (t', none))

include h hc hs

theorem holds_symlink (hl : header.typeflag = .symlink) :
  dest.Holds t'.now (applyEntry tree header)
  := by
  obtain ⟨d, n, hdn⟩ := exists_concat hc
  have hp := hc.proper
  have ha := hc.above
  have hd := hc.not_dir
  have hk : entryKind tree header = some (.leaf (.link header.linkname)) := by
    rw [entryKind, hl]
  rw [applyEntry_eq hc hk]
  rw [hdn] at hp hd hs ⊢
  rw [hdn, dropLast_concat] at ha
  have hne : header.linkname ≠ [] := by
    intro he
    unfold extractTo at hs
    rw [hl] at hs
    obtain ⟨fs, hfs⟩ := ok_of_call hs
    rw [symlink, if_pos he] at hfs
    cases hfs
  obtain ⟨t₁, hx, h₁⟩ := extractSymlink h hp ha hd hl hne
  cases hx.symm.trans hs
  exact h₁

theorem holds_link (hl : header.typeflag = .link) :
  dest.Holds t'.now (applyEntry tree header)
  := by
  obtain ⟨hne, hpr, hb⟩ := hc.source hl
  obtain ⟨d, n, hdn⟩ := exists_concat hc
  have hp := hc.proper
  have ha := hc.above
  have hd := hc.not_dir
  rw [hdn] at hp hd hs
  rw [hdn, dropLast_concat] at ha
  obtain ⟨t₁, t₂, err, hmk, hre, h₂⟩ := makeRoom h hp ha hd
  have hle : ∀ q c, update (tree.put d .dir) (d ++ [n]) none q = some (.leaf c) →
      q ≠ d ++ [n] ∧ tree q = some (.leaf c) := by
    intro q c hq
    by_cases hqn : q = d ++ [n]
    · simp [hqn] at hq
    · rw [update_of_ne hqn] at hq
      exact ⟨hqn, leaf_of_put_dir hq⟩
  have hma := hs
  unfold extractTo at hma
  rw [hl, parent_below, join_eq_below names_ne_nil hpr] at hma
  dsimp only at hma
  rw [hmk, hre] at hma
  obtain ⟨fs, hfs⟩ := ok_of_call hma
  obtain ⟨inode, hin⟩ := leaf_of_link h₂.reaches hpr hne (by
    rw [Bool.eq_false_iff, h₂.tree_eq]
    intro hbl
    obtain ⟨q, c, hq, hqc⟩ := blocks_iff.1 hbl
    rw [blocks_iff.2 ⟨q, c, hq, (hle q c hqc).2⟩] at hb
    cases hb) hfs
  rw [h₂.tree_eq] at hin
  obtain ⟨hot, hin⟩ := hle _ _ hin
  obtain ⟨t₃, hx, h₃⟩ := extractLink h hp ha hd hl hpr hot hin
  cases hx.symm.trans hs
  have hk : entryKind tree header = some (.leaf inode) := by
    rw [entryKind, hl]
    rw [hin]
  rw [applyEntry_eq hc hk, hdn]
  exact h₃

theorem reg_cases (hl : header.typeflag = .reg) :
  (Afresh dest.top t header ∧ ∃ dest' : Destination, dest'.dst = dest.dst ∧ dest'.top = dest.top
      ∧ dest'.Holds t'.now (applyEntry tree header))
    ∨ (¬ Afresh dest.top t header ∧ t'.now.treeAt dest.top ≠ applyEntry tree header)
  := by
  obtain ⟨d, n, hdn⟩ := exists_concat hc
  obtain ⟨hco, t₁, fs, hmk, hw, hno⟩ := written hdn hs hl
  have hp := hc.proper
  have ha := hc.above
  have hd := hc.not_dir
  have hk : entryKind tree header = some (.leaf (.file header.body)) := by
    rw [entryKind, hl]
  rw [applyEntry_eq hc hk]
  unfold Afresh
  rw [hdn] at hp hd hs ⊢
  rw [hdn, dropLast_concat] at ha
  cases hn : tree (d ++ [n]) with
  | none =>
    obtain ⟨t₂, hx, h₂⟩ := extractReg h hp ha hn hl hco
    cases hx.symm.trans hs
    refine .inl ⟨fun _ i hi => ?_, dest, rfl, rfl, h₂⟩
    rw [← h.tree_eq, treeAt_eq_none, hi] at hn
    cases hn
  | some k =>
    have hdi : tree d = some .dir := h.closed d n (by simp [hn])
    obtain rfl : t₁ = t := by
      have := mkdirAll_of_dir h.reaches (fun m hm => hp m (by simp [hm]))
        (h.tree_eq ▸ hdi)
      rw [hmk] at this
      exact congrArg Prod.fst this
    cases k with
    | dir => exact absurd hn hd
    | leaf inode =>
      obtain ⟨i, hi, hin⟩ := treeAt_eq_leaf.1 (h.tree_eq ▸ hn)
      cases inode with
      | link target =>
        refine .inr ⟨fun hfr => ?_, fun heq => ?_⟩
        · obtain ⟨old, ho, -⟩ := hfr hl i hi
          cases ho.symm.trans hin
        · have hke := write_keeps_link hw (h.tree_eq ▸ hn)
          rw [← hno, heq, put_self] at hke
          cases hke
      | file old =>
        rw [write_below_file h.reaches hp (h.tree_eq ▸ hdi) hi hin] at hw
        cases hw
        have hif := update_iff h hi hin header.body
        rw [← put_eq_update h.closed hdi hd, ← hno] at hif
        by_cases hcn : old.length ≤ header.body.length ∧ ∀ q, q ≠ d ++ [n] →
            t₁.now.at? (dest.top ++ q) = some (.leaf i) → header.body = old
        · refine .inl ⟨fun _ j hj => ?_, ?_⟩
          · cases hi.symm.trans hj
            exact ⟨old, hin, hcn⟩
          · obtain ⟨hf, hu⟩ := h.update hin (header.body ++ old.drop header.body.length)
            rw [← hno, hif.2 hcn] at hu
            exact ⟨dest.rewritten i _ hf, rfl, rfl, hu⟩
        · refine .inr ⟨fun hfr => ?_, fun heq => hcn (hif.1 heq)⟩
          obtain ⟨old', ho, hcd⟩ := hfr hl i hi
          cases ho.symm.trans hin
          exact hcn hcd

theorem entry_cases :
  (Afresh dest.top t header ∧ ∃ dest' : Destination, dest'.dst = dest.dst ∧ dest'.top = dest.top
      ∧ dest'.Holds t'.now (applyEntry tree header))
    ∨ (¬ Afresh dest.top t header ∧ t'.now.treeAt dest.top ≠ applyEntry tree header)
  := by
  rcases hc.kind with hl | hl | hl
  · exact reg_cases h hc hs hl
  · exact .inl ⟨fun hr => (by cases hl.symm.trans hr), dest, rfl, rfl,
      holds_symlink h hc hs hl⟩
  · exact .inl ⟨fun hr => (by cases hl.symm.trans hr), dest, rfl, rfl, holds_link h hc hs hl⟩

end Entry

theorem later_iff (h : dest.Holds t.now tree) (hcl : CleanAll tree headers)
    (hok : (extractLayer dest.dst true headers t).2 = none) :
  (∀ hs, hs <+: headers →
      (extractLayer dest.dst true hs t).1.now.treeAt dest.top = hs.foldl applyEntry tree)
    ↔ (extraction dest.dst).Meets (Afresh dest.top) t headers
  := by
  induction headers generalizing dest t tree with
  | nil =>
    refine ⟨fun _ => trivial, fun _ hs hp => ?_⟩
    rw [prefix_nil.1 hp]
    exact h.tree_eq
  | cons header headers ih =>
    obtain ⟨t₁, hen⟩ : ∃ t₁, extractEntry dest.dst header t = (t₁, none) := by
      rw [extractLayer] at hok
      generalize extractEntry dest.dst header t = r at hok ⊢
      obtain ⟨t₁, err⟩ := r
      cases err with
      | some e => cases hok
      | none => exact ⟨t₁, rfl⟩
    have hla (hs : List Header) : extractLayer dest.dst true (header :: hs) t
        = extractLayer dest.dst true hs t₁ := by
      rw [extractLayer, hen]
    have hst : (extraction dest.dst).step t header = some t₁ := by
      simp only [extraction, hen]
    have hma := hen
    rw [extractEntry_eq hcl.1] at hma
    rw [hla] at hok
    rw [Mealy.forall_prefix_cons, System.meets_cons, hst]
    simp only [hla, foldl_cons]
    rcases entry_cases h hcl.1 hma with ⟨hfr, dest', hds, ht, h'⟩ | ⟨hnt, hne⟩
    · have hif := ih h' hcl.2 (hds ▸ hok)
      rw [hds, ht] at hif
      rw [hif]
      exact ⟨fun hm => ⟨hfr, hm.2⟩, fun hm => ⟨h.tree_eq, hm.2⟩⟩
    · exact ⟨fun hm => absurd (hm.2 [] (List.nil_prefix)) hne, fun hm => absurd hm.1 hnt⟩

end Destination

/-- In a stream that is extracted, every path holds at any point what the last entry for it
describes, if and only if every regular entry is written afresh. -/
theorem extract_later_iff (dest : Destination) {headers : List Header}
    (hclean : CleanAll Tree.bare headers) (hok : (dest.extract headers).2 = none) :
  (∀ hs, hs <+: headers → dest.tree hs = layerTree hs)
    ↔ (extraction dest.dst).Meets (Afresh dest.top) (.start dest.host) headers
  := Destination.later_iff .start hclean hok

def oneEntry (body : List UInt8) : Header where
  name := "a".toList
  typeflag := .reg
  body := body

def firstWritten : Trace :=
  (extractEntry hostDestination.dst (oneEntry [1, 2]) (.start hostFiles)).1

theorem at_firstWritten (h : firstWritten.now.at? loc = some (.leaf 0)) :
  loc = ["dst".toList, "a".toList]
  := by
  have hk : ∀ loc ∈ firstWritten.now.nodes.keys, firstWritten.now.at? loc = some (.leaf 0) →
      loc = ["dst".toList, "a".toList] := by decide +kernel
  apply hk loc _ h
  rw [← AList.mem_keys, ← AList.lookup_isSome, ← at?, h]
  rfl

theorem extract_later_longer :
  let headers := [oneEntry [1, 2], oneEntry [3, 4, 5]]
  (hostDestination.extract headers).2 = none ∧ hostDestination.tree headers = layerTree headers
    ∧ layerTree headers ["a".toList] = some (.leaf (.file [3, 4, 5]))
  := by
  intro headers
  have hok : (hostDestination.extract headers).2 = none := by decide +kernel
  have hcl : CleanAll bare headers :=
    ⟨⟨by decide +kernel, by decide +kernel, by decide +kernel, by decide +kernel,
      by decide +kernel, .inl rfl, nofun⟩,
    ⟨by decide +kernel, by decide +kernel, by decide +kernel, by decide +kernel,
      by decide +kernel, .inl rfl, nofun⟩, trivial⟩
  have hfe : hostFiles.at? (["dst".toList] ++ entryPath (oneEntry [1, 2])) = none := by
    decide +kernel
  have hat : firstWritten.now.at? (["dst".toList] ++ entryPath (oneEntry [3, 4, 5]))
      = some (.leaf 0) := by
    decide +kernel
  have hfr : Afresh ["dst".toList] firstWritten (oneEntry [3, 4, 5]) := by
    intro _ i hi
    cases hat.symm.trans hi
    refine ⟨[1, 2], by decide +kernel, by decide, fun q hq h => absurd ?_ hq⟩
    exact append_cancel_left (at_firstWritten h)
  have hme : (extraction hostDestination.dst).Meets (Afresh hostDestination.top)
      (.start hostDestination.host) headers := by
    refine ⟨fun _ i hi => (by cases hfe.symm.trans hi), fun t ht => ?_⟩
    cases ht
    exact ⟨hfr, fun _ _ => trivial⟩
  exact ⟨hok, (extract_later_iff hostDestination hcl hok).mpr hme _ (prefix_refl _),
    by decide +kernel⟩

theorem extract_later_shorter :
  (hostDestination.extract [oneEntry [1, 2], oneEntry [3]]).2 = none
    ∧ hostDestination.tree [oneEntry [1, 2], oneEntry [3]] ["a".toList]
      = some (.leaf (.file [3, 2]))
    ∧ layerTree [oneEntry [1, 2], oneEntry [3]] ["a".toList] = some (.leaf (.file [3]))
  := by
  decide +kernel

end Periapsis.Image
