import Periapsis.Files.FileSystem

/-!
# Walks

A walk along some names and then others is a walk along the first, and from there along the others
with the links that are left (`walk_append`).
-/

namespace Files

open List Except

namespace FileSystem

variable {fs fs' : FileSystem} {links : Nat} {cur loc dir : Loc} {names : List Name} {name : Name}
  {p : Path} {r : Loc × Nat}

theorem walk_of_not_dir (hc : fs.at? cur ≠ some .dir) :
  fs.walk links cur names = .ok r ↔ names = [] ∧ r = (cur, links)
  := by
  cases names with
  | nil =>
    cases links with
    | zero | succ => simp [walk, walkStep, eq_comm]
  | cons name names =>
    cases links with
    | zero | succ => simp [walk, walkStep, hc]

variable {rest : List Name}

theorem walk_end_append (hc : fs.at? cur ≠ some .dir) :
  (if names ++ rest = [] then ok (cur, links) else .error e) = .ok r
    ↔ ∃ m, (if names = [] then ok (cur, links) else .error e) = .ok m
      ∧ fs.walk m.2 m.1 rest = .ok r
  := by
  cases names with
  | nil =>
    simp only [nil_append, if_true, ok.injEq, exists_eq_left', walk_of_not_dir hc]
    split
    next hre =>
      simp [hre, eq_comm]
    next hre =>
      simp [hre]
  | cons name names => simp

variable {next : Loc → List Name → Except Errno (Loc × Nat)}

theorem walkStep_append
    (hs : ∀ cur names, fs.walk links cur names = fs.walkStep links next cur names)
    (hne : ∀ cur names rest r, next cur (names ++ rest) = .ok r ↔ ∃ m, next cur names = .ok m ∧
      fs.walk m.2 m.1 rest = .ok r) :
  fs.walkStep links next cur (names ++ rest) = .ok r
    ↔ ∃ m, fs.walkStep links next cur names = .ok m ∧ fs.walk m.2 m.1 rest = .ok r
  := by
  induction names generalizing cur with
  | nil => simp [walkStep, hs]
  | cons name names ih =>
    rw [cons_append, walkStep, walkStep]
    split
    · simp
    · split
      · apply ih
      · split
        · apply ih
        · split
          next hnn =>
            apply walk_end_append
            simp [hnn]
          · apply ih
          next i hl =>
            split
            · dsimp only
              rw [← append_assoc]
              apply hne
            · apply walk_end_append
              simp [hl]

theorem walk_append (links : Nat) (cur : Loc) (names rest : List Name) (r : Loc × Nat) :
  fs.walk links cur (names ++ rest) = .ok r
    ↔ ∃ m, fs.walk links cur names = .ok m ∧ fs.walk m.2 m.1 rest = .ok r
  := by
  induction links generalizing cur names rest r with
  | zero =>
    apply walkStep_append
    · intro cur names
      rfl
    · simp
  | succ links ih =>
    apply walkStep_append
    · intro cur names
      rfl
    · apply ih

theorem walk_singleton (hc : fs.at? cur = some .dir) (hn : Path.Proper name)
    (hli : ∀ i, fs.at? (cur ++ [name]) = some (.leaf i) → fs.link? i = none) :
  fs.walk links cur [name] = .ok (cur ++ [name], links)
  := by
  have hst (next : Loc → List Name → Except Errno (Loc × Nat)) :
      fs.walkStep links next cur [name] = .ok (cur ++ [name], links) := by
    rw [walkStep, if_neg (not_not.2 hc), if_neg hn.1, if_neg hn.2]
    split
    · rfl
    · rfl
    next i hl =>
      rw [hli i hl]
      rfl
  cases links with
  | zero | succ => apply hst

/-- Where a path starts. -/
def origin (fs : FileSystem) (rooted : Bool) : Loc :=
  if rooted then [] else fs.cwd

theorem resolve_eq_ok :
  fs.resolve p = .ok loc ↔ ∃ links, fs.walk maxLinks (fs.origin p.rooted) p.names = .ok (loc, links)
  := by
  unfold resolve origin
  cases fs.walk maxLinks (if p.rooted then [] else fs.cwd) p.names with
  | error e => simp [Except.map]
  | ok r => simp [Except.map, Prod.ext_iff]

variable {rooted : Bool}

theorem resolve_dir_of_concat (h : fs.resolve ⟨rooted, names ++ [name]⟩ = .ok loc) :
  ∃ dir, fs.resolve ⟨rooted, names⟩ = .ok dir ∧ fs.at? dir = some .dir
  := by
  obtain ⟨links, hw⟩ := resolve_eq_ok.1 h
  obtain ⟨⟨dir, left⟩, hdr, hn⟩ := (walk_append _ _ _ _ _).1 hw
  refine ⟨dir, resolve_eq_ok.2 ⟨left, hdr⟩, ?_⟩
  by_contra hnt
  cases ((walk_of_not_dir hnt).1 hn).1

theorem resolve_concat (h : fs.resolve ⟨rooted, names⟩ = .ok dir) (hdr : fs.at? dir = some .dir)
    (hn : Path.Proper name)
    (hli : ∀ i, fs.at? (dir ++ [name]) = some (.leaf i) → fs.link? i = none) :
  fs.resolve ⟨rooted, names ++ [name]⟩ = .ok (dir ++ [name])
  := by
  obtain ⟨links, hw⟩ := resolve_eq_ok.1 h
  apply resolve_eq_ok.2
  use links
  apply (walk_append _ _ _ _ _).2
  exact ⟨(dir, links), hw, walk_singleton hdr hn hli⟩

theorem entryOf_eq_ok :
  fs.entryOf p = .ok (dir, name)
    ↔ p.names.getLast? = some name ∧ Path.Proper name ∧ fs.resolve p.parent = .ok dir
      ∧ fs.at? dir = some .dir
  := by
  unfold entryOf
  cases p.names.getLast? with
  | none => simp
  | some last =>
    dsimp only
    split
    next hd =>
      constructor
      · nofun
      · rintro ⟨hla, hn, -⟩
        cases hla
        rcases hd with hd | hd
        · exact absurd hd hn.1
        · exact absurd hd hn.2
    next hd =>
      rw [not_or] at hd
      cases fs.resolve p.parent with
      | error e => simp
      | ok dir' =>
        dsimp only
        split
        next hdr =>
          simp only [ok.injEq, Prod.mk.injEq, Option.some.injEq]
          constructor
          · rintro ⟨rfl, rfl⟩
            exact ⟨rfl, hd, rfl, hdr⟩
          · rintro ⟨rfl, -, rfl, -⟩
            exact ⟨rfl, rfl⟩
        next hdr =>
          simp only [reduceCtorEq, false_iff]
          rintro ⟨-, -, heq, hdi⟩
          cases heq
          exact hdr hdi

theorem walkStep_congr (hat : ∀ loc, fs'.at? loc = fs.at? loc)
    (hl : ∀ i, fs'.link? i = fs.link? i) {cur : Loc} {names : List Name} :
  walkStep fs' links next cur names = walkStep fs links next cur names
  := by
  induction names generalizing cur with
  | nil => rfl
  | cons name rest ih => simp only [walkStep, hat, hl, ih]

theorem resolve_congr (hat : ∀ loc, fs'.at? loc = fs.at? loc) (hl : ∀ i, fs'.link? i = fs.link? i)
    (hcw : fs'.cwd = fs.cwd) :
  fs'.resolve p = fs.resolve p
  := by
  have hw (links : Nat) : walk fs' links = walk fs links := by
    induction links with
    | zero =>
      funext cur names
      apply walkStep_congr hat hl
    | succ links ih =>
      funext cur names
      rw [walk, walk, ih]
      apply walkStep_congr hat hl
  rw [resolve, resolve, hw, hcw]

/-- Everything is kept, and more may be there. -/
structure Extends (fs fs' : FileSystem) : Prop where
  nodes : ∀ loc node, fs.at? loc = some node → fs'.at? loc = some node
  inodes : ∀ i, i < fs.inodes.length → fs'.inodes[i]? = fs.inodes[i]?
  cwd : fs'.cwd = fs.cwd

theorem Extends.refl (fs : FileSystem) :
  fs.Extends fs
  := ⟨fun _ _ h => h, fun _ _ => rfl, rfl⟩

section

variable (h : fs.Extends fs')
include h

theorem Extends.trans (h' : fs'.Extends fs'') :
  fs.Extends fs''
  := by
  refine ⟨fun loc node hno => h'.nodes _ _ (h.nodes _ _ hno), ?_, h'.cwd.trans h.cwd⟩
  intro i hi
  have hi' : i < fs'.inodes.length := by
    have hg := h.inodes i hi
    rw [getElem?_eq_getElem hi] at hg
    apply (List.getElem?_eq_some_iff.1 hg).1
  rw [h'.inodes i hi', h.inodes i hi]

theorem Extends.link? (hi : fs.at? loc = some (.leaf i)) :
  fs'.link? i = fs.link? i
  := by
  unfold FileSystem.link?
  rw [h.inodes i (fs.allocated loc i hi)]

theorem walkStep_extends
    (hne : ∀ cur names r, next cur names = .ok r → (fs.at? r.1).isSome → next' cur names = .ok r)
    (hw : fs.walkStep links next cur names = .ok r) (hr : (fs.at? r.1).isSome) :
  fs'.walkStep links next' cur names = .ok r
  := by
  induction names generalizing cur with
  | nil => simpa [walkStep] using hw
  | cons name names ih =>
    rw [walkStep] at hw ⊢
    split at hw
    · cases hw
    rename_i hc
    rw [if_neg (not_not.2 (h.nodes _ _ (not_not.1 hc)))]
    split at hw
    next hdt =>
      rw [if_pos hdt]
      apply ih hw
    rename_i hdt
    rw [if_neg hdt]
    split at hw
    next hdo =>
      rw [if_pos hdo]
      apply ih hw
    rename_i hdo
    rw [if_neg hdo]
    split at hw
    next hnn =>
      split_ifs at hw
      cases hw
      simp [hnn] at hr
    next hdr =>
      rw [h.nodes _ _ hdr]
      apply ih hw
    next i hl =>
      rw [h.nodes _ _ hl]
      dsimp only
      rw [h.link? hl]
      split at hw
      · apply hne _ _ _ hw hr
      · apply hw

theorem walk_extends (hw : fs.walk links cur names = .ok r) (hr : (fs.at? r.1).isSome) :
  fs'.walk links cur names = .ok r
  := by
  induction links generalizing cur names r with
  | zero =>
    apply walkStep_extends h _ hw hr
    nofun
  | succ links ih =>
    apply walkStep_extends h _ hw hr
    intro cur names r hne hr
    apply ih hne hr

end

variable {node : Node}

theorem resolve_extends (h : fs.Extends fs') (hp : fs.resolve p = .ok loc)
    (hlo : fs.at? loc = some node) :
  fs'.resolve p = .ok loc
  := by
  obtain ⟨links, hw⟩ := resolve_eq_ok.1 hp
  apply resolve_eq_ok.2
  use links
  rw [origin, h.cwd]
  apply walk_extends h hw
  simp [hlo]

theorem entryOf_extends (h : fs.Extends fs') (hp : fs.entryOf p = .ok (dir, name)) :
  fs'.entryOf p = .ok (dir, name)
  := by
  obtain ⟨hla, hn, hpa, hdr⟩ := entryOf_eq_ok.1 hp
  apply entryOf_eq_ok.2
  exact ⟨hla, hn, resolve_extends h hpa hdr, h.nodes _ _ hdr⟩

theorem extends_add {hdr : fs.at? dir = some .dir} {hf : fs.at? (dir ++ [name]) = none}
    {hno : ∀ i, node = .leaf i → i < fs.inodes.length} :
  fs.Extends (fs.add dir name node hdr hf hno)
  := by
  refine ⟨?_, fun _ _ => rfl, rfl⟩
  intro loc node' hnd
  rw [at?_add, if_neg]
  · apply hnd
  · rintro rfl
    rw [hf] at hnd
    cases hnd

theorem extends_of_remove (h : fs.remove p = .ok fs') :
  fs'.Extends fs
  := by
  unfold remove at h
  split at h
  · cases h
  · split at h
    · split_ifs at h
      cases h
      refine ⟨?_, fun _ _ => rfl, rfl⟩
      intro loc node hno
      rw [at?_erase] at hno
      split_ifs at hno
      apply hno
    · cases h

end FileSystem

end Files
