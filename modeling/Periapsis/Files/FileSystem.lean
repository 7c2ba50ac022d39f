import Mathlib.Data.List.AList
import Periapsis.Files.Path

/-!
# File systems

A file system is a tree of directories whose leaves are inodes: files with their bytes, and symbolic
links with their texts.
-/

namespace Files

open AList

abbrev Loc := List Name

inductive Node where
  | dir
  | leaf (inode : Nat)
  deriving DecidableEq

inductive Inode where
  | file (data : List UInt8)
  | link (target : List Char)
  deriving DecidableEq

inductive Errno where
  | ENOENT
  | ENOTDIR
  | EISDIR
  | EEXIST
  | ENOTEMPTY
  | ELOOP
  | EPERM
  | EINVAL
  deriving DecidableEq

structure FileSystem where
  nodes : AList fun _ : Loc => Node
  inodes : List Inode
  cwd : Loc
  root : nodes.lookup [] = some .dir
  closed : ∀ loc name, (nodes.lookup (loc ++ [name])).isSome → nodes.lookup loc = some .dir
  allocated : ∀ loc i, nodes.lookup loc = some (.leaf i) → i < inodes.length

namespace FileSystem

def at? (fs : FileSystem) (loc : Loc) : Option Node :=
  fs.nodes.lookup loc

def link? (fs : FileSystem) (i : Nat) : Option (List Char) :=
  match fs.inodes[i]? with
  | some (.link target) => some target
  | _ => none

def bare : FileSystem where
  nodes := singleton [] .dir
  inodes := []
  cwd := []
  root := rfl
  closed := by
    intro loc name hsome
    rw [lookup_isSome, mem_keys, keys_singleton] at hsome
    simp at hsome
  allocated := by
    intro loc i hi
    have hmem := lookup_isSome.mp (Option.isSome_iff_exists.mpr ⟨_, hi⟩)
    rw [mem_keys, keys_singleton, List.mem_singleton] at hmem
    subst hmem
    cases hi

variable {fs : FileSystem}

theorem dir_allocated (i : Nat) (h : Node.dir = .leaf i) :
  i < fs.inodes.length
  := by
  cases h

variable (fs)

def add (dir : Loc) (name : Name) (node : Node) (hdir : fs.at? dir = some .dir)
    (hfree : fs.at? (dir ++ [name]) = none)
    (hnode : ∀ i, node = .leaf i → i < fs.inodes.length) : FileSystem where
  nodes := fs.nodes.insert (dir ++ [name]) node
  inodes := fs.inodes
  cwd := fs.cwd
  root := by
    rw [lookup_insert_ne (by simp)]
    apply fs.root
  closed := by
    intro loc name' hsome
    by_cases heq : loc ++ [name'] = dir ++ [name]
    · obtain ⟨rfl, -⟩ := List.append_inj' heq rfl
      rw [lookup_insert_ne (by simp)]
      apply hdir
    · rw [lookup_insert_ne heq] at hsome
      have hloc := fs.closed loc name' hsome
      rw [lookup_insert_ne]
      · apply hloc
      · rintro rfl
        rw [at?, hloc] at hfree
        cases hfree
  allocated := by
    intro loc i hi
    by_cases heq : loc = dir ++ [name]
    · subst heq
      rw [lookup_insert] at hi
      apply hnode i (Option.some.inj hi)
    · rw [lookup_insert_ne heq] at hi
      apply fs.allocated loc i hi

def erase (loc : Loc) (hloc : loc ≠ [])
    (hempty : ∀ name, fs.at? (loc ++ [name]) = none) : FileSystem where
  nodes := fs.nodes.erase loc
  inodes := fs.inodes
  cwd := fs.cwd
  root := by
    rw [lookup_erase_ne hloc.symm]
    apply fs.root
  closed := by
    intro loc' name hsome
    have hne : loc' ++ [name] ≠ loc := by
      rintro rfl
      rw [lookup_erase] at hsome
      cases hsome
    rw [lookup_erase_ne hne] at hsome
    rw [lookup_erase_ne]
    · apply fs.closed loc' name hsome
    · rintro rfl
      have hnone := hempty name
      rw [at?] at hnone
      rw [hnone] at hsome
      cases hsome
  allocated := by
    intro loc' i hi
    apply fs.allocated loc' i
    by_cases heq : loc' = loc
    · subst heq
      rw [lookup_erase] at hi
      cases hi
    · rw [lookup_erase_ne heq] at hi
      apply hi

def allocate (inode : Inode) : FileSystem where
  nodes := fs.nodes
  inodes := fs.inodes ++ [inode]
  cwd := fs.cwd
  root := fs.root
  closed := fs.closed
  allocated := by
    intro loc i hi
    have := fs.allocated loc i hi
    rw [List.length_append]
    omega

def update (i : Nat) (inode : Inode) : FileSystem where
  nodes := fs.nodes
  inodes := fs.inodes.set i inode
  cwd := fs.cwd
  root := fs.root
  closed := fs.closed
  allocated := by
    rw [List.length_set]
    apply fs.allocated

variable {fs}

section Nodes

variable {loc : Loc}

theorem at?_add {dir : Loc} {name : Name} {hd : fs.at? dir = some .dir}
    {hf : fs.at? (dir ++ [name]) = none} {hn : ∀ i, node = .leaf i → i < fs.inodes.length} :
  (fs.add dir name node hd hf hn).at? loc
    = if loc = dir ++ [name] then some node else fs.at? loc
  := by
  unfold at? add
  split
  next hl =>
    rw [hl, lookup_insert]
  next hl =>
    rw [lookup_insert_ne hl]

theorem at?_erase {hl : loc ≠ []} {hem : ∀ name, fs.at? (loc ++ [name]) = none} (loc' : Loc) :
  (fs.erase loc hl hem).at? loc' = if loc' = loc then none else fs.at? loc'
  := by
  unfold at? erase
  split
  next heq =>
    rw [heq, lookup_erase]
  next hne =>
    rw [lookup_erase_ne hne]

end Nodes

/-- How many symbolic links a walk follows. -/
def maxLinks : Nat := 40

def walkStep (fs : FileSystem) (links : Nat)
    (next : Loc → List Name → Except Errno (Loc × Nat)) (cur : Loc) :
    List Name → Except Errno (Loc × Nat)
  | [] => .ok (cur, links)
  | name :: rest =>
    if fs.at? cur ≠ some .dir then .error .ENOTDIR
    else if name = dot then walkStep fs links next cur rest
    else if name = dotDot then walkStep fs links next cur.dropLast rest
    else
      match fs.at? (cur ++ [name]) with
      | none => if rest = [] then .ok (cur ++ [name], links) else .error .ENOENT
      | some .dir => walkStep fs links next (cur ++ [name]) rest
      | some (.leaf i) =>
        match fs.link? i with
        | some target =>
          let target := parse target
          next (if target.rooted then [] else cur) (target.names ++ rest)
        | none => if rest = [] then .ok (cur ++ [name], links) else .error .ENOTDIR

def walk (fs : FileSystem) : Nat → Loc → List Name → Except Errno (Loc × Nat)
  | 0 => walkStep fs 0 fun _ _ => .error .ELOOP
  | links + 1 => walkStep fs (links + 1) (walk fs links)

variable (fs)

def resolve (p : Path) : Except Errno Loc :=
  (fs.walk maxLinks (if p.rooted then [] else fs.cwd) p.names).map Prod.fst

def stat (p : Path) : Except Errno Node :=
  match fs.resolve p with
  | .error e => .error e
  | .ok loc =>
    match fs.at? loc with
    | none => .error .ENOENT
    | some node => .ok node

def entryOf (p : Path) : Except Errno (Loc × Name) :=
  match p.names.getLast? with
  | none => .error .EINVAL
  | some name =>
    if name = dot ∨ name = dotDot then .error .EINVAL
    else
      match fs.resolve p.parent with
      | .error e => .error e
      | .ok dir => if fs.at? dir = some .dir then .ok (dir, name) else .error .ENOTDIR

def lstat (p : Path) : Except Errno Node :=
  match fs.entryOf p with
  | .error .EINVAL => fs.stat p
  | .error e => .error e
  | .ok (dir, name) =>
    match fs.at? (dir ++ [name]) with
    | none => .error .ENOENT
    | some node => .ok node

/-- A new entry in a directory. -/
def create (dir : Loc) (name : Name) (node : Node)
    (hnode : ∀ i, node = .leaf i → i < fs.inodes.length) : Except Errno FileSystem :=
  if hdir : fs.at? dir = some .dir then
    if hfree : fs.at? (dir ++ [name]) = none then .ok (fs.add dir name node hdir hfree hnode)
    else .error .EEXIST
  else .error .ENOTDIR

def createInode (dir : Loc) (name : Name) (inode : Inode) :
    Except Errno FileSystem :=
  (fs.allocate inode).create dir name (.leaf fs.inodes.length) (by
    rintro i ⟨⟩
    simp [allocate])

variable {fs}

def mkdir (p : Path) (fs : FileSystem) : Except Errno FileSystem :=
  match fs.entryOf p with
  | .error e => .error e
  | .ok (dir, name) => fs.create dir name .dir (by simp)

def overwrite (data : List UInt8) : Inode → Inode
  | .file old => .file (data ++ old.drop data.length)
  | .link target => .link target

def write (p : Path) (data : List UInt8) (fs : FileSystem) : Except Errno FileSystem :=
  match fs.resolve p with
  | .error e => .error e
  | .ok loc =>
    match fs.at? loc with
    | none =>
      match loc.getLast? with
      | none => .error .EINVAL
      | some name => fs.createInode loc.dropLast name (.file data)
    | some .dir => .error .EISDIR
    | some (.leaf i) =>
      match fs.inodes[i]? with
      | some inode => .ok (fs.update i (overwrite data inode))
      | none => .error .EINVAL

def vacant (fs : FileSystem) (loc : Loc) : Bool :=
  fs.nodes.keys.all fun loc' => loc' = [] ∨ loc'.dropLast ≠ loc

theorem at?_eq_none_of_vacant (h : fs.vacant loc) (name : Name) :
  fs.at? (loc ++ [name]) = none
  := by
  rw [at?, lookup_eq_none, mem_keys]
  intro hm
  simpa using List.all_eq_true.1 h _ hm

def remove (p : Path) (fs : FileSystem) : Except Errno FileSystem :=
  match fs.entryOf p with
  | .error e => .error e
  | .ok (dir, name) =>
    if (fs.at? (dir ++ [name])).isSome then
      if hempty : fs.vacant (dir ++ [name]) = true then
        .ok (fs.erase (dir ++ [name]) (by simp) (at?_eq_none_of_vacant hempty))
      else .error .ENOTEMPTY
    else .error .ENOENT

def symlink (target : List Char) (p : Path) (fs : FileSystem) : Except Errno FileSystem :=
  if target = [] then .error .ENOENT
  else
    match fs.entryOf p with
    | .error e => .error e
    | .ok (dir, name) => fs.createInode dir name (.link target)

def link (old p : Path) (fs : FileSystem) : Except Errno FileSystem :=
  match fs.entryOf old with
  | .error e => .error e
  | .ok (dir, name) =>
    match hnode : fs.at? (dir ++ [name]) with
    | none => .error .ENOENT
    | some .dir => .error .EPERM
    | some (.leaf i) =>
      match fs.entryOf p with
      | .error e => .error e
      | .ok (dir, name) =>
        fs.create dir name (.leaf i) (by
          rintro _ ⟨⟩
          exact fs.allocated _ _ hnode)

end FileSystem

/-! ### Procedures -/

/-- What a procedure does: the file systems after the calls of it that succeeded. -/
structure Trace where
  past : List FileSystem
  now : FileSystem

namespace Trace

def start (fs : FileSystem) : Trace :=
  ⟨[], fs⟩

def states (t : Trace) : List FileSystem :=
  t.past ++ [t.now]

def call (f : FileSystem → Except Errno FileSystem) (t : Trace) : Trace × Option Errno :=
  match f t.now with
  | .ok fs => (⟨t.states, fs⟩, none)
  | .error e => (t, some e)

def mkdirAllNames (rooted : Bool) : List Name → Trace → Trace × Option Errno
  | names, t =>
    match t.now.stat ⟨rooted, names.reverse⟩ with
    | .ok .dir => (t, none)
    | .ok (.leaf _) => (t, some .ENOTDIR)
    | .error e =>
      match names with
      | [] => (t, some e)
      | name :: above =>
        match mkdirAllNames rooted above t with
        | (t, some e) => (t, some e)
        | (t, none) =>
          let p : Path := ⟨rooted, (name :: above).reverse⟩
          match t.call (FileSystem.mkdir p) with
          | (t, none) => (t, none)
          | (t, some e) => (t, if t.now.lstat p = .ok .dir then none else some e)

def mkdirAll (p : Path) (t : Trace) : Trace × Option Errno :=
  mkdirAllNames p.rooted p.names.reverse t

end Trace

end Files
