import Periapsis.Files.Tree
import Periapsis.Image.Extract

/-!
# The layers of an image

A container sees an overlay of the directories its layers were extracted to, the top layer first and
each directory once.
-/

namespace Periapsis.Image

open Files

abbrev ImageTree := Tree Name Inode

/-- The path of an entry in the tree. -/
def entryPath (header : Header) : List Name :=
  (parse header.name).clean.names

def linkPath (header : Header) : List Name :=
  (parse header.linkname).relative

def entryKind (t : ImageTree) (header : Header) : Option (Kind Inode) :=
  match header.typeflag with
  | .dir => some .dir
  | .reg => some (.leaf (.file header.body))
  | .symlink => some (.leaf (.link header.linkname))
  | .link =>
    match t (linkPath header) with
    | some (.leaf inode) => some (.leaf inode)
    | _ => none
  | .other => none

def applyEntry (t : ImageTree) (header : Header) : ImageTree :=
  if entryPath header = [] then t
  else
    match entryKind t header with
    | none => t
    | some k => t.put (entryPath header) k

def whiteoutStart : Name := ".wh.".toList

def opaqueWhiteout : Name := ".wh..wh..opq".toList

def whiteoutName (name : Name) : Bool :=
  whiteoutStart.isPrefixOf name

def isWhiteout (p : List Name) : Bool :=
  p.getLast?.any whiteoutName

def hides (header : Header) (p : List Name) : Bool :=
  match (entryPath header).getLast? with
  | none => false
  | some name =>
    let dir := (entryPath header).dropLast
    if name = opaqueWhiteout then dir.isPrefixOf p && p ≠ dir
    else whiteoutName name && (dir ++ [name.drop whiteoutStart.length]).isPrefixOf p

def hide (headers : List Header) (lower : ImageTree) : ImageTree := fun p =>
  if headers.any fun header => hides header p then none else lower p

def plainEntries (headers : List Header) : List Header :=
  headers.filter fun header => !isWhiteout (entryPath header)

def applyLayer (lower : ImageTree) (headers : List Header) : ImageTree :=
  (plainEntries headers).foldl applyEntry (hide headers lower)

def applyLayers (layers : List (List Header)) : ImageTree :=
  layers.foldl applyLayer Tree.bare

def unseen {α : Type*} [DecidableEq α] (seen : List α) : List α → List α
  | [] => []
  | p :: ps => if p ∈ seen then unseen seen ps else p :: unseen (p :: seen) ps

def lowerDirs {α : Type*} [DecidableEq α] (layerPaths : List α) : List α :=
  unseen [] layerPaths.reverse

def osReleasePaths : List (List Name) :=
  [["etc".toList, "os-release".toList], ["usr".toList, "lib".toList, "os-release".toList]]

def syntheticOSRelease : List UInt8 :=
  "NAME=Periapsis\nID=periapsis\nPRETTY_NAME=\"Periapsis Pawn\"\n".toUTF8.toList

def ensureOSRelease (found : ImageTree → List Name → Bool) (merged : ImageTree) : ImageTree :=
  if osReleasePaths.any (found merged) then merged
  else merged.put ["usr".toList, "lib".toList, "os-release".toList]
    (.leaf (.file syntheticOSRelease))

/-- What is seen under an empty upper directory; `dirs` tells what is in the layers, and `found`
what the mount shows. -/
def mount {α : Type*} [DecidableEq α] (found : ImageTree → List Name → Bool)
    (dirs : α → ImageTree) (layerPaths : List α) : ImageTree :=
  ensureOSRelease found
    ((Tree.bare :: (lowerDirs layerPaths).map dirs).foldr Tree.overlay Tree.bare)

def layerTree (headers : List Header) : ImageTree :=
  headers.foldl applyEntry Tree.bare

/-- The entry fits in what the entries before it have come to. -/
structure Fits (t : ImageTree) (header : Header) : Prop where
  relative : (parse header.name).rooted = false
  proper : ∀ n ∈ entryPath header, Path.Proper n
  root : entryPath header = [] → header.typeflag = .dir
  above : t.blocks (entryPath header).dropLast = false
  dir : header.typeflag = .dir → t.blocks (entryPath header) = false
  reg : header.typeflag = .reg → t (entryPath header) = none ∧ header.complete = true
  symlink : header.typeflag = .symlink → t (entryPath header) ≠ some .dir ∧ header.linkname ≠ []
  link : header.typeflag = .link → t (entryPath header) ≠ some .dir
    ∧ (∀ n ∈ linkPath header, Path.Proper n) ∧ linkPath header ≠ entryPath header
    ∧ isWhiteout (linkPath header) = false ∧ (t (linkPath header)).any Kind.isLeaf = true
  known : header.typeflag ≠ .other
  whiteout : isWhiteout (entryPath header) = true → header.typeflag = .reg
  plain : ∀ n ∈ (entryPath header).dropLast, whiteoutName n = false

def Regular (t : ImageTree) : List Header → Prop
  | [] => True
  | header :: headers => Fits t header ∧ Regular (applyEntry t header) headers

def Covered (headers : List Header) (above : List (List Header)) : Prop :=
  ∀ header ∈ headers, isWhiteout (entryPath header) = true
    → ∃ upper ∈ above, (layerTree upper).blocks (entryPath header).dropLast = true

def WhiteoutsCovered : List (List Header) → Prop
  | [] => True
  | headers :: above => Covered headers above ∧ WhiteoutsCovered above

instance decidableProper (name : Name) : Decidable (Path.Proper name) :=
  inferInstanceAs (Decidable (name ≠ dot ∧ name ≠ dotDot))

instance decidableFits (t : ImageTree) (header : Header) : Decidable (Fits t header) :=
  decidable_of_iff
    ((parse header.name).rooted = false ∧ (∀ n ∈ entryPath header, Path.Proper n)
      ∧ (entryPath header = [] → header.typeflag = .dir)
      ∧ t.blocks (entryPath header).dropLast = false
      ∧ (header.typeflag = .dir → t.blocks (entryPath header) = false)
      ∧ (header.typeflag = .reg → t (entryPath header) = none ∧ header.complete = true)
      ∧ (header.typeflag = .symlink → t (entryPath header) ≠ some .dir ∧ header.linkname ≠ [])
      ∧ (header.typeflag = .link → t (entryPath header) ≠ some .dir
        ∧ (∀ n ∈ linkPath header, Path.Proper n) ∧ linkPath header ≠ entryPath header
        ∧ isWhiteout (linkPath header) = false ∧ (t (linkPath header)).any Kind.isLeaf = true)
      ∧ header.typeflag ≠ .other
      ∧ (isWhiteout (entryPath header) = true → header.typeflag = .reg)
      ∧ ∀ n ∈ (entryPath header).dropLast, whiteoutName n = false)
    ⟨fun ⟨h₁, h₂, h₃, h₄, h₅, h₆, h₇, h₈, h₉, h₁₀, h₁₁⟩ =>
        ⟨h₁, h₂, h₃, h₄, h₅, h₆, h₇, h₈, h₉, h₁₀, h₁₁⟩,
      fun ⟨h₁, h₂, h₃, h₄, h₅, h₆, h₇, h₈, h₉, h₁₀, h₁₁⟩ =>
        ⟨h₁, h₂, h₃, h₄, h₅, h₆, h₇, h₈, h₉, h₁₀, h₁₁⟩⟩

instance decidableRegular : (t : ImageTree) → (headers : List Header) →
    Decidable (Regular t headers)
  | _, [] => isTrue trivial
  | t, header :: headers =>
    have := decidableRegular (applyEntry t header) headers
    inferInstanceAs (Decidable (Fits t header ∧ Regular (applyEntry t header) headers))

instance decidableCovered (headers : List Header) (above : List (List Header)) :
    Decidable (Covered headers above) :=
  inferInstanceAs (Decidable (∀ header ∈ headers, isWhiteout (entryPath header) = true
    → ∃ upper ∈ above, (layerTree upper).blocks (entryPath header).dropLast = true))

instance decidableWhiteoutsCovered : (layers : List (List Header)) →
    Decidable (WhiteoutsCovered layers)
  | [] => isTrue trivial
  | headers :: above =>
    have := decidableWhiteoutsCovered above
    inferInstanceAs (Decidable (Covered headers above ∧ WhiteoutsCovered above))

/-! ### Repeated layers -/

open List

inductive LayerEntry where
  | inode (inode : Inode)
  | dir (isOpaque : Bool)
  | whiteout
  deriving DecidableEq

abbrev LayerDir := List Name → Option LayerEntry

variable {α : Type*} (dirs : α → LayerDir)

def seenAt (p : List Name) : List α → Option (Kind Inode)
  | [] => none
  | a :: as =>
    match dirs a p with
    | none => seenAt p as
    | some (.inode inode) => some (.leaf inode)
    | some (.dir _) => some .dir
    | some .whiteout => none

def mergedAt (p : List Name) : List α → List α
  | [] => []
  | a :: as =>
    match dirs a p with
    | none => mergedAt p as
    | some (.dir isOpaque) => a :: if isOpaque then [] else mergedAt p as
    | some _ => []

def lookupFrom (dir : List Name) (layers : List α) : List Name → Option (Kind Inode)
  | [] => some .dir
  | [n] => seenAt dirs (dir ++ [n]) layers
  | n :: m :: p => lookupFrom (dir ++ [n]) (mergedAt dirs (dir ++ [n]) layers) (m :: p)

def overlayView (layers : List α) : ImageTree := lookupFrom dirs [] layers

variable {dirs} {p : List Name}

theorem ne_none_of_mem_mergedAt (h : a ∈ mergedAt dirs p as) :
  dirs a p ≠ none
  := by
  induction as with
  | nil => cases h
  | cons b as ih =>
    rw [mergedAt] at h
    split at h
    · apply ih h
    next hb =>
      rcases mem_cons.1 h with rfl | h
      · simp [hb]
      · split at h
        · cases h
        · apply ih h
    · cases h

variable [DecidableEq α]

theorem unseen_congr {s t : List α} (h : ∀ a ∈ as, a ∈ s ↔ a ∈ t) :
  unseen s as = unseen t as
  := by
  induction as generalizing s t with
  | nil => rfl
  | cons a as ih =>
    rw [forall_mem_cons] at h
    rw [unseen, unseen, if_congr h.1 (ih h.2) rfl, ih (s := a :: s) (t := a :: t)]
    intro b hb
    rw [mem_cons, mem_cons, h.2 b hb]

theorem seenAt_unseen (hs : ∀ a ∈ s, dirs a p = none) (as : List α) :
  seenAt dirs p (unseen s as) = seenAt dirs p as
  := by
  induction as generalizing s with
  | nil => rfl
  | cons a as ih =>
    rw [unseen]
    split
    next ha => rw [ih hs, seenAt, hs a ha]
    · rw [seenAt, seenAt]
      cases ha : dirs a p with
      | none => apply ih (forall_mem_cons.2 ⟨ha, hs⟩)
      | some e => cases e with
        | _ => rfl

theorem mergedAt_unseen {s : List α} (hs : ∀ a ∈ s, dirs a p = none ∨ dirs a p = some (.dir false))
    (as : List α) :
  mergedAt dirs p (unseen s as) = unseen s (mergedAt dirs p as)
  := by
  induction as generalizing s with
  | nil => rfl
  | cons a as ih =>
    rw [unseen]
    split
    next ha =>
      rw [ih hs, mergedAt]
      rcases hs a ha with h | h
      · rw [h]
      · simp [h, unseen, ha]
    next ha =>
      rw [mergedAt, mergedAt]
      cases h : dirs a p with
      | none =>
        rw [ih (forall_mem_cons.2 ⟨.inl h, hs⟩)]
        apply unseen_congr
        intro b hb
        rw [mem_cons, or_iff_right]
        rintro rfl
        exact ne_none_of_mem_mergedAt hb h
      | some e =>
        cases e with
        | dir isOpaque =>
          rw [unseen, if_neg ha]
          cases isOpaque with
          | true => rfl
          | false => simp [ih (forall_mem_cons.2 ⟨.inr h, hs⟩)]
        | _ => rfl

theorem lookupFrom_unseen (dir : List Name) (as : List α) (p : List Name) :
  lookupFrom dirs dir (unseen [] as) p = lookupFrom dirs dir as p
  := by
  induction p generalizing dir as with
  | nil => rfl
  | cons n p ih =>
    cases p with
    | nil => exact seenAt_unseen (by simp) as
    | cons m p =>
      rw [lookupFrom, mergedAt_unseen (by simp), ih]
      rfl

theorem overlayView_lowerDirs (dirs : α → LayerDir) (layerPaths : List α) :
  overlayView dirs (lowerDirs layerPaths) = overlayView dirs layerPaths.reverse
  := funext (lookupFrom_unseen [] layerPaths.reverse)

end Periapsis.Image
