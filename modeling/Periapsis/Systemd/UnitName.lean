import Periapsis.Config.Process
import Periapsis.Text.Affix
import Periapsis.Text.Glob

/-!
# The names of units

A container of a pod runs in a unit named after the pawn, the UID of the pod and the container.
-/

namespace Periapsis.Systemd

open Text List

def wrapperUnitName (pawnName podUID containerName : String) : String :=
  "perigeos-" ++ pawnName ++ "-pod-" ++ podUID ++ "-" ++ containerName ++ ".service"

def unitPrefix (pawnName : String) : String :=
  "perigeos-" ++ pawnName ++ "-pod-"

def listingPattern (pawnName : String) : String :=
  "perigeos-" ++ pawnName ++ "-pod-*.service"

def Listed (b : Brackets) (pawnName unitName : String) : Prop :=
  b.glob (listingPattern pawnName).toList unitName.toList = true

def parseUnitName (pawnName unitName : String) : Option (String × String) :=
  let unit := unitName.toList
  let pre := (unitPrefix pawnName).toList
  let suffix := ".service".toList
  if !pre.isPrefixOf unit || !suffix.isSuffixOf unit then some ("", "")
  else do
    let inner ← slice unit pre.length (unit.length - suffix.length)
    if inner.length < 38 then some ("", "")
    else
      let uid ← slice inner 0 36
      let containerName ← slice inner 37 inner.length
      some (String.ofList uid, String.ofList containerName)

variable {pawnName : String}

@[simp]
theorem toList_wrapperUnitName :
  (wrapperUnitName pawnName podUID containerName).toList
    = "perigeos-".toList ++ (pawnName.toList ++ "-pod-".toList ++ podUID.toList
        ++ '-' :: containerName.toList) ++ ".service".toList
  := by
  unfold wrapperUnitName
  simp only [String.toList_append, append_assoc, cons_append]
  rfl

variable {inner : List Char}

theorem unitPrefix_append :
  (unitPrefix pawnName).toList ++ inner ++ ".service".toList
    = "perigeos-".toList ++ (pawnName.toList ++ "-pod-".toList ++ inner) ++ ".service".toList
  := by
  simp only [unitPrefix, String.toList_append, append_assoc]

variable {unitName : String}

theorem parseUnitName_append
    (h : unitName.toList = (unitPrefix pawnName).toList ++ inner ++ ".service".toList) :
  parseUnitName pawnName unitName
    = some (if inner.length < 38 then ("", "")
        else (String.ofList (inner.take 36), String.ofList (inner.drop 37)))
  := by
  have hpr : (unitPrefix pawnName).toList.isPrefixOf unitName.toList := by
    rw [h, isPrefixOf_iff_prefix, append_assoc]
    apply prefix_append
  have hsu : ".service".toList.isSuffixOf unitName.toList := by
    rw [h, isSuffixOf_iff_suffix]
    apply suffix_append
  rw [parseUnitName, hpr, hsu, h, slice_append]
  by_cases hs : inner.length < 38
  · simp [hs]
  · have h0 : slice inner 0 36 = some (inner.take 36) := by
      rw [slice, if_pos (by omega), drop_zero]
    have h37 : slice inner 37 inner.length = some (inner.drop 37) := by
      rw [slice, if_pos (by omega), take_length]
    simp [hs, h0, h37]

theorem parseUnitName_eq_or (pawnName unitName : String) :
  parseUnitName pawnName unitName = some ("", "")
    ∨ ∃ inner, unitName.toList = (unitPrefix pawnName).toList ++ inner ++ ".service".toList
  := by
  rw [parseUnitName]
  split
  · left
    rfl
  next ha =>
    right
    simp only [Bool.or_eq_true, Bool.not_eq_true', not_or, Bool.not_eq_false,
      isPrefixOf_iff_prefix, isSuffixOf_iff_suffix] at ha
    have hla : (unitPrefix pawnName).toList
        = ("perigeos-" ++ pawnName ++ "-pod").toList ++ ['-'] := by
      simp [unitPrefix]
    rw [hla] at ha ⊢
    apply eq_append_of_affixes ha.1 ha.2
    decide

theorem parseUnitName_fst_iff :
  (parseUnitName pawnName unitName).map Prod.fst ≠ some ""
    ↔ ∃ inner, unitName.toList = (unitPrefix pawnName).toList ++ inner ++ ".service".toList
        ∧ 38 ≤ inner.length
  := by
  constructor
  · intro h
    rcases parseUnitName_eq_or pawnName unitName with hp | ⟨inner, hu⟩
    · rw [hp] at h
      simp at h
    · refine ⟨inner, hu, ?_⟩
      by_contra hs
      rw [parseUnitName_append hu, if_pos (by omega)] at h
      simp at h
  · rintro ⟨inner, hu, hle⟩ h
    rw [parseUnitName_append hu, if_neg (by omega)] at h
    have hem : (inner.take 36).length = 0 := by simpa using h
    rw [length_take] at hem
    omega

theorem listed_iff {b : Brackets} :
  Listed b pawnName unitName
    ↔ ∃ x inner, b.glob pawnName.toList x
        ∧ unitName.toList
            = "perigeos-".toList ++ (x ++ "-pod-".toList ++ inner) ++ ".service".toList
  := by
  have hpa : (listingPattern pawnName).toList
      = "perigeos-".toList ++ (pawnName.toList ++ ("-pod-".toList ++ (['*'] ++ ".service".toList)))
      := by
    simp [listingPattern]
  have hpe : Brackets.Plain "perigeos-".toList := by
    simp [Brackets.Plain]
  have hpo : Brackets.Plain "-pod-".toList := by
    simp [Brackets.Plain]
  have hse : Brackets.Plain ".service".toList := by
    simp [Brackets.Plain]
  have hre : ']' ∉ "-pod-".toList ++ (['*'] ++ ".service".toList) := by decide
  have hen : ']' ∉ ".service".toList := by decide
  rw [Listed, hpa, Brackets.glob_plain_append hpe]
  simp only [Brackets.glob_append hre, Brackets.glob_plain_append hpo,
    Brackets.glob_append hen, Brackets.glob_of_plain hse, Brackets.glob_star]
  constructor
  · rintro ⟨_, hu, x, _, rfl, hx, _, rfl, inner, _, rfl, -, rfl⟩
    exact ⟨x, inner, hx, by simpa using hu⟩
  · rintro ⟨x, inner, hx, hu⟩
    exact ⟨_, hu.trans (append_assoc _ _ _), x, _, by simp, hx, _, rfl, inner, _, rfl,
      trivial, rfl⟩

/-- A unit of `q` has a name in which `x` stands for the pawn: with `-pod-`, one name begins the
other, and the rest of `x` leaves room for the UID, or has a hyphen behind it. -/
def Collides (x q : List Char) : Prop :=
  x ++ "-pod-".toList <+: q ++ "-pod-".toList
    ∨ ∃ w, x ++ "-pod-".toList = q ++ "-pod-".toList ++ w
        ∧ (w.length ≤ 36 ∨ w[36]? = some '-')

variable {x q : List Char}

theorem collides_of_eq {uid c : List Char} (hui : uid.length = 36)
    (h : x ++ "-pod-".toList ++ inner = q ++ "-pod-".toList ++ uid ++ '-' :: c) :
  Collides x q
  := by
  rw [append_assoc _ uid] at h
  rcases append_eq_append_iff.1 h with ⟨y, hq, -⟩ | ⟨w, hx, hw⟩
  · left
    exact ⟨y, hq.symm⟩
  · right
    refine ⟨w, hx, ?_⟩
    rcases Nat.lt_or_ge 36 w.length with hlo | hs
    · right
      have hlf : (w ++ inner)[36]? = w[36]? := getElem?_append_left hlo
      rw [← hlf, ← hw, ← hui, getElem?_append_right le_rfl, Nat.sub_self]
      rfl
    · left
      exact hs

theorem Collides.exists_eq (h : Collides x q) :
  ∃ uid c inner, uid.length = 36 ∧ 38 ≤ inner.length
    ∧ x ++ "-pod-".toList ++ inner = q ++ "-pod-".toList ++ uid ++ '-' :: c
  := by
  let zeros (n : Nat) : List Char := replicate n '0'
  rcases h with ⟨y, hq⟩ | ⟨w, hx, hs | hh⟩
  · refine ⟨zeros 36, ['0'], y ++ zeros 36 ++ ['-', '0'], by simp [zeros], by simp [zeros], ?_⟩
    rw [← hq]
    simp
  · refine ⟨w ++ zeros (36 - w.length), zeros 38, zeros (36 - w.length) ++ '-' :: zeros 38,
      by simp [zeros, hs], by simp [zeros], ?_⟩
    rw [hx]
    simp
  · obtain ⟨hlo, hg⟩ := List.getElem?_eq_some_iff.1 hh
    have hw : w.take 36 ++ '-' :: w.drop 37 = w := by
      rw [← hg, getElem_cons_drop, take_append_drop]
    refine ⟨w.take 36, w.drop 37 ++ zeros 38, zeros 38, by simp; omega, by simp [zeros], ?_⟩
    calc x ++ "-pod-".toList ++ zeros 38
        = q ++ "-pod-".toList ++ (w.take 36 ++ '-' :: w.drop 37) ++ zeros 38 := by rw [hx, hw]
      _ = q ++ "-pod-".toList ++ w.take 36 ++ '-' :: (w.drop 37 ++ zeros 38) := by simp

/-- The pawn `p` neither lists the units of the pawn `q` nor reads a UID off their names. -/
def Unseen (b : Brackets) (p q : String) : Prop :=
  ∀ uid c : String, uid.length = 36 →
    ¬ Listed b p (wrapperUnitName q uid c)
      ∧ (parseUnitName p (wrapperUnitName q uid c)).map Prod.fst = some ""

/-- A pawn never takes a unit of another one for its own exactly if neither its name nor a text
that matches its name as a pattern collides with the name of the other. -/
theorem unseen_iff (b : Brackets) (p q : String) :
  Unseen b p q
    ↔ ∀ x, x = p.toList ∨ b.glob p.toList x = true → ¬ Collides x q.toList
  := by
  have hu (uid c : String) (x inner : List Char) :
      (wrapperUnitName q uid c).toList
          = "perigeos-".toList ++ (x ++ "-pod-".toList ++ inner) ++ ".service".toList
        ↔ x ++ "-pod-".toList ++ inner
          = q.toList ++ "-pod-".toList ++ uid.toList ++ '-' :: c.toList := by
    rw [toList_wrapperUnitName, append_left_inj, append_right_inj]
    exact eq_comm
  constructor
  · intro h x hx hc
    obtain ⟨uid, c, inner, hui, hle, heq⟩ := hc.exists_eq
    obtain ⟨hl, hp⟩ := h (String.ofList uid) (String.ofList c) (by simpa using hui)
    have hn := (hu (String.ofList uid) (String.ofList c) x inner).mpr (by simpa using heq)
    rcases hx with rfl | hx
    · apply parseUnitName_fst_iff.mpr ⟨inner, _, hle⟩ hp
      rw [unitPrefix_append, hn]
    · apply hl
      exact listed_iff.mpr ⟨x, inner, hx, hn⟩
  · intro h uid c hui
    constructor
    · intro hl
      obtain ⟨x, inner, hx, hn⟩ := listed_iff.mp hl
      exact h x (.inr hx) (collides_of_eq hui ((hu _ _ _ _).mp hn))
    · by_contra hp
      obtain ⟨inner, hn, -⟩ := parseUnitName_fst_iff.mp hp
      rw [unitPrefix_append] at hn
      exact h _ (.inl rfl) (collides_of_eq hui ((hu _ _ _ _).mp hn))

/-- The configuration accepts pawns named `a` and `a-pod-x`, and the first one lists a unit of
the second one and reads a UID off its name, which is not that of the pod. -/
theorem seen_by_other_pawn :
  Config.AcceptedTogether Config.anyParsers "a" "a-pod-x"
    ∧ Listed noBrackets "a"
        (wrapperUnitName "a-pod-x" "123e4567-e89b-12d3-a456-426614174000" "web")
    ∧ parseUnitName "a" (wrapperUnitName "a-pod-x" "123e4567-e89b-12d3-a456-426614174000" "web")
        = some ("x-pod-123e4567-e89b-12d3-a456-426614", "74000-web")
  := by
  have hr : Config.Reads Config.anyParsers "1Gi" := ⟨⟨(), rfl⟩, ⟨(), rfl⟩, ⟨[], rfl⟩⟩
  have hn : (wrapperUnitName "a-pod-x" "123e4567-e89b-12d3-a456-426614174000" "web").toList
      = "perigeos-".toList ++ ("a".toList ++ "-pod-".toList
          ++ "x-pod-123e4567-e89b-12d3-a456-426614174000-web".toList) ++ ".service".toList := by
    rfl
  refine ⟨(Config.acceptedTogether_iff hr _ _).mpr (by decide), ?_, ?_⟩
  · apply listed_iff.mpr
    exact ⟨_, _, rfl, hn⟩
  · rw [← unitPrefix_append] at hn
    rfl

end Periapsis.Systemd
