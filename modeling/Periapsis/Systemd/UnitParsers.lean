import Periapsis.Foci.Reduce
import Periapsis.Systemd.UnitName

/-!
# The two parsers of unit names

The watcher reads names with that of its pawn at hand (`parseUnitName`); the reducer goes to the
first `-pod-` (`parseContainerFromUnit`).
-/

namespace Periapsis.Systemd

open Text Foci List Option Nat

def sliceContainerFromUnit (unitName : String) : Option String :=
  let unit := unitName.toList
  let suffix := ".service".toList
  if !suffix.isSuffixOf unit then some ""
  else
    match index "perigeos-".toList unit with
    | none => some ""
    | some idx => do
      let rest ← slice unit (idx + "perigeos-".length) unit.length
      match index "-pod-".toList rest with
      | none => some ""
      | some podIdx => do
        let afterPod ← slice rest (podIdx + 5) rest.length
        if afterPod.length < suffix.length then none
        else
          let afterPod ← slice afterPod 0 (afterPod.length - suffix.length)
          if afterPod.length < 38 then some ""
          else (slice afterPod 37 afterPod.length).map String.ofList

section Index

variable (sub : List Char) {s : List Char} {i j : Nat}

theorem prefix_of_index (h : index sub s = some i) :
  sub <+: s.drop i
  := by
  induction s generalizing i with
  | nil =>
    simp only [index, ite_none_right_eq_some, some_inj] at h
    rw [isEmpty_iff.1 h.1]
    apply nil_prefix
  | cons c s ih =>
    rw [index] at h
    split_ifs at h with hp
    · cases h
      exact isPrefixOf_iff_prefix.1 hp
    · obtain ⟨i', hi', rfl⟩ := map_eq_some_iff.1 h
      exact ih hi'

theorem exists_index_le (hj : sub <+: s.drop j) (hl : j ≤ s.length) :
  ∃ i ≤ j, index sub s = some i
  := by
  induction s generalizing j with
  | nil =>
    rw [drop_nil, prefix_nil] at hj
    exact ⟨0, zero_le _, by simp [index, hj]⟩
  | cons c s ih =>
    rw [index]
    split_ifs with hp
    · exact ⟨0, zero_le _, rfl⟩
    · cases j with
      | zero => exact absurd (List.isPrefixOf_iff_prefix.2 hj) hp
      | succ j =>
        obtain ⟨i, hi, hin⟩ := ih hj (le_of_succ_le_succ hl)
        exact ⟨i + 1, succ_le_succ hi, by rw [hin, map_some]⟩

theorem exists_drop_of_index {suf : List Char} {a : Char}
    (h : index (sub ++ [a]) s = some i) (hsf : suf <:+ s) (ha : a ∉ suf) :
  ∃ y, s.drop (i + (sub ++ [a]).length) = y ++ suf ∧ i + (sub ++ [a]).length ≤ s.length
  := by
  obtain ⟨z, hz⟩ := prefix_of_index _ h
  have hs : s = s.take i ++ sub ++ [a] ++ z := by
    rw [append_assoc (s.take i), append_assoc (s.take i), hz, take_append_drop]
  have hi : i ≤ s.length := by
    by_contra hlt
    rw [drop_of_length_le (Nat.le_of_not_le hlt)] at hz
    simp at hz
  have hpr : s.take i ++ sub ++ [a] <+: s := ⟨z, hs.symm⟩
  obtain ⟨y, hy⟩ := eq_append_of_affixes hpr hsf ha
  have hl : (s.take i ++ sub ++ [a]).length = i + (sub ++ [a]).length := by
    simp [min_eq_left hi]
  refine ⟨y, ?_, ?_⟩
  · rw [← hl]
    nth_rw 2 [hy]
    rw [append_assoc _ y, drop_left]
  · rw [← hl]
    exact hpr.length_le

end Index

theorem slice_to_end {α : Type*} {s : List α} {i : Nat} (h : i ≤ s.length) :
  slice s i s.length = some (s.drop i)
  := by
  rw [slice, if_pos ⟨h, le_rfl⟩, take_length]

theorem sliceContainerFromUnit_eq :
  sliceContainerFromUnit unitName = some (parseContainerFromUnit unitName)
  := by
  rw [sliceContainerFromUnit, parseContainerFromUnit]
  split_ifs with hsu
  · rfl
  rw [Bool.not_eq_true, Bool.not_eq_false', isSuffixOf_iff_suffix] at hsu
  cases hix : index "perigeos-".toList unitName.toList with
  | none => rfl
  | some idx =>
    obtain ⟨rest, hr, hbo⟩ :=
      exists_drop_of_index "perigeos".toList (a := '-') hix hsu (by decide)
    change unitName.toList.drop (idx + "perigeos-".length) = _ at hr
    change idx + "perigeos-".length ≤ _ at hbo
    simp only [slice_to_end hbo, hr, bind_eq_bind, bind_some]
    cases hpo : index "-pod-".toList (rest ++ ".service".toList) with
    | none => rfl
    | some podIdx =>
      obtain ⟨inner, hie, hb⟩ := exists_drop_of_index "-pod".toList (a := '-')
        hpo (suffix_append _ _) (by decide)
      change drop (podIdx + 5) _ = _ at hie
      change podIdx + 5 ≤ _ at hb
      have hla : slice (inner ++ ".service".toList) 0
          ((inner ++ ".service".toList).length - ".service".toList.length) = some inner :=
        slice_append [] inner ".service".toList
      have hlo : ¬ (inner ++ ".service".toList).length < ".service".toList.length := by simp
      have ht : (inner ++ ".service".toList).take
          ((inner ++ ".service".toList).length - ".service".toList.length) = inner := by simp
      simp only [slice_to_end hb, hie, bind_some, if_neg hlo, hla, ht]
      split_ifs with hsh
      · rfl
      · rw [slice_to_end (by omega), map_some]

theorem parseUnitName_wrapper (pawnName : String) {podUID : String} (containerName : String)
    (hui : podUID.length = 36) :
  parseUnitName pawnName (wrapperUnitName pawnName podUID containerName)
    = some (if containerName = "" then ("", "") else (podUID, containerName))
  := by
  have hu : podUID.toList.length = 36 := hui
  have hn : (wrapperUnitName pawnName podUID containerName).toList
      = (unitPrefix pawnName).toList ++ (podUID.toList ++ '-' :: containerName.toList)
        ++ ".service".toList := by
    rw [unitPrefix_append, toList_wrapperUnitName, append_assoc _ podUID.toList]
  have hem : containerName.toList.length = 0 ↔ containerName = "" := by
    rw [length_eq_zero_iff, String.toList_eq_nil_iff]
  have ht : (podUID.toList ++ '-' :: containerName.toList).take 36 = podUID.toList := by
    rw [← hu, take_left]
  have hd : (podUID.toList ++ '-' :: containerName.toList).drop 37 = containerName.toList := by
    simp [drop_append, hu]
  rw [parseUnitName_append hn, ht, hd, String.ofList_toList, String.ofList_toList]
  congr 2
  rw [eq_iff_iff, ← hem, length_append, length_cons]
  omega

/-- The name of a unit is read back by the parser of the watcher, and no slice of either parser is
out of bounds, for any text. -/
theorem parseUnitName_wrapperUnitName :
  (∀ pawnName podUID containerName : String, podUID.length = 36 → containerName ≠ "" →
      parseUnitName pawnName (wrapperUnitName pawnName podUID containerName)
        = some (podUID, containerName))
    ∧ ∀ pawnName unitName,
      parseUnitName pawnName unitName ≠ none ∧ sliceContainerFromUnit unitName ≠ none
  := by
  constructor
  · intro pawnName podUID containerName hui hc
    rw [parseUnitName_wrapper pawnName containerName hui, if_neg hc]
  · intro pawnName unitName
    constructor
    · rcases parseUnitName_eq_or pawnName unitName with hpa | ⟨inner, hun⟩
      · rw [hpa]
        simp
      · rw [parseUnitName_append hun]
        simp
    · rw [sliceContainerFromUnit_eq]
      simp

def sampleUID : String := "123e4567-e89b-12d3-a456-426614174000"

theorem parseUnitName_wrapperUnitName_web :
  parseUnitName "a" (wrapperUnitName "a" sampleUID "web") = some (sampleUID, "web")
  := parseUnitName_wrapperUnitName.1 "a" sampleUID "web" rfl (by decide)

theorem parseContainerFromUnit_wrapper {pawnName podUID containerName : String} {k : Nat}
    (hk : k ≤ pawnName.toList.length)
    (hin : index "-pod-".toList (pawnName.toList ++ "-pod-".toList ++ podUID.toList
      ++ '-' :: containerName.toList ++ ".service".toList) = some k) :
  ∃ y : List Char, y.length = pawnName.toList.length - k
    ∧ (parseContainerFromUnit (wrapperUnitName pawnName podUID containerName)).toList
      = (y ++ podUID.toList ++ '-' :: containerName.toList).drop 37
  := by
  let y := (pawnName.toList ++ "-pod-".toList).drop (k + 5)
  let inner := y ++ podUID.toList ++ '-' :: containerName.toList
  refine ⟨y, by simp [y], ?_⟩
  have hpe : index "perigeos-".toList
      (wrapperUnitName pawnName podUID containerName).toList = some 0 := by
    obtain ⟨i, hi, hf⟩ := exists_index_le "perigeos-".toList (j := 0)
      (s := (wrapperUnitName pawnName podUID containerName).toList)
      (by rw [toList_wrapperUnitName, append_assoc]; apply prefix_append)
      (zero_le _)
    rw [hf, le_zero.1 hi]
  have hsu : ".service".toList.isSuffixOf
      (wrapperUnitName pawnName podUID containerName).toList := by
    rw [toList_wrapperUnitName, isSuffixOf_iff_suffix]
    apply suffix_append
  have hr : (wrapperUnitName pawnName podUID containerName).toList.drop
      (0 + "perigeos-".length) = pawnName.toList ++ "-pod-".toList ++ podUID.toList
        ++ '-' :: containerName.toList ++ ".service".toList := by
    rw [toList_wrapperUnitName, append_assoc, zero_add]
    apply drop_left
  have haf : (pawnName.toList ++ "-pod-".toList ++ podUID.toList
      ++ '-' :: containerName.toList ++ ".service".toList).drop (k + 5)
        = inner ++ ".service".toList := by
    have hle : k + 5 ≤ (pawnName.toList ++ "-pod-".toList).length := by simp [hk]
    rw [append_assoc, append_assoc (pawnName.toList ++ "-pod-".toList),
      drop_append_of_le_length hle]
    simp [inner, y]
  have ht : (inner ++ ".service".toList).take
      ((inner ++ ".service".toList).length - ".service".toList.length) = inner := by simp
  rw [parseContainerFromUnit, hsu, hpe]
  simp only [hr, hin, haf, ht, Bool.not_true, Bool.false_eq_true, if_false]
  split_ifs with hsh
  · rw [drop_of_length_le (le_of_lt_succ hsh)]
    rfl
  · rw [String.toList_ofList]

/-- Both parsers find the same container exactly if no `-pod-` is in the name of the pawn, or
begins there. -/
theorem parsers_agree_iff (pawnName : String) {podUID : String} (containerName : String)
    (huid : podUID.length = 36) :
  (parseUnitName pawnName (wrapperUnitName pawnName podUID containerName)).map Prod.snd
      = some (parseContainerFromUnit (wrapperUnitName pawnName podUID containerName))
    ↔ ¬ "-pod-".toList <:+: pawnName.toList ++ "-pod".toList
  := by
  have hu : podUID.toList.length = 36 := huid
  set rest := pawnName.toList ++ "-pod-".toList ++ podUID.toList
    ++ '-' :: containerName.toList ++ ".service".toList with hr
  have hre : rest = pawnName.toList ++ "-pod".toList
      ++ ('-' :: podUID.toList ++ '-' :: containerName.toList ++ ".service".toList) := by
    simp [hr]
  obtain ⟨k, hk, hin⟩ := exists_index_le "-pod-".toList (j := pawnName.toList.length)
    (s := rest) (by simp [hr]) (by simp [hr])
  obtain ⟨y, hy, hpa⟩ := parseContainerFromUnit_wrapper hk hin
  have hsn : (if containerName = "" then ("", "") else (podUID, containerName)).2
      = containerName := by
    split_ifs with hem
    · exact hem.symm
    · rfl
  rw [parseUnitName_wrapper pawnName containerName huid, map_some, hsn, some_inj,
    ← String.toList_inj, hpa]
  have hfo : k = pawnName.toList.length
      ↔ ¬ "-pod-".toList <:+: pawnName.toList ++ "-pod".toList := by
    constructor
    · rintro rfl ⟨a, b, hab⟩
      have hl := congrArg length hab
      simp at hl
      obtain ⟨i, hi, hid⟩ := exists_index_le "-pod-".toList (j := a.length)
        (s := rest) (by rw [hre, ← hab]; simp) (by rw [hre, ← hab]; simp)
      rw [hin] at hid
      cases hid
      omega
    · intro hno
      by_contra hne
      have hlt : k + 5 ≤ (pawnName.toList ++ "-pod".toList).length := by
        simp
        omega
      have hp := prefix_of_index _ hin
      rw [hre, drop_append_of_le_length (by omega)] at hp
      have hd := prefix_of_prefix_length_le hp (prefix_append _ _)
        (by rw [length_drop]; exact Nat.le_sub_of_add_le' hlt)
      exact hno (hd.isInfix.trans (drop_suffix _ _).isInfix)
  rw [← hfo]
  constructor
  · intro heq
    have hl := congrArg length heq
    simp [hu, hy] at hl
    omega
  · rintro rfl
    rw [Nat.sub_self, length_eq_zero_iff] at hy
    simp [hy, drop_append, hu]

theorem parsers_agree_web :
  (parseUnitName "a" (wrapperUnitName "a" sampleUID "web")).map Prod.snd
    = some (parseContainerFromUnit (wrapperUnitName "a" sampleUID "web"))
  := (parsers_agree_iff "a" "web" rfl).mpr (by decide)

theorem parsers_disagree :
  Config.AcceptedTogether Config.anyParsers "a" "a-pod-x"
    ∧ parseUnitName "a-pod-x" (wrapperUnitName "a-pod-x" sampleUID "web")
        = some (sampleUID, "web")
    ∧ parseContainerFromUnit (wrapperUnitName "a-pod-x" sampleUID "web") = "74000-web"
  := by
  have hra : Config.Reads Config.anyParsers "1Gi" := ⟨⟨(), rfl⟩, ⟨(), rfl⟩, ⟨[], rfl⟩⟩
  refine ⟨(Config.acceptedTogether_iff hra _ _).mpr (by decide), ?_, ?_⟩
  · exact parseUnitName_wrapper "a-pod-x" "web" rfl
  · decide +kernel

end Periapsis.Systemd
