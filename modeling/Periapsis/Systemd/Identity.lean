import Mathlib.Data.List.TakeWhile
import Periapsis.Text.Affix

/-!
# The identity of a container in its image

The entries for a user and a group are added to the files of the image.
-/

namespace Periapsis.Systemd

open List Nat

def maxScanTokenSize : Nat := 65536

def dropCR (line : List Char) : List Char :=
  if line.getLast? = some '\r' then line.dropLast else line

def fileLines (content : List Char) : List (List Char) :=
  (Text.lines '\n' content).map dropCR

def scannedLines (content : List Char) : List (List Char) :=
  ((Text.lines '\n' content).takeWhile (·.length < maxScanTokenSize)).map dropCR

def entryExists (content value : List Char) (fieldIdx : Nat) : Bool :=
  (scannedLines content).any fun line => Text.field ':' fieldIdx line = some value

def passwdLine (uid gid : Nat) : List Char :=
  let home := if uid ≠ 0 then "/home/peri-" ++ uid.repr else "/"
  ("peri-" ++ uid.repr ++ ":x:" ++ uid.repr ++ ":" ++ gid.repr ++ "::" ++ home
    ++ ":/bin/sh").toList

def groupLine (gid : Nat) : List Char :=
  ("peri-" ++ gid.repr ++ ":x:" ++ gid.repr ++ ":").toList

def injectEntry (line value content : List Char) : List Char :=
  if entryExists content value 2 then content else content ++ (line ++ ['\n'])

def injectPasswdEntry (uid gid : Nat) (content : List Char) : List Char :=
  injectEntry (passwdLine uid gid) uid.repr.toList content

def injectGroupEntry (gid : Nat) (content : List Char) : List Char :=
  injectEntry (groupLine gid) gid.repr.toList content

def Injected (inject : List Char → List Char) (id : Nat) (content : List Char) : Prop :=
  (∀ line ∈ fileLines content, line ∈ fileLines (inject content))
    ∧ (∃ line ∈ fileLines (inject content), Text.field ':' 2 line = some id.repr.toList)
    ∧ inject (inject content) = inject content

def Appendable (line content : List Char) : Prop :=
  let (ended, rest) := Text.endedLines '\n' content
  (∀ l ∈ ended, l.length < maxScanTokenSize) ∧ (rest ++ line).length < maxScanTokenSize
    ∧ ':' ∉ rest ∧ (rest = [] ∨ dropCR rest ∈ ended.map dropCR)

/-- The line is an entry for the id in a file such as `/etc/passwd`. -/
structure EntryLine (id : Nat) (line : List Char) : Prop where
  shape : ∃ tail, line = "peri-".toList ++ id.repr.toList ++ ':' :: ('x' :: ':'
    :: (id.repr.toList ++ ':' :: tail))
  oneLine : '\n' ∉ line
  last : line.getLast? ≠ some '\r'

theorem not_mem_toDigits {c : Char} (hc : c.isDigit = false) (n : Nat) :
  c ∉ toDigits 10 n
  := by
  intro hm
  have := isDigit_of_mem_toDigits (by decide) (by decide) hm
  rw [hc] at this
  cases this

theorem entryLine_passwd (uid gid : Nat) :
  EntryLine uid (passwdLine uid gid)
  := by
  have hline := not_mem_toDigits (c := '\n') (by decide)
  refine ⟨?_, ?_, ?_⟩
  · unfold passwdLine
    split_ifs
    · exact ⟨gid.repr.toList ++ "::/home/peri-".toList ++ uid.repr.toList ++ ":/bin/sh".toList,
        by simp⟩
    · exact ⟨gid.repr.toList ++ "::/:/bin/sh".toList, by simp⟩
  · unfold passwdLine
    split_ifs
    all_goals simp [hline]
  · rw [passwdLine, String.toList_append, getLast?_append_of_ne_nil _ (by decide)]
    decide

theorem entryLine_group (gid : Nat) :
  EntryLine gid (groupLine gid)
  := by
  refine ⟨⟨[], by simp [groupLine]⟩, ?_, ?_⟩
  · simp [groupLine, not_mem_toDigits (c := '\n') (by decide)]
  · rw [groupLine, String.toList_append, getLast?_append_of_ne_nil _ (by decide)]
    decide

theorem dropCR_append (hne : line ≠ []) :
  dropCR (l ++ line) = l ++ dropCR line
  := by
  unfold dropCR
  rw [getLast?_append_of_ne_nil l hne, dropLast_append_of_ne_nil hne]
  split_ifs
  all_goals rfl

theorem dropCR_sep :
  dropCR (l ++ ':' :: rest) = l ++ ':' :: dropCR rest
  := by
  rw [dropCR_append (cons_ne_nil _ _)]
  cases rest with
  | nil => rfl
  | cons c rest => rw [← singleton_append, dropCR_append (cons_ne_nil _ _)]; rfl

section Line

variable {id : Nat} {line rest : List Char} (hline : EntryLine id line)
include hline

theorem EntryLine.ne_nil :
  line ≠ []
  := by
  obtain ⟨tail, rfl⟩ := hline.shape
  simp

theorem EntryLine.dropCR_eq :
  dropCR (rest ++ line) = rest ++ line
  := by
  rw [dropCR_append hline.ne_nil, dropCR, if_neg hline.last]

theorem EntryLine.field_of_not_mem (hr : ':' ∉ rest) :
  Text.field ':' 2 (rest ++ line) = some id.repr.toList
  := by
  have hid : ':' ∉ id.repr.toList := toList_repr ▸ not_mem_toDigits (by decide) id
  obtain ⟨tail, rfl⟩ := hline.shape
  have hn : ':' ∉ rest ++ ("peri-".toList ++ id.repr.toList) := by
    simp only [mem_append, not_or]
    exact ⟨hr, by decide, hid⟩
  rw [← append_assoc, Text.field_succ_of_sep hn]
  change Text.field ':' 1 (['x'] ++ ':' :: (id.repr.toList ++ ':' :: tail)) = _
  rw [Text.field_succ_of_sep (by decide), Text.field_zero_of_sep hid]

theorem EntryLine.field_of_mem (hr : ':' ∈ rest)
    (hf : Text.field ':' 2 (rest ++ line) = some id.repr.toList) :
  Text.field ':' 2 (dropCR rest) = some id.repr.toList
  := by
  have hid : ':' ∉ id.repr.toList := toList_repr ▸ not_mem_toDigits (by decide) id
  obtain ⟨tail, rfl⟩ := hline.shape
  obtain ⟨first, rest, rfl, hfi⟩ := eq_append_cons_of_mem hr
  rw [append_assoc, cons_append, Text.field_succ_of_sep hfi] at hf
  rw [dropCR_sep, Text.field_succ_of_sep hfi]
  by_cases hse : ':' ∈ rest
  · obtain ⟨second, rest, rfl, hno⟩ := eq_append_cons_of_mem hse
    rw [append_assoc, cons_append, Text.field_succ_of_sep hno] at hf
    rw [dropCR_sep, Text.field_succ_of_sep hno]
    by_cases ht : ':' ∈ rest
    · obtain ⟨third, rest, rfl, hno⟩ := eq_append_cons_of_mem ht
      rw [append_assoc, cons_append, Text.field_zero_of_sep hno] at hf
      rw [dropCR_sep, Text.field_zero_of_sep hno, hf]
    · -- the third field is a name that ends with the number
      have hn : ':' ∉ rest ++ ("peri-".toList ++ id.repr.toList) := by
        simp only [mem_append, not_or]
        exact ⟨ht, by decide, hid⟩
      rw [← append_assoc, Text.field_zero_of_sep hn] at hf
      have hln := congrArg length (Option.some.inj hf)
      exact absurd (le_of_eq hln) (by simp; omega)
  · -- the third field is the password
    have hn : ':' ∉ rest ++ ("peri-".toList ++ id.repr.toList) := by
      simp only [mem_append, not_or]
      exact ⟨hse, by decide, hid⟩
    rw [← append_assoc, Text.field_succ_of_sep hn] at hf
    change Text.field ':' 0 (['x'] ++ ':' :: (id.repr.toList ++ ':' :: tail)) = _ at hf
    have hx : 'x' ∉ id.repr.toList := toList_repr ▸ not_mem_toDigits (by decide) id
    exact absurd (Option.some.inj hf ▸ mem_singleton_self 'x') hx

theorem fileLines_append (content : List Char) :
  fileLines (content ++ (line ++ ['\n'])) = (Text.endedLines '\n' content).1.map dropCR
    ++ [(Text.endedLines '\n' content).2 ++ line]
  := by
  rw [fileLines, Text.lines, Text.endedLines_append _ _ hline.oneLine]
  simp only [if_true, append_nil, map_append, map_singleton, hline.dropCR_eq]

theorem entryExists_append {content : List Char} (hnw : ¬ entryExists content id.repr.toList 2) :
  entryExists (content ++ (line ++ ['\n'])) id.repr.toList 2
    ↔ (∀ l ∈ (Text.endedLines '\n' content).1, l.length < maxScanTokenSize)
      ∧ ((Text.endedLines '\n' content).2 ++ line).length < maxScanTokenSize
      ∧ ':' ∉ (Text.endedLines '\n' content).2
  := by
  simp only [entryExists, scannedLines, Text.lines, any_map, any_eq_true,
    Function.comp_apply, decide_eq_true_eq, Text.endedLines_append _ _ hline.oneLine, if_true,
    append_nil] at hnw ⊢
  generalize (Text.endedLines '\n' content).1 = ended at *
  generalize (Text.endedLines '\n' content).2 = rest at *
  by_cases hs : ∀ l ∈ ended, l.length < maxScanTokenSize
  · rw [takeWhile_append_of_pos (by simpa using hs)] at hnw ⊢
    constructor
    · rintro ⟨l, hm, hf⟩
      have hla := (mem_append.1 hm).resolve_left fun h =>
        hnw ⟨l, mem_append_left _ h, hf⟩
      obtain rfl := mem_singleton.1 ((takeWhile_sublist _).subset hla)
      have hln : (rest ++ line).length < maxScanTokenSize := by
        simpa using mem_takeWhile_imp hla
      refine ⟨hs, hln, fun hsp => hnw ⟨rest, mem_append_right _ ?_, ?_⟩⟩
      · have hr : rest.length < maxScanTokenSize := by
          rw [length_append] at hln
          omega
        rw [if_neg (ne_nil_of_mem hsp), takeWhile_cons_of_pos (by simpa using hr)]
        exact mem_cons_self
      · exact hline.field_of_mem hsp (hline.dropCR_eq ▸ hf)
    · rintro ⟨_, hla, hsp⟩
      refine ⟨rest ++ line, mem_append_right _ ?_, ?_⟩
      · rw [takeWhile_cons_of_pos (by simpa using hla)]
        exact mem_cons_self
      · rw [hline.dropCR_eq, hline.field_of_not_mem hsp]
  · have hen : ∀ l, (ended ++ l).takeWhile (·.length < maxScanTokenSize)
        = ended.takeWhile (·.length < maxScanTokenSize) := by
      intro l
      rw [takeWhile_append, if_neg]
      intro hln
      have hal := takeWhile_eq_self_iff.1
        ((List.takeWhile_prefix _).eq_of_length hln)
      exact hs fun l hl => of_decide_eq_true (hal l hl)
    rw [hen] at hnw ⊢
    exact ⟨fun h => absurd h hnw, fun h => absurd h.1 hs⟩

theorem injected_iff (content : List Char) :
  Injected (injectEntry line id.repr.toList) id content
    ↔ entryExists content id.repr.toList 2 ∨ Appendable line content
  := by
  by_cases ho : entryExists content id.repr.toList 2
  · have hsa : injectEntry line id.repr.toList content = content := if_pos ho
    obtain ⟨l, hm, hf⟩ := any_eq_true.1 ho
    obtain ⟨raw, hra, rfl⟩ := mem_map.1 hm
    have hline : dropCR raw ∈ fileLines content :=
      mem_map_of_mem ((takeWhile_sublist _).subset hra)
    simp only [Injected, hsa, ho, true_or, iff_true]
    exact ⟨fun _ h => h, ⟨_, hline, of_decide_eq_true hf⟩, trivial⟩
  · have hnw : injectEntry line id.repr.toList content = content ++ (line ++ ['\n']) := if_neg ho
    have ha : injectEntry line id.repr.toList (content ++ (line ++ ['\n']))
          = content ++ (line ++ ['\n'])
        ↔ entryExists (content ++ (line ++ ['\n'])) id.repr.toList 2 := by
      rw [injectEntry]
      split_ifs with hfo
      · exact ⟨fun _ => hfo, fun _ => rfl⟩
      · refine ⟨fun h => absurd (congrArg length h) ?_, fun h => absurd h hfo⟩
        simp only [length_append, length_singleton]
        omega
    rw [Injected, hnw, ha, entryExists_append hline ho, fileLines_append hline, fileLines,
      Text.lines, Appendable]
    obtain ⟨ended, rest⟩ := Text.endedLines '\n' content
    dsimp only
    constructor
    · rintro ⟨hk, _, hs, hla, hsp⟩
      refine .inr ⟨hs, hla, hsp, ?_⟩
      by_cases hem : rest = []
      · exact .inl hem
      · rw [if_neg hem] at hk
        have hm := hk (dropCR rest) (by simp)
        refine .inr ((mem_append.1 hm).resolve_right fun h => ?_)
        have hln := congrArg length (mem_singleton.1 h)
        have hle : (dropCR rest).length ≤ rest.length := by
          unfold dropCR
          split_ifs
          · exact (dropLast_sublist rest).length_le
          · exact le_refl _
        have := length_pos_of_ne_nil hline.ne_nil
        rw [length_append] at hln
        omega
    · rintro (hfo | ⟨hs, hla, hsp, hr⟩)
      · exact absurd hfo ho
      · refine ⟨?_, ⟨rest ++ line, by simp, hline.field_of_not_mem hsp⟩, hs, hla, hsp⟩
        intro l hl
        apply mem_append_left
        rw [map_append, mem_append] at hl
        cases hl with
        | inl hl => exact hl
        | inr hl =>
          split_ifs at hl with hem
          · cases hl
          · obtain rfl := mem_singleton.1 hl
            exact hr.resolve_left hem

end Line

/-- The entries are added as they should be exactly if they are there, or can be added to the
files. -/
theorem inject_injected_iff (uid gid : Nat) (passwd group : List Char) :
  (Injected (injectPasswdEntry uid gid) uid passwd
      ↔ entryExists passwd uid.repr.toList 2 ∨ Appendable (passwdLine uid gid) passwd)
    ∧ (Injected (injectGroupEntry gid) gid group
      ↔ entryExists group gid.repr.toList 2 ∨ Appendable (groupLine gid) group)
  := ⟨injected_iff (entryLine_passwd uid gid) passwd, injected_iff (entryLine_group gid) group⟩

theorem inject_into_last_line :
  injectGroupEntry 7 "a:b:c".toList = "a:b:cperi-7:x:7:\n".toList
    ∧ "a:b:c".toList ∉ fileLines (injectGroupEntry 7 "a:b:c".toList)
    ∧ injectGroupEntry 7 (injectGroupEntry 7 "a:b:c".toList)
      = "a:b:cperi-7:x:7:\nperi-7:x:7:\n".toList
  := by
  decide +kernel

end Periapsis.Systemd
