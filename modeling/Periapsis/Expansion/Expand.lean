import Periapsis.Text.Affix

/-!
# References to variables

A text may refer to variables, as `$(NAME)`.
-/

namespace Periapsis.Expansion

open Text List

abbrev Vars := List Char → Option (List Char)

def syntaxWrap (input : List Char) : List Char :=
  '$' :: '(' :: input ++ [')']

def mappingFuncFor (context : List Vars) (input : List Char) : List Char :=
  (context.findSome? fun vars => vars input).getD (syntaxWrap input)

def stringOfByte (b : Char) : List Char :=
  if b.toNat < 0x80 then [b]
  else [Char.ofNat (0xc0 + b.toNat / 64), Char.ofNat (0x80 + b.toNat % 64)]

def tryReadVariableName : List Char → List Char × Bool × Nat
  | '$' :: _ => (['$'], false, 1)
  | '(' :: input =>
    match cut ')' input with
    | some (name, _) => (name, true, name.length + 2)
    | none => (['$', '('], false, 1)
  | c :: _ => ('$' :: stringOfByte c, false, 1)
  | [] => ([], false, 1)

def expandFrom (mapping : List Char → List Char) : Nat → List Char → List Char
  | _, [] => []
  | skip + 1, _ :: input => expandFrom mapping skip input
  | 0, c :: input =>
    if c = '$' ∧ input ≠ [] then
      let (read, isVar, advance) := tryReadVariableName input
      (if isVar then mapping read else read) ++ expandFrom mapping advance input
    else c :: expandFrom mapping 0 input

def expand (input : List Char) (mapping : List Char → List Char) : List Char :=
  expandFrom mapping 0 input

def substituteFrom (env : Vars) : Nat → List Char → List Char
  | _, [] => []
  | skip + 1, _ :: s => substituteFrom env skip s
  | 0, c :: s =>
    if c = '$' ∧ s.head? = some '(' then
      match cut ')' s.tail with
      | some (varName, _) =>
        (env varName).getD (syntaxWrap varName) ++ substituteFrom env (varName.length + 2) s
      | none => c :: substituteFrom env 0 s
    else c :: substituteFrom env 0 s

def contains (sub : List Char) : List Char → Bool
  | [] => sub.isEmpty
  | c :: s => sub.isPrefixOf (c :: s) || contains sub s

def substituteEnvVars (s : List Char) (env : Vars) : List Char :=
  if contains ['$', '('] s then substituteFrom env 0 s else s

def escapes : Nat → List Char → Nat
  | _, [] => 0
  | skip + 1, _ :: input => escapes skip input
  | 0, c :: input =>
    if c = '$' ∧ input ≠ [] then
      (if input.head? = some '$' then 1 else 0) + escapes (tryReadVariableName input).2.2 input
    else escapes 0 input

variable {s : List Char}

theorem substituteEnvVars_eq :
  substituteEnvVars s env = substituteFrom env 0 s
  := by
  rw [substituteEnvVars]
  split_ifs with hco
  · rfl
  symm
  induction s with
  | nil => rfl
  | cons c s ih =>
    rw [contains, Bool.or_eq_true, not_or] at hco
    have hop : ¬ (c = '$' ∧ s.head? = some '(') := by
      rintro ⟨rfl, hh⟩
      apply hco.1
      cases s with
      | nil => cases hh
      | cons d s =>
        cases hh
        rfl
    rw [substituteFrom, if_neg hop, ih hco.2]

variable {skip : Nat}

theorem substituteFrom_none :
  substituteFrom (fun _ => none) skip s = s.drop skip
  := by
  induction s generalizing skip with
  | nil => simp [substituteFrom]
  | cons c s ih =>
    cases skip with
    | succ skip => rw [substituteFrom, ih, drop_succ_cons]
    | zero =>
      rw [substituteFrom]
      split
      next hop =>
        obtain ⟨rfl, hh⟩ := hop
        obtain ⟨t, rfl⟩ := head?_eq_some_iff.1 hh
        rw [tail_cons]
        cases hcu : cut ')' t with
        | none =>
          rw [ih]
          rfl
        | some parts =>
          dsimp only
          rw [ih, eq_of_cut hcu]
          simp [syntaxWrap]
      · rw [ih]
        rfl

theorem tryReadVariableName_cases {d : Char} (t : List Char) (hd : d.toNat < 128) :
  (d = '$' ∧ tryReadVariableName (d :: t) = (['$'], false, 1))
    ∨ (d = '(' ∧ ∃ name rest, cut ')' t = some (name, rest)
        ∧ tryReadVariableName (d :: t) = (name, true, name.length + 2))
    ∨ (d ≠ '$' ∧ (d = '(' → cut ')' t = none)
        ∧ tryReadVariableName (d :: t) = (['$', d], false, 1))
  := by
  by_cases ho : d = '$'
  · exact .inl ⟨ho, by rw [ho]; rfl⟩
  by_cases hop : d = '('
  · subst hop
    cases hcu : cut ')' t with
    | some parts =>
      exact .inr (.inl ⟨rfl, parts.1, parts.2, rfl, by simp [tryReadVariableName, hcu]⟩)
    | none => exact .inr (.inr ⟨by decide, fun _ => rfl, by simp [tryReadVariableName, hcu]⟩)
  · refine .inr (.inr ⟨ho, fun h => absurd h hop, ?_⟩)
    simp [tryReadVariableName, stringOfByte, hd]

theorem length_expandFrom (hs : ∀ c ∈ s, c.toNat < 128) (skip : Nat) :
  (expandFrom syntaxWrap skip s).length + escapes skip s = (s.drop skip).length
  := by
  induction s generalizing skip with
  | nil => simp [expandFrom, escapes]
  | cons c s ih =>
    have ih := ih (fun d hd => hs d (mem_cons_of_mem _ hd))
    cases skip with
    | succ skip => rw [expandFrom, escapes, drop_succ_cons, ih]
    | zero =>
      rw [expandFrom, escapes]
      split
      next ho =>
        obtain ⟨d, t, rfl⟩ := exists_cons_of_ne_nil ho.2
        rcases tryReadVariableName_cases t (hs d (by simp)) with
          ⟨rfl, hr⟩ | ⟨rfl, name, rest, hcu, hr⟩ | ⟨hd, -, hr⟩
        · have hl := ih 1
          simp [hr] at hl ⊢
          omega
        · have hl := ih (name.length + 2)
          have ht := congrArg length (eq_of_cut hcu)
          simp [hr, syntaxWrap] at hl ht ⊢
          omega
        · have hl := ih 1
          simp [hr, hd] at hl ⊢
          omega
      · have hl := ih 0
        simp at hl ⊢
        omega

theorem expandFrom_eq_substituteFrom (hs : ∀ c ∈ s, c.toNat < 128) (env : Vars)
    (h : escapes skip s = 0) :
  expandFrom (mappingFuncFor [env]) skip s = substituteFrom env skip s
  := by
  induction s generalizing skip with
  | nil => simp [expandFrom, substituteFrom]
  | cons c s ih =>
    have ih (skip : Nat) (h : escapes skip s = 0) :=
      ih (fun d hd => hs d (mem_cons_of_mem _ hd)) h
    cases skip with
    | succ skip =>
      rw [expandFrom, substituteFrom, ih skip h]
    | zero =>
      rw [escapes] at h
      rw [expandFrom, substituteFrom]
      split
      next ho =>
        obtain ⟨rfl, hne⟩ := ho
        obtain ⟨d, t, rfl⟩ := exists_cons_of_ne_nil hne
        rcases tryReadVariableName_cases t (hs d (by simp)) with
          ⟨rfl, hr⟩ | ⟨rfl, name, rest, hcu, hr⟩ | ⟨hd, hcu, hr⟩
        · simp at h
        · have hre := ih (name.length + 2) (by simpa [hr] using h)
          simp [hr, hcu, hre, mappingFuncFor]
        · -- one scanner has read two characters, the other reads the second one next
          have hre := ih 1 (by simpa [hr] using Nat.eq_zero_of_add_eq_zero_left h)
          have hk : substituteFrom env 0 (d :: t) = d :: substituteFrom env 1 (d :: t) := by
            simp [substituteFrom, hd]
          by_cases hop : d = '('
          · subst hop
            simp [hr, hre, hk, hcu rfl]
          · simp [hr, hre, hk, hop]
      next ho =>
        have hop : ¬ (c = '$' ∧ s.head? = some '(') := by
          rintro ⟨hc, hh⟩
          apply ho ⟨hc, ne_nil_of_mem (mem_of_mem_head? hh)⟩
        rw [if_neg ho] at h
        rw [if_neg hop, ih 0 h]

/-- The scanners come to the same for all variables exactly if the text has no escaped operator. -/
theorem substituteEnvVars_eq_expand_iff {s : List Char} (hs : ∀ c ∈ s, c.toNat < 128) :
  (∀ env, substituteEnvVars s env = expand s (mappingFuncFor [env])) ↔ escapes 0 s = 0
  := by
  constructor
  · intro h
    have hn := h fun _ => none
    have hl := length_expandFrom hs 0
    have hm : mappingFuncFor [fun _ => none] = syntaxWrap := rfl
    rw [substituteEnvVars_eq, substituteFrom_none, expand, hm] at hn
    rw [← hn] at hl
    omega
  · intro h env
    rw [substituteEnvVars_eq, expand, expandFrom_eq_substituteFrom hs env h]

theorem substituteEnvVars_eq_expand_plain :
  substituteEnvVars "a$(A)$b".toList (fun _ => some ['1'])
    = expand "a$(A)$b".toList (mappingFuncFor [fun _ => some ['1']])
  := (substituteEnvVars_eq_expand_iff (by simp)).mpr (by decide +kernel) _

theorem substituteEnvVars_ne_expand :
  substituteEnvVars "$$(A)".toList (fun n => if n = ['A'] then some ['1'] else none) = "$1".toList
    ∧ expand "$$(A)".toList (mappingFuncFor [fun n => if n = ['A'] then some ['1'] else none])
        = "$(A)".toList
  := by decide +kernel

end Periapsis.Expansion
