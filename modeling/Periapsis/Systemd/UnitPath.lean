import Mathlib.Data.List.Infix

/-!
# The object paths of units

The object path of a unit ends in its name, with all bytes escaped but letters and digits, and a
digit at the beginning.
-/

namespace Periapsis.Systemd

open List

def bytes (s : String) : List UInt8 :=
  s.toList.map fun c => UInt8.ofNat c.toNat

/-- The letters of object paths. -/
def isAlpha (c : UInt8) : Bool :=
  (97 ≤ c && c ≤ 122) || (65 ≤ c && c ≤ 90)

def isDigit (c : UInt8) : Bool :=
  48 ≤ c && c ≤ 57

def hexDigit (n : UInt8) : UInt8 :=
  if n < 10 then 48 + n else 87 + n

def escapeByte (i : Nat) (c : UInt8) : List UInt8 :=
  if isAlpha c || (isDigit c && 0 < i) then [c] else [95, hexDigit (c / 16), hexDigit (c % 16)]

def escapeFrom (i : Nat) : List UInt8 → List UInt8
  | [] => []
  | c :: name => escapeByte i c ++ escapeFrom (i + 1) name

def dbusUnitEscape (name : List UInt8) : List UInt8 :=
  escapeFrom 0 name

def unhex (c : UInt8) : Option UInt8 :=
  if 48 ≤ c && c ≤ 57 then some (c - 48)
  else if 97 ≤ c && c ≤ 102 then some (c - 97 + 10)
  else if 65 ≤ c && c ≤ 70 then some (c - 65 + 10)
  else none

def escapedByte (c a b : UInt8) : Option UInt8 :=
  if c = 95 then (unhex a).bind fun hi => (unhex b).map fun lo => hi <<< 4 ||| lo else none

def unescapeFrom : List UInt8 → List UInt8
  | [] => []
  | c :: a :: b :: rest =>
    match escapedByte c a b with
    | some d => d :: unescapeFrom rest
    | none => c :: unescapeFrom (a :: b :: rest)
  | c :: rest => c :: unescapeFrom rest

def dbusUnitUnescape (escaped : List UInt8) : List UInt8 :=
  if escaped = [95] then [] else unescapeFrom escaped

def objectPath (unitName : List UInt8) : List UInt8 :=
  bytes "/org/freedesktop/systemd1/unit/" ++ dbusUnitEscape unitName

def pawnPrefix (pawnName : List UInt8) : List UInt8 :=
  bytes "perigeos-" ++ pawnName ++ bytes "-"

def subscribed (pawnName path : List UInt8) : Bool :=
  (objectPath (pawnPrefix pawnName)).isPrefixOf path

variable {rest : List UInt8}

theorem unescapeFrom_cons (h : c ≠ 95) :
  unescapeFrom (c :: rest) = c :: unescapeFrom rest
  := by
  match rest with
  | [] => rfl
  | [_] => rfl
  | a :: b :: rest => rw [unescapeFrom, escapedByte, if_neg h]

variable {c : UInt8}

theorem escapedByte_hexDigit :
  escapedByte 95 (hexDigit (c / 16)) (hexDigit (c % 16)) = some c
  := by
  have ha : ∀ n : Fin 256,
      escapedByte 95 (hexDigit (UInt8.ofFin n / 16)) (hexDigit (UInt8.ofFin n % 16))
        = some (UInt8.ofFin n) := by decide +kernel
  apply ha c.toFin

theorem unescape_escapeByte (i : Nat) :
  unescapeFrom (escapeByte i c ++ rest) = c :: unescapeFrom rest
  := by
  unfold escapeByte
  split
  next hpl =>
    apply unescapeFrom_cons
    rintro rfl
    exact absurd hpl (by simp [isAlpha, isDigit])
  · rw [cons_append, cons_append, cons_append, unescapeFrom, escapedByte_hexDigit,
      nil_append]

theorem unescape_escapeFrom (i : Nat) (name : List UInt8) :
  unescapeFrom (escapeFrom i name) = name
  := by
  induction name generalizing i with
  | nil => rfl
  | cons c name ih => rw [escapeFrom, unescape_escapeByte, ih]

theorem dbusUnitUnescape_escape (name : List UInt8) :
  dbusUnitUnescape (dbusUnitEscape name) = name
  := by
  rw [dbusUnitUnescape, if_neg, dbusUnitEscape, unescape_escapeFrom]
  intro hu
  have hn := unescape_escapeFrom 0 name
  change escapeFrom 0 name = [95] at hu
  rw [hu] at hn
  subst hn
  exact absurd hu (by decide)

theorem escapeFrom_prefix_iff (i : Nat) (p u : List UInt8) :
  escapeFrom i p <+: escapeFrom i u ↔ p <+: u
  := by
  induction p generalizing i u with
  | nil => simp [escapeFrom]
  | cons c p ih =>
    cases u with
    | nil =>
      have hne : escapeByte i c ≠ [] := by
        unfold escapeByte
        split_ifs <;> simp
      simp [escapeFrom, hne]
    | cons d u =>
      rw [cons_prefix_cons, ← ih (i + 1) u, escapeFrom, escapeFrom]
      constructor
      · rintro ⟨z, hz⟩
        -- what is read first tells which byte was written first
        have hr := congrArg unescapeFrom hz
        rw [append_assoc, unescape_escapeByte, unescape_escapeByte] at hr
        obtain rfl := (List.cons.inj hr).1
        rw [append_assoc, append_right_inj] at hz
        exact ⟨rfl, z, hz⟩
      · rintro ⟨rfl, hp⟩
        exact (prefix_append_right_inj _).2 hp

/-- What is escaped is read back, escaping keeps and reflects prefixes, and so the signals taken
are those of the units whose names begin with the prefix of the pawn. -/
theorem dbusUnitEscape_faithful :
  (∀ u, dbusUnitUnescape (dbusUnitEscape u) = u)
    ∧ (∀ u p, dbusUnitEscape p <+: dbusUnitEscape u ↔ p <+: u)
    ∧ ∀ pawnName u, subscribed pawnName (objectPath u) = true ↔ pawnPrefix pawnName <+: u
  := by
  refine ⟨dbusUnitUnescape_escape, fun u p => escapeFrom_prefix_iff 0 p u, ?_⟩
  intro pawnName u
  rw [subscribed, isPrefixOf_iff_prefix, objectPath, objectPath, prefix_append_right_inj]
  exact escapeFrom_prefix_iff 0 _ u

end Periapsis.Systemd
