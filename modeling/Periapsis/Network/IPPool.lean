import Periapsis.Search.Cyclic
import Mathlib.Data.List.Nodup

/-!
# The pool of pod addresses

Addresses are handed out in order from offset 2 of a subnet on, and kept with the UID of the pod
until released.
-/

namespace Periapsis.Network

open Search List Prod

/-- The pool, with the offsets in use and their pods. -/
structure IPPool where
  base : Nat
  next : Nat
  max : Nat
  inUse : List (Nat × String)
  next_range : 2 ≤ next ∧ next ≤ max
  distinct : (inUse.map fst).Nodup

namespace IPPool

def newIPPool (base hostBits : Nat) (h : 2 ≤ hostBits) : IPPool where
  base := base
  next := 2
  max := 1 <<< hostBits - 2
  inUse := []
  next_range := by
    have hpow : 1 <<< 2 ≤ 1 <<< hostBits := by
      rw [Nat.one_shiftLeft, Nat.one_shiftLeft]
      exact Nat.pow_le_pow_right (by decide) h
    omega
  distinct := nodup_nil

def used (pool : IPPool) (offset : Nat) : Bool :=
  pool.inUse.any (·.1 = offset)

variable {pool : IPPool}

theorem used_eq_true :
  pool.used offset ↔ offset ∈ pool.inUse.map fst
  := by
  simp [used]

/-- The next offset that is not in use, going round once. -/
def freeOffset (pool : IPPool) : Option Nat :=
  cyclicFind 2 pool.max (fun offset => !pool.used offset) pool.next pool.max pool.next

theorem freeOffset_some (h : pool.freeOffset = some offset) :
  offset ∉ pool.inUse.map fst ∧ 2 ≤ offset ∧ offset ≤ pool.max
  := by
  obtain ⟨hf, hr⟩ := cyclicFind_some pool.next_range.1 pool.next_range.2 h
  refine ⟨?_, hr⟩
  rw [← used_eq_true]
  simpa using hf

variable (pool)

/-- Hand out an address, or `none` if there is none. -/
def allocate (podUID : String) : Option (IPPool × Nat) :=
  match h : pool.freeOffset with
  | none => none
  | some offset =>
    some
      ({ pool with
          next := cyclicNext 2 pool.max offset
          inUse := (offset, podUID) :: pool.inUse
          next_range := by
            have hrange := freeOffset_some h
            apply cyclicNext_range _ hrange.2.1
            omega
          distinct := nodup_cons.mpr ⟨(freeOffset_some h).1, pool.distinct⟩ },
        pool.base + offset)

def held (podUID : String) : List (Nat × String) :=
  pool.inUse.filter (·.2 = podUID)

/-- Take back the one address of the pod that the walk over the map finds. -/
def release (podUID : String) (walk : Nat) : IPPool :=
  match (pool.held podUID)[walk % (pool.held podUID).length]? with
  | none => pool
  | some entry =>
    { pool with
      inUse := pool.inUse.filter (·.1 ≠ entry.1)
      distinct := (filter_sublist.map fst).nodup pool.distinct }

def gateway : Nat :=
  pool.base + 1

variable {pool' : IPPool} {podUID : String} {ip walk : Nat}

/-- All offsets are in use. -/
def Exhausted : Prop :=
  ∀ offset, 2 ≤ offset → offset ≤ pool.max → pool.used offset = true

variable {pool}

theorem allocate_eq_none {podUID : String} :
  pool.allocate podUID = none ↔ pool.Exhausted
  := by
  have hfi : pool.freeOffset = none ↔ pool.Exhausted := by
    rw [freeOffset, cyclicFind_around pool.next_range.1 pool.next_range.2 (by omega)]
    simp [Exhausted]
  rw [← hfi, allocate]
  split
  next h =>
    simp [h]
  next h =>
    simp [h]

theorem not_exhausted (h : pool.allocate podUID = some (pool', ip)) :
  ¬ pool.Exhausted
  := by
  rw [← allocate_eq_none, h]
  simp

theorem allocate_eq_some (h : pool.allocate podUID = some (pool', ip)) :
  ∃ offset, ip = pool.base + offset ∧ offset ∉ pool.inUse.map fst
    ∧ pool'.inUse = (offset, podUID) :: pool.inUse ∧ pool'.base = pool.base
  := by
  unfold allocate at h
  split at h
  · cases h
  next offset hf =>
    cases h
    exact ⟨offset, rfl, (freeOffset_some hf).1, rfl, rfl⟩

/-- The pod has the address. -/
def Holds (pool : IPPool) (podUID : String) (ip : Nat) : Prop :=
  ∃ offset, (offset, podUID) ∈ pool.inUse ∧ ip = pool.base + offset

def HoldsNone (pool : IPPool) (podUID : String) : Prop :=
  ∀ offset, (offset, podUID) ∉ pool.inUse

theorem holdsNone_iff :
  pool.HoldsNone podUID ↔ pool.held podUID = []
  := by
  rw [held, filter_eq_nil_iff]
  constructor
  · rintro h ⟨offset, uid⟩ hme heq
    obtain rfl : uid = podUID := by simpa using heq
    exact h offset hme
  · intro h offset hme
    simpa using h (offset, podUID) hme

variable {other : String}

theorem holds_unique (h : pool.Holds podUID ip) (h' : pool.Holds other ip) :
  podUID = other
  := by
  obtain ⟨offset, hme, rfl⟩ := h
  obtain ⟨offset', hm, heq⟩ := h'
  obtain rfl : offset = offset' := by omega
  have hen := inj_on_of_nodup_map pool.distinct hme hm rfl
  exact (Prod.mk.inj hen).2

section

variable (h : pool.allocate podUID = some (pool', ip))
include h

/-- What an allocation adds to what the pods hold. -/
theorem holds_allocate_iff {a : Nat} :
  pool'.Holds other a ↔ pool.Holds other a ∨ other = podUID ∧ a = ip
  := by
  obtain ⟨offset, rfl, -, hi, hb⟩ := allocate_eq_some h
  simp only [Holds, hi, hb, mem_cons, Prod.mk.injEq]
  constructor
  · rintro ⟨o, ⟨rfl, rfl⟩ | hme, rfl⟩
    · exact Or.inr ⟨rfl, rfl⟩
    · exact Or.inl ⟨o, hme, rfl⟩
  · rintro (⟨o, hme, rfl⟩ | ⟨rfl, rfl⟩)
    · exact ⟨o, Or.inr hme, rfl⟩
    · exact ⟨offset, Or.inl ⟨rfl, rfl⟩, rfl⟩

theorem holds_allocate :
  pool'.Holds podUID ip ∧ ∀ other a, pool.Holds other a → pool'.Holds other a
  := ⟨(holds_allocate_iff h).2 (Or.inr ⟨rfl, rfl⟩),
    fun _ _ ha => (holds_allocate_iff h).2 (Or.inl ha)⟩

theorem held_allocate :
  (pool'.held podUID).length = (pool.held podUID).length + 1
  := by
  obtain ⟨offset, -, -, hi, -⟩ := allocate_eq_some h
  simp [held, hi]

end

theorem release_base (pool : IPPool) (podUID : String) (walk : Nat) :
  (pool.release podUID walk).base = pool.base
  := by
  unfold release
  split
  all_goals rfl

theorem release_inUse (pool : IPPool) (podUID : String) (walk : Nat) :
  (pool.held podUID = [] ∧ (pool.release podUID walk).inUse = pool.inUse)
    ∨ ∃ entry ∈ pool.inUse, entry.2 = podUID
      ∧ (pool.release podUID walk).inUse = pool.inUse.filter (·.1 ≠ entry.1)
  := by
  unfold release
  split
  next h =>
    left
    refine ⟨?_, rfl⟩
    rw [getElem?_eq_none_iff] at h
    by_contra hne
    have hp := length_pos_iff.2 hne
    have hlt := Nat.mod_lt walk hp
    omega
  next entry h =>
    right
    obtain ⟨hme, hu⟩ := mem_filter.1 (mem_of_getElem? h)
    exact ⟨entry, hme, by simpa using hu, rfl⟩

/-- What a release takes from what the pods hold: one address of the pod, if it has any. -/
def Releases (podUID : String) (pool pool' : IPPool) : Prop :=
  (pool.HoldsNone podUID ∧ ∀ other a, pool'.Holds other a ↔ pool.Holds other a)
    ∨ ∃ ip, pool.Holds podUID ip ∧ ∀ other a, pool'.Holds other a ↔ pool.Holds other a ∧ a ≠ ip

theorem releases_release (pool : IPPool) (podUID : String) (walk : Nat) :
  Releases podUID pool (pool.release podUID walk)
  := by
  rcases pool.release_inUse podUID walk with ⟨hno, heq⟩ | ⟨⟨offset, uid⟩, hen, rfl, heq⟩
  · exact Or.inl ⟨holdsNone_iff.2 hno, fun other a => by simp only [Holds, heq, release_base]⟩
  · refine Or.inr ⟨pool.base + offset, ⟨offset, hen, rfl⟩, fun other a => ?_⟩
    simp only [Holds, heq, release_base, mem_filter, ne_eq, decide_eq_true_eq]
    constructor
    · rintro ⟨o, ⟨hme, hne⟩, rfl⟩
      exact ⟨⟨o, hme, rfl⟩, by omega⟩
    · rintro ⟨⟨o, hme, rfl⟩, hne⟩
      exact ⟨o, ⟨hme, by omega⟩, rfl⟩

theorem holds_release (hne : other ≠ podUID) (h : pool.Holds other ip) :
  (pool.release podUID walk).Holds other ip
  := by
  rcases pool.releases_release podUID walk with ⟨-, hk⟩ | ⟨ip', hp, hk⟩
  · exact (hk other ip).2 h
  · refine (hk other ip).2 ⟨h, ?_⟩
    rintro rfl
    exact hne (holds_unique h hp)

theorem holdsNone_release :
  (pool.release podUID walk).HoldsNone podUID ↔ (pool.held podUID).length ≤ 1
  := by
  rw [holdsNone_iff]
  rcases pool.release_inUse podUID walk with ⟨hno, heq⟩ | ⟨entry, hen, hu, heq⟩
  · rw [held, heq, ← held, hno]
    simp
  · have hme : entry ∈ pool.held podUID := mem_filter.2 ⟨hen, by simpa using hu⟩
    have hk : (pool.release podUID walk).held podUID
        = (pool.held podUID).filter (· != entry) := by
      rw [held, heq, held, filter_filter, filter_filter]
      apply filter_congr
      intro e he
      have hs : decide (e.1 ≠ entry.1) = (e != entry) := by
        rw [Bool.eq_iff_iff, decide_eq_true_eq, bne_iff_ne]
        apply not_congr
        exact ⟨fun h => inj_on_of_nodup_map pool.distinct he hen h, fun h => h ▸ rfl⟩
      rw [hs, Bool.and_comm]
    have hn : (pool.held podUID).Nodup :=
      filter_sublist.nodup (List.Nodup.of_map _ pool.distinct)
    have hl := length_erase_of_mem hme
    rw [hk, ← hn.erase_eq_filter, ← length_eq_zero_iff, hl]
    omega

end IPPool

end Periapsis.Network
