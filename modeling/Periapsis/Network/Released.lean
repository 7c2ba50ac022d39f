import Mathlib.Algebra.Group.Nat.Defs
import Periapsis.Network.Manager
import Periapsis.Transition.System

/-!
# Addresses handed out and taken back

In every sequence of calls the pool hands out addresses of its subnet that are not in use, as long
as there are any.
-/

namespace Periapsis.Network

open Transition Search List IPPool Prod

/-- The calls of a pool; `walk` tells the map order in which a release looks. -/
inductive PoolCall where
  | allocate (podUID : String)
  | release (podUID : String) (walk : Nat)

def poolCalls : System IPPool PoolCall where
  step
    | pool, .allocate podUID => some ((pool.allocate podUID).elim pool fst)
    | pool, .release podUID walk => some (pool.release podUID walk)

variable {pool pool' : IPPool} {podUID : String}

theorem IPPool.allocate_offset {ip : Nat} (h : pool.allocate podUID = some (pool', ip)) :
  pool'.base = pool.base ∧ pool'.max = pool.max
    ∧ ∃ offset, ip = pool.base + offset ∧ 2 ≤ offset ∧ offset ≤ pool.max
      ∧ offset ∉ pool.inUse.map fst
  := by
  unfold allocate at h
  split at h
  · cases h
  next offset hf =>
    cases h
    obtain ⟨hu, hr⟩ := freeOffset_some hf
    exact ⟨rfl, rfl, offset, rfl, hr.1, hr.2, hu⟩

theorem IPPool.release_max (pool : IPPool) (podUID : String) (walk : Nat) :
  (pool.release podUID walk).max = pool.max
  := by
  unfold release
  split
  all_goals rfl

theorem poolCalls_subnet (hru : poolCalls.run pool calls = some pool') :
  pool'.base = pool.base ∧ pool'.max = pool.max
  := by
  refine poolCalls.run_induction (P := fun p => p.base = pool.base ∧ p.max = pool.max) ⟨rfl, rfl⟩ ?_
    (poolCalls.meets_true _ _) hru
  rintro u call v ⟨hb, hmx⟩ - hs
  cases call with
  | allocate podUID =>
    cases ha : u.allocate podUID with
    | none =>
      obtain rfl : u = v := by simpa [poolCalls, ha] using hs
      exact ⟨hb, hmx⟩
    | some result =>
      obtain rfl : result.1 = v := by simpa [poolCalls, ha] using hs
      obtain ⟨hba, hma, -⟩ := allocate_offset ha
      exact ⟨hba.trans hb, hma.trans hmx⟩
  | release podUID walk =>
    cases hs
    exact ⟨(u.release_base podUID walk).trans hb, (u.release_max podUID walk).trans hmx⟩

/-- An address handed out is a free one of the subnet, in use until released; none is handed out if
and only if all are in use; and the search ends. -/
theorem allocate_after_calls {base hostBits : Nat} {h : 2 ≤ hostBits} {calls : List PoolCall}
    {pool : IPPool} (hrun : poolCalls.run (.newIPPool base hostBits h) calls = some pool)
    (podUID : String) :
  (∀ pool' ip, pool.allocate podUID = some (pool', ip) →
      base ≤ ip ∧ ip < base + 2 ^ hostBits ∧ ip ≠ base ∧ ip ≠ pool.gateway
      ∧ ip ≠ base + (2 ^ hostBits - 1) ∧ (∀ other, ¬ pool.Holds other ip)
      ∧ ∀ other a, pool'.Holds other a ↔ pool.Holds other a ∨ other = podUID ∧ a = ip)
    ∧ (pool.allocate podUID = none
      ↔ ∀ offset, 2 ≤ offset → offset ≤ 2 ^ hostBits - 2 → offset ∈ pool.inUse.map fst)
    ∧ Ends 2 pool.max (fun offset => !pool.used offset) pool.next pool.next
    ∧ ∀ walk, Releases podUID pool (pool.release podUID walk)
  := by
  obtain ⟨hb, hmx⟩ := poolCalls_subnet hrun
  have hmx : pool.max = 2 ^ hostBits - 2 :=
    hmx.trans (congrArg (· - 2) (Nat.one_shiftLeft hostBits))
  have hb : pool.base = base := hb
  refine ⟨?_, ?_, ends_of_range pool.next_range pool.next_range.1 pool.next_range.2,
    pool.releases_release podUID⟩
  · intro pool' ip ha
    have hh (other : String) (a : Nat) :
        pool'.Holds other a ↔ pool.Holds other a ∨ other = podUID ∧ a = ip :=
      holds_allocate_iff ha
    obtain ⟨-, -, offset, rfl, hl, hhi, hu⟩ := allocate_offset ha
    rw [hb] at hh
    rw [hb, gateway, hb]
    refine ⟨by omega, by omega, by omega, by omega, by omega, ?_, hh⟩
    rintro other ⟨offset', hme, heq⟩
    obtain rfl : offset = offset' := by omega
    exact hu (mem_map_of_mem hme)
  · rw [allocate_eq_none, IPPool.Exhausted, hmx]
    simp only [used_eq_true]

/-- A pool of five addresses, of which all but the second are in use. -/
def fiveAddresses : List PoolCall :=
  [.allocate "a", .allocate "b", .allocate "a", .allocate "c", .allocate "d", .release "b" 0]

theorem allocate_after_calls_five :
  ∃ pool pool', poolCalls.run (.newIPPool 80 3 (by decide)) fiveAddresses = some pool
    ∧ pool.allocate "e" = some (pool', 83) ∧ (∀ other, ¬ pool.Holds other 83)
    ∧ pool'.Holds "e" 83 ∧ pool'.Holds "a" 84
    ∧ pool'.allocate "f" = none ∧ 6 ∈ pool'.inUse.map fst
  := by
  have hru : poolCalls.run (.newIPPool 80 3 (by decide)) fiveAddresses = some _ := rfl
  have hru' : poolCalls.run (.newIPPool 80 3 (by decide)) (fiveAddresses ++ [.allocate "e"])
    = some _ := rfl
  obtain ⟨-, -, -, -, -, hfr, hh⟩ := (allocate_after_calls hru "e").1 _ 83 rfl
  refine ⟨_, _, hru, rfl, hfr, (hh _ _).2 (Or.inr ⟨rfl, rfl⟩), (hh _ _).2 (Or.inl ?_), rfl, ?_⟩
  · exact ⟨4, by decide, rfl⟩
  · exact (allocate_after_calls hru' "f").2.1.1 rfl 6 (by decide) (by decide)

/-- The calls of the manager for one pod. -/
inductive PodCall where
  | setup (env : SetupEnv)
  | teardown (env : TeardownEnv)

def podCalls (podUID : String) : System LinuxNetworkManager PodCall where
  step
    | n, .setup env => some (setup n podUID env).1
    | n, .teardown env => some (teardown n podUID env).1

def FirstAddress (podUID : String) (n : LinuxNetworkManager) : PodCall → Prop
  | .setup env =>
    n.host.netns (netnsName podUID) ≠ none → recoverPodIP env.addrShow n.host podUID = none →
      ¬ n.pool.Exhausted → n.pool.HoldsNone podUID
  | .teardown _ => True

variable {n : LinuxNetworkManager}

theorem pool_teardown :
  (teardown n podUID env).1.pool = n.pool.release podUID env.walk
  := by
  unfold teardown
  split
  · rfl
  · dsimp only
    split
    all_goals rfl

theorem IPPool.HoldsNone.held_le (h : pool.HoldsNone podUID) :
  (pool.held podUID).length ≤ 1
  := by
  simp [holdsNone_iff.1 h]

theorem holdsNone_teardown :
  (teardown n podUID env).1.pool.HoldsNone podUID ↔ (n.pool.held podUID).length ≤ 1
  := by
  rw [pool_teardown, holdsNone_release]

theorem holdsNone_setup (h : n.host.netns (netnsName podUID) = none → n.pool.HoldsNone podUID)
    (hno : (setup n podUID env).1.host.netns (netnsName podUID) = none) :
  (setup n podUID env).1.pool.HoldsNone podUID
  := by
  generalize setup n podUID env = result, setup_step n podUID env = hs at hno ⊢
  cases hs with
  | recovered hns | reallocated hns | notReallocated hns => exact absurd hno hns
  | notAdded hns | notUp hns | notAllocated hns => exact h hns
  | failed hns _ _ ha => exact (holdsNone_allocate_release ha).2 (h hns)
  | @joined pool podIP host hns _ _ _ hjo =>
    have hj := joining_runAll (n.host.withNetns_self (netnsName podUID)) env.steps
    exact absurd hno (hjo ▸ hj _ _ : Joining _ _ _ _ host).netns_ne_none

theorem held_setup (h : n.host.netns (netnsName podUID) = none → n.pool.HoldsNone podUID)
    (hh : (n.pool.held podUID).length ≤ 1) :
  ((setup n podUID env).1.pool.held podUID).length ≤ 1 ↔ FirstAddress podUID n (.setup env)
  := by
  cases hns : n.host.netns (netnsName podUID) with
  | none =>
    have hno := h hns
    have hz := length_eq_zero_iff.2 (holdsNone_iff.1 hno)
    refine iff_of_true ?_ (fun hne => absurd hns hne)
    generalize setup n podUID env = result, setup_step n podUID env = hs
    cases hs with
    | recovered hne | reallocated hne | notReallocated hne => exact absurd hns hne
    | notAdded | notUp | notAllocated => exact hh
    | joined _ _ _ ha =>
      exact Nat.le_of_eq (by rw [held_allocate ha, hz])
    | failed _ _ _ ha => exact ((holdsNone_allocate_release ha).2 hno).held_le
  | some ns =>
    simp only [setup, hns, Option.isSome_some, if_true, FirstAddress, ne_eq, reduceCtorEq,
      not_false_eq_true, forall_const]
    cases hre : recoverPodIP env.addrShow n.host podUID with
    | some ip => simp [hh]
    | none =>
      cases ha : n.pool.allocate podUID with
      | none => simp [hh, allocate_eq_none.1 ha]
      | some result =>
        simp only [held_allocate ha, not_exhausted ha,
          holdsNone_iff, ← length_eq_zero_iff, forall_const, not_false_eq_true]
        omega

/-- A teardown after any part of the calls for a pod leaves it without an address if and only if no
setup gives the pod a second one. -/
theorem teardown_releases_iff (hn : n.pool.HoldsNone podUID) (calls : List PodCall) :
  (∀ before, before <+: calls → ∀ m, (podCalls podUID).run n before = some m →
      ∀ env, (teardown m podUID env).1.pool.HoldsNone podUID)
    ↔ (podCalls podUID).Meets (FirstAddress podUID) n calls
  := by
  have ht (m : LinuxNetworkManager) :
      (∀ env, (teardown m podUID env).1.pool.HoldsNone podUID)
        ↔ (m.pool.held podUID).length ≤ 1 :=
    ⟨fun h => holdsNone_teardown.mp (h {}), fun h _ => holdsNone_teardown.mpr h⟩
  simp only [ht]
  refine (podCalls podUID).forall_run_iff_meets_of_invariant
    (I := fun m => m.host.netns (netnsName podUID) = none → m.pool.HoldsNone podUID)
    hn.held_le (fun _ => hn) ?_ ?_ ((podCalls podUID).meets_true n calls)
  · intro u call v hh hno _ hs
    cases call with
    | setup env =>
      cases hs
      exact holdsNone_setup hno
    | teardown env =>
      cases hs
      exact fun _ => holdsNone_teardown.mpr hh
  · intro u call hh hno _
    cases call with
    | setup env =>
      rw [← held_setup hno hh]
      simp [podCalls]
    | teardown env =>
      refine iff_of_true ?_ trivial
      rintro _ ⟨⟩
      exact (holdsNone_teardown.mpr hh).held_le

/-- The second setup finds the address again, and the third, after a teardown, gets another. -/
theorem teardown_releases_again :
  ∃ n, (podCalls "a").run (newLinuxNetworkManager {})
      [.setup {}, .setup {}, .teardown {}, .setup {}] = some n
    ∧ n.pool.held "a" ≠ [] ∧ (teardown n "a" {}).1.pool.HoldsNone "a"
  := by
  have hru : (podCalls "a").run (newLinuxNetworkManager {})
      [.setup {}, .setup {}, .teardown {}, .setup {}] = some _ := rfl
  refine ⟨_, hru, by decide +kernel, (teardown_releases_iff (fun _ => not_mem_nil) _).mpr ?_ _
    (prefix_refl _) _ hru {}⟩
  refine ⟨fun h => absurd rfl h, fun _ h => ?_⟩
  cases h
  refine ⟨fun _ hre => ?_, fun _ h => ?_⟩
  · exact absurd hre (by decide +kernel)
  cases h
  refine ⟨trivial, fun _ h => ?_⟩
  cases h
  exact ⟨fun h => absurd rfl h, fun _ _ => trivial⟩

theorem teardown_leaves_address :
  ((podCalls "a").run (newLinuxNetworkManager {})
      [.setup { loUp := false }, .setup {}, .setup {}]).map
    (fun n => ((teardown n "a" {}).1.pool.held "a").length) = some 1
  := by
  decide +kernel

end Periapsis.Network
