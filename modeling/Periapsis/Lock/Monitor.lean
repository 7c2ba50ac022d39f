import Periapsis.Transition.System

/-!
# The monitor variable

A variable that is set by one party and read by subscriptions.
-/

namespace Periapsis.Lock

open Transition List Option Nat

variable {υ : Type*}

/-- What a subscriber has read; versions and channels are numbered. -/
structure Subscription where
  lastVersionRead : ℕ
  lastVersionReadInvalidationChannel : ℕ

/-- A variable whose changes are announced. The versions, of 64 bits in the source, are taken not to
run out. -/
structure MonitorVariable (υ : Type*) where
  currentValue : Option υ := none
  currentVersion : ℕ := 0
  versionInvalidationChannel : ℕ := 0
  channels : ℕ := 1
  closed : List ℕ := []
  subscriptions : List Subscription := []

namespace MonitorVariable

variable (m : MonitorVariable υ)

def set (newValue : υ) : Option (MonitorVariable υ) :=
  if m.versionInvalidationChannel ∈ m.closed then none
  else
    some { m with
      currentValue := some newValue
      currentVersion := m.currentVersion + 1
      closed := m.versionInvalidationChannel :: m.closed
      versionInvalidationChannel := m.channels
      channels := m.channels + 1 }

def subscribe : MonitorVariable υ :=
  if 0 < m.currentVersion then
    { m with
      closed := m.channels :: m.closed
      channels := m.channels + 1
      subscriptions := m.subscriptions ++ [⟨0, m.channels⟩] }
  else { m with subscriptions := m.subscriptions ++ [⟨0, m.versionInvalidationChannel⟩] }

def newValueReady (i : ℕ) : Option ℕ :=
  m.subscriptions[i]?.map Subscription.lastVersionReadInvalidationChannel

def value (i : ℕ) : Option (MonitorVariable υ × Option υ × ℕ) :=
  m.subscriptions[i]?.map fun _ =>
    ({ m with
        subscriptions := m.subscriptions.set i
          ⟨m.currentVersion, m.versionInvalidationChannel⟩ },
      m.currentValue, m.currentVersion)

end MonitorVariable

inductive MonitorCall (υ : Type*) where
  | set (newValue : υ)
  | subscribe
  | newValueReady (i : ℕ)
  | value (i : ℕ)

def monitor : System (MonitorVariable υ) (MonitorCall υ) where
  step m
    | .set newValue => m.set newValue
    | .subscribe => some m.subscribe
    | .newValueReady i => (m.newValueReady i).map fun _ => m
    | .value i => (m.value i).map Prod.fst

/-- Set since the last read of the subscription, or at all if there was none. -/
def setSince (i : ℕ) (calls : List (MonitorCall υ)) : Bool :=
  calls.foldl
    (fun b c => match c with
      | .set _ => true
      | .value j => b && i ≠ j
      | _ => b) false

def latest (calls : List (MonitorCall υ)) : Option υ :=
  calls.foldl (fun v c => match c with | .set newValue => some newValue | _ => v) none

structure Linked (since : ℕ → Bool) (latest : Option υ) (m : MonitorVariable υ) : Prop where
  latest : m.currentValue = latest
  unread : ∀ i, m.subscriptions.length ≤ i → (since i = true ↔ 0 < m.currentVersion)
  opened : m.versionInvalidationChannel ∉ m.closed
  made : ∀ ch ∈ m.versionInvalidationChannel :: m.closed, ch < m.channels
  channel : ∀ i sub, m.subscriptions[i]? = some sub → if since i = true
    then sub.lastVersionReadInvalidationChannel ∈ m.closed
    else sub.lastVersionReadInvalidationChannel = m.versionInvalidationChannel

theorem some_of_concat (h : (subs ++ [sub'])[i]? = some sub) :
  subs[i]? = some sub ∨ i = subs.length ∧ sub = sub'
  := by
  rw [getElem?_append] at h
  split at h
  · exact .inl h
  · rw [getElem?_singleton] at h
    split at h
    · exact .inr ⟨by omega, (some.inj h).symm⟩
    · cases h

namespace Linked

variable {since : ℕ → Bool} {v : Option υ} {m m' : MonitorVariable υ}

theorem set (h : Linked since v m) (hm : m.set newValue = some m') :
  Linked (fun _ => true) (some newValue) m'
  := by
  have hc := h.made
  rw [MonitorVariable.set, if_neg h.opened] at hm
  cases hm
  refine ⟨rfl, by simp, fun hch => Nat.lt_irrefl _ (hc _ hch), ?_, ?_⟩
  · simp only [forall_mem_cons] at hc ⊢
    exact ⟨by omega, by omega, fun ch hch => lt_succ_of_lt (hc.2 ch hch)⟩
  · intro i sub hi
    have hch := h.channel i sub hi
    rw [if_pos rfl, mem_cons]
    split at hch
    · exact .inr hch
    · exact .inl hch

theorem subscribe (h : Linked since v m) :
  Linked since v m.subscribe
  := by
  have hc := h.made
  have hu := h.unread m.subscriptions.length (Nat.le_refl _)
  rw [forall_mem_cons] at hc
  unfold MonitorVariable.subscribe
  split
  next hv =>
    refine ⟨h.latest, fun i hi => h.unread i ?_, ?_, ?_, ?_⟩
    · simp only [length_append] at hi
      omega
    · rw [mem_cons, not_or]
      exact ⟨Nat.ne_of_lt hc.1, h.opened⟩
    · simp only [forall_mem_cons]
      exact ⟨by omega, by omega, fun ch hch => lt_succ_of_lt (hc.2 ch hch)⟩
    · intro i sub hi
      rcases some_of_concat hi with hi | ⟨rfl, rfl⟩
      · have hch := h.channel i sub hi
        split at hch
        next hsi => rw [if_pos hsi]; exact mem_cons_of_mem _ hch
        next hsi => rw [if_neg hsi]; exact hch
      · rw [if_pos (hu.2 hv)]
        exact mem_cons_self
  next hv =>
    refine ⟨h.latest, fun i hi => h.unread i ?_, h.opened, h.made, ?_⟩
    · simp only [length_append] at hi
      omega
    · intro i sub hi
      rcases some_of_concat hi with hi | ⟨rfl, rfl⟩
      · exact h.channel i sub hi
      · rw [if_neg (fun hs => hv (hu.1 hs))]

theorem value (h : Linked since v m) (hm : m.value i = some r) :
  Linked (fun j => since j && j ≠ i) v r.1
  := by
  obtain ⟨sub, hi, rfl⟩ := map_eq_some_iff.1 hm
  obtain ⟨hi, -⟩ := List.getElem?_eq_some_iff.1 hi
  refine ⟨h.latest, ?_, h.opened, h.made, ?_⟩
  · intro j hj
    rw [length_set] at hj
    have hne : j ≠ i := by omega
    simp [hne, h.unread j hj]
  · intro j sub' hj
    rw [getElem?_set] at hj
    split at hj
    next he =>
      subst he
      cases hj
      simp
    next he =>
      simpa [Ne.symm he] using h.channel j sub' hj

end Linked

variable {calls : List (MonitorCall υ)} {m : MonitorVariable υ}

theorem linked_calls (h : monitor.run {} calls = some m) :
  Linked (setSince · calls) (latest calls) m
  := by
  apply monitor.run_history (P := fun calls => Linked (setSince · calls) (latest calls)) _ _ h
  · exact ⟨rfl, fun i _ => by simp [setSince], by simp, by simp, by simp⟩
  · intro calls m c m' h hc
    simp only [setSince, latest, foldl_append, foldl_cons, foldl_nil]
    cases c with
    | set newValue => exact h.set hc
    | subscribe =>
      cases hc
      exact h.subscribe
    | newValueReady i =>
      obtain ⟨ch, -, rfl⟩ := map_eq_some_iff.1 hc
      exact h
    | value i =>
      obtain ⟨r, hr, rfl⟩ := map_eq_some_iff.1 hc
      exact h.value hr

theorem version_le_of_run (h : monitor.run m calls = some m') :
  m.currentVersion ≤ m'.currentVersion
  := by
  apply monitor.run_induction (P := fun u => m.currentVersion ≤ u.currentVersion)
    (C := fun _ _ => True) (Nat.le_refl _) _ (monitor.meets_true m calls) h
  intro u c u' hu _ hc
  apply Nat.le_trans hu
  cases c with
  | set newValue =>
    change u.set newValue = some u' at hc
    unfold MonitorVariable.set at hc
    split at hc
    · cases hc
    · cases hc
      exact le_succ _
  | subscribe =>
    cases hc
    unfold MonitorVariable.subscribe
    split
    all_goals exact Nat.le_refl _
  | newValueReady i =>
    obtain ⟨ch, -, rfl⟩ := map_eq_some_iff.1 hc
    exact Nat.le_refl _
  | value i =>
    obtain ⟨r, hr, rfl⟩ := map_eq_some_iff.1 hc
    obtain ⟨sub, -, rfl⟩ := map_eq_some_iff.1 hr
    exact Nat.le_refl _

/-- The channel of a subscription is closed if and only if the variable was set since, a read gives
what was set last with a version that never falls, and setting does not panic. -/
theorem monitor_calls (calls : List (MonitorCall υ)) (m : MonitorVariable υ)
    (h : monitor.run {} calls = some m) :
  (∀ i ch, m.newValueReady i = some ch → (ch ∈ m.closed ↔ setSince i calls = true))
    ∧ (∀ i r, m.value i = some r → r.2.1 = latest calls
      ∧ ∀ later m' j r', monitor.run r.1 later = some m' → m'.value j = some r' → r.2.2 ≤ r'.2.2)
    ∧ ∀ newValue, (m.set newValue).isSome = true
  := by
  have hl := linked_calls h
  refine ⟨?_, ?_, ?_⟩
  · intro i ch hch
    obtain ⟨sub, hi, rfl⟩ := map_eq_some_iff.mp hch
    have hch := hl.channel i sub hi
    split at hch
    next hs => exact iff_of_true hch hs
    next hs =>
      apply iff_of_false _ hs
      rw [hch]
      exact hl.opened
  · intro i r hr
    obtain ⟨sub, -, rfl⟩ := map_eq_some_iff.mp hr
    refine ⟨hl.latest, fun later m' j r' hm' hr' => ?_⟩
    obtain ⟨sub', -, rfl⟩ := map_eq_some_iff.mp hr'
    have hv := version_le_of_run hm'
    exact hv
  · intro newValue
    rw [MonitorVariable.set, if_neg hl.opened]
    rfl

/-- The first subscription has read what was set, the second one has not. -/
def twoSubscriptions : List (MonitorCall ℕ) :=
  [.subscribe, .subscribe, .set 7, .value 0, .newValueReady 1]

theorem monitor_calls_two :
  ∃ m ch r, monitor.run {} twoSubscriptions = some m
    ∧ m.newValueReady 1 = some ch ∧ ch ∈ m.closed
    ∧ m.value 1 = some r ∧ r.2.1 = some 7
    ∧ (∀ m' r', monitor.run r.1 [.set 8] = some m' → m'.value 0 = some r' → r.2.2 ≤ r'.2.2)
    ∧ (m.set 9).isSome = true
  := by
  have hru : monitor.run {} twoSubscriptions = some _ := rfl
  obtain ⟨hc, hr, hs⟩ := monitor_calls _ _ hru
  obtain ⟨hl, hv⟩ := hr 1 _ rfl
  exact ⟨_, _, _, hru, rfl, (hc 1 _ rfl).2 rfl, rfl, hl, fun m' r' => hv [.set 8] m' 0 r', hs 9⟩

end Periapsis.Lock
