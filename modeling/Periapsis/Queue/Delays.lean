import Periapsis.Queue.Updates

/-!
# Delays

A call without rate limit asks for a key by some time, and a key that is in the queue is planned for
then or earlier.
-/

namespace Periapsis.Queue

open Transition Option Machine KeyState

def Action.request (key : String) (clock : Time) : Action → Option Time
  | .enqueueWithoutRateLimit k elapsed => if k = key then some (clock + elapsed) else none
  | .enqueueWithoutRateLimitWithDelay k after elapsed =>
    if k = key then some (clock + elapsed + after.toInt) else none
  | _ => none

def Machine.Keeps (key : String) (m : Machine) : Action → Prop
  | .take worker elapsed => m.takes worker elapsed ≠ some key
  | .forget k => k ≠ key
  | _ => True

def KeyAction.Keeps : KeyAction → Prop
  | .take => False
  | .forget => False
  | _ => True

/-- A step that completes the item of a key puts the key back by the given time, with the delay that
the failure or a call made meanwhile asks for. -/
def OnTime (due : Time) : KeyState → KeyAction → Prop
  | .processing item, .complete results now now' =>
    let redirtied := ∀ t ∈ item.redirtiedAt, now' + (timeSub t now).toInt ≤ due
    match results.err with
    | none => redirtied
    | some err =>
      match results.retryFunc item.key (item.requeues + 1) item.originallyAdded err with
      | .ok delay => now' + (delay.getD results.limit).toInt ≤ due
      | .error _ => redirtied
  | _, _ => True

/-- The key is asked for by the given time. -/
def KeyState.Asked (due : Time) : KeyState → Prop
  | .absent => False
  | .queued _ => True
  | .processing item => item.forget = false ∧ ∃ t, item.redirtiedAt = some t ∧ t ≤ due

def KeyState.PlannedBy (due : Time) : KeyState → Prop
  | .queued item => item.plannedToStartWorkAt ≤ due
  | _ => True

variable {key : String} {due : Time} {state : KeyState}

theorem newItem_planned_some {key : String} :
  (newItem key ratelimit (some delay) now limit).plannedToStartWorkAt = now + delay.toInt
  := by
  cases ratelimit with
  | _ => rfl

variable {item : QueueItem}

theorem release_planned (ht : item.redirtiedAt = some t) :
  ∃ item', KeyState.release item.key item now now' limit = .queued item'
    ∧ item'.plannedToStartWorkAt = now' + (timeSub t now).toInt
  := by
  rw [KeyState.release, ht]
  exact ⟨_, rfl, newItem_planned_some⟩

theorem asked_insert (state : KeyState) :
  (state.insert key ratelimit delay now limit).Asked (dueAt now delay)
  := by
  cases state with
  | processing item =>
    obtain ⟨t, hre, hle, -⟩ := redirty_spec item (dueAt now delay) ratelimit
    exact ⟨rfl, t, hre, hle⟩
  | _ => trivial

theorem plannedBy_insert (state : KeyState) :
  (state.insert key false delay now limit).PlannedBy (dueAt now delay)
  := by
  cases state with
  | absent => exact le_refl _
  | queued item =>
    rw [KeyState.insert]
    split
    next hea =>
      exact hea.le
    · exact le_refl _
  | processing item => trivial

theorem KeyState.Asked.insert (h : state.Asked due) (ratelimit : Bool) (delay : Option Duration)
    (now : Time) (limit : Duration) :
  (state.insert key ratelimit delay now limit).Asked due
  := by
  cases state with
  | absent => exact h.elim
  | queued item => trivial
  | processing item =>
    obtain ⟨-, t, ht, hle⟩ := h
    obtain ⟨t', hre, -, hea⟩ := redirty_spec item (dueAt now delay) ratelimit
    exact ⟨rfl, t', hre, (hea t ht).trans hle⟩

theorem KeyState.PlannedBy.insert (h : state.PlannedBy due) (has : state.Asked due)
    (ratelimit : Bool) (delay : Option Duration) (now : Time) (limit : Duration) :
  (state.insert key ratelimit delay now limit).PlannedBy due
  := by
  cases state with
  | absent => exact has.elim
  | queued item =>
    rw [insert]
    split
    · exact h
    next hla =>
      exact (not_lt.1 hla).trans h
  | processing item => trivial

theorem complete_onTime_iff (onForget : Bool) (hf : item.forget = false)
    (ht : item.redirtiedAt = some t) (due : Time) (results : Results) (now now' : Time) :
  ∃ item', (complete onForget results now now' (.processing item)).1 = .queued item'
    ∧ (item'.plannedToStartWorkAt ≤ due
      ↔ OnTime due (.processing item) (.complete results now now'))
  := by
  have hre : (∀ t' ∈ item.redirtiedAt, now' + (timeSub t' now).toInt ≤ due)
      ↔ now' + (timeSub t now).toInt ≤ due := by
    simp [ht]
  obtain ⟨item', hrl, hp⟩ := release_planned ht
  rw [← hp] at hre
  rw [KeyState.complete, outcome, hf, OnTime, hre]
  cases results.err with
  | none => exact ⟨item', hrl, Iff.rfl⟩
  | some err =>
    dsimp only
    cases results.retryFunc item.key (item.requeues + 1) item.originallyAdded err with
    | ok delay => exact ⟨_, rfl, Iff.rfl⟩
    | error err => exact ⟨item', hrl, Iff.rfl⟩

variable {a : KeyAction}

theorem KeyState.Asked.step (h : state.Asked due) (onForget : Bool) (ha : a.Keeps) :
  ((keyMachine onForget key).step state a).1.Asked due
  := by
  cases a with
  | other => exact h
  | insert ratelimit delay now limit => exact h.insert ratelimit delay now limit
  | complete results now now' =>
    cases state with
    | processing item =>
      obtain ⟨hf, t, ht, -⟩ := h
      obtain ⟨item', hi, -⟩ := complete_onTime_iff onForget hf ht due results now now'
      change (complete _ _ _ _ _).1.Asked due
      rw [hi]
      trivial
    | _ => exact h
  | _ => exact ha.elim

theorem KeyState.PlannedBy.step_iff (h : state.PlannedBy due) (has : state.Asked due)
    (onForget : Bool) (ha : a.Keeps) :
  ((keyMachine onForget key).step state a).1.PlannedBy due ↔ OnTime due state a
  := by
  cases a with
  | other => exact iff_of_true h (by simp [OnTime])
  | insert ratelimit delay now limit =>
    exact iff_of_true (h.insert has ratelimit delay now limit) (by simp [OnTime])
  | complete results now now' =>
    cases state with
    | processing item =>
      obtain ⟨hf, t, ht, -⟩ := has
      obtain ⟨item', hi, hif⟩ := complete_onTime_iff onForget hf ht due results now now'
      rw [← hif]
      change (complete _ _ _ _ _).1.PlannedBy due ↔ _
      rw [hi]
      rfl
    | _ => exact iff_of_true h trivial
  | _ => exact ha.elim

variable {m : Machine}

theorem keeps_meaning (a : Action) :
  (m.meaning key a).Keeps ↔ m.Keeps key a
  := by
  cases a with
  | forget k => by_cases hk : k = key <;> simp [meaning, Machine.Keeps, KeyAction.Keeps, hk]
  | take worker elapsed =>
    by_cases hta : m.takes worker elapsed = some key <;>
      simp [meaning, Machine.Keeps, KeyAction.Keeps, hta]
  | _ =>
    rw [meaning]
    apply iff_of_true
    · split
      all_goals trivial
    · trivial

theorem request_meaning {call : Action} (hc : call.request key m.clock = some due) :
  ∃ delay now, m.meaning key call = .insert false delay now 0 ∧ dueAt now delay = due
  := by
  cases call with
  | enqueueWithoutRateLimit k elapsed =>
    obtain ⟨rfl, hd⟩ := ite_none_right_eq_some.1 hc
    use none, m.clock + elapsed
    rw [meaning, if_pos rfl, ← some.inj hd]
    exact ⟨rfl, Int.add_zero _⟩
  | enqueueWithoutRateLimitWithDelay k after elapsed =>
    obtain ⟨rfl, hd⟩ := ite_none_right_eq_some.1 hc
    use some after, m.clock + elapsed
    rw [meaning, if_pos rfl, ← some.inj hd]
    exact ⟨rfl, rfl⟩
  | _ => cases hc

theorem Consistent.plannedBy_iff {q : Queue} (h : q.Consistent) (key : String) (due : Time) :
  (q.stateOf key).PlannedBy due
    ↔ ∀ r ∈ q.items, (q.heap r).key = key → (q.heap r).plannedToStartWorkAt ≤ due
  := by
  constructor
  · intro hp r hr hky
    have hl := (h.listed key r).2 ⟨hr, hky⟩
    rw [stateOf_of_queued (h.disjoint key r hl) hl] at hp
    exact hp
  · intro hp
    rw [stateOf]
    split
    · trivial
    · split
      next r hl =>
        obtain ⟨hr, hky⟩ := (h.listed key r).1 hl
        exact hp r hr hky
      · trivial

/-- A key that was asked for without a rate limit is planned for the requested time or an earlier
one, exactly if every completion puts it back on time. -/
theorem planned_by_request_iff (onForget : Bool) (clock : Time) (pre post : List Action)
    (call : Action) (key : String) (due : Time)
    (hcall : call.request key ((machine onForget).final (Machine.init clock) pre).clock = some due)
    (hpost : (machine onForget).Meets (Machine.Keeps key)
      ((machine onForget).final (Machine.init clock) (pre ++ [call])) post) :
  let after := (machine onForget).final (Machine.init clock) (pre ++ [call])
  (∀ run, run <+: post →
      let q := ((machine onForget).final after run).queue
      ∀ r ∈ q.items, (q.heap r).key = key → (q.heap r).plannedToStartWorkAt ≤ due)
    ↔ (machine onForget).Meets (fun m a => OnTime due (m.queue.stateOf key) (m.meaning key a))
        after post
  := by
  intro after
  have hpr := projects onForget key
  have haf : after.Consistent := consistent_final onForget clock _
  obtain ⟨has, hp⟩ :
      (after.queue.stateOf key).Asked due ∧ (after.queue.stateOf key).PlannedBy due := by
    obtain ⟨delay, now, hm, rfl⟩ := request_meaning hcall
    rw [stateOf_final_concat, hm]
    exact ⟨asked_insert .., plannedBy_insert ..⟩
  have hke : ∀ a ∈ (machine onForget).along (meaning key) after post, a.Keeps := by
    rw [Mealy.forall_mem_along]
    simpa only [keeps_meaning] using hpost
  have hif := (keyMachine onForget key).forall_final_iff_meets has hp
    (fun _ _ ha h => h.step onForget ha) (fun _ _ ha h h' => h'.step_iff h onForget ha) hke
  rw [hpr.forall_prefix haf, hpr.meets haf] at hif
  rw [← hif]
  apply forall₂_congr
  intro run hru
  exact ((hpr.inv_final haf run).queue.plannedBy_iff key due).symm

theorem planned_by_request_success :
  let results : Results := { err := none, retryFunc := defaultRetryFunc, limit := 10 }
  let q := ((machine true).final (Machine.init 0)
    [.enqueueWithoutRateLimit "pod" 0, .take 0 1, .enqueueWithoutRateLimitWithDelay "pod" 5 2,
      .complete 0 results 1 0]).queue
  ∀ r ∈ q.items, (q.heap r).key = "pod" → (q.heap r).plannedToStartWorkAt ≤ 8
  := by
  intro results q
  apply (planned_by_request_iff true 0 [.enqueueWithoutRateLimit "pod" 0, .take 0 1]
    [.complete 0 results 1 0] (.enqueueWithoutRateLimitWithDelay "pod" 5 2) "pod" 8 (by decide)
    ⟨trivial, trivial⟩).mpr _ [.complete 0 results 1 0] (List.prefix_refl _)
  refine ⟨?_, trivial⟩
  change ∀ t ∈ some (8 : Time), 4 + (timeSub t 4).toInt ≤ 8
  decide

/-- A request made while the handler runs is not kept if it fails: the key is planned for a later
time than the one of the call. -/
theorem not_planned_by_request :
  let results : Results := { err := some "sync", retryFunc := defaultRetryFunc, limit := 10 }
  let call : Action := .enqueueWithoutRateLimit "pod" 2
  let before := (machine true).final (Machine.init 0) [.enqueueWithoutRateLimit "pod" 0, .take 0 1]
  let after := (machine true).final before [call, .complete 0 results 1 0]
  call.request "pod" before.clock = some 3
    ∧ ∃ r ∈ after.queue.items, (after.queue.heap r).key = "pod"
      ∧ 3 < (after.queue.heap r).plannedToStartWorkAt
  := by
  decide

end Periapsis.Queue
