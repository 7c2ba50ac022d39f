import Periapsis.Queue.Invariant

/-!
# The life of a key

To a key the queue is a small machine (`keyMachine`): it is absent, queued or being processed.
-/

namespace Periapsis.Queue

open Transition Machine Function Option

inductive Outcome where
  | forgotten
  | requeued (delay : Option Duration)
  | released (err : Option String)
  deriving DecidableEq

def outcome (qi : QueueItem) (results : Results) : Outcome :=
  if qi.forget then .forgotten
  else
    match results.err with
    | none => .released none
    | some err =>
      match results.retryFunc qi.key (qi.requeues + 1) qi.originallyAdded err with
      | .ok delay => .requeued delay
      | .error err => .released (some (giveUp qi err))

theorem outcome_cases (qi : QueueItem) (results : Results) :
  qi.forget ∧ outcome qi results = .forgotten
    ∨ qi.forget = false
      ∧ (results.err = none ∧ outcome qi results = .released none
        ∨ ∃ err, results.err = some err
          ∧ ((∃ delay,
              results.retryFunc qi.key (qi.requeues + 1) qi.originallyAdded err = .ok delay
                ∧ outcome qi results = .requeued delay)
            ∨ ∃ err',
              results.retryFunc qi.key (qi.requeues + 1) qi.originallyAdded err = .error err'
                ∧ outcome qi results = .released (some (giveUp qi err'))))
  := by
  unfold outcome
  cases qi.forget with
  | true => simp
  | false =>
    cases results.err with
    | none => simp
    | some err =>
      cases hre : results.retryFunc qi.key (qi.requeues + 1) qi.originallyAdded err with
      | _ => simp [hre]

variable {onForget : Bool}

theorem handleQueueItemObject_eq (q : Queue) :
  q.handleQueueItemObject onForget r results now now'
    = match outcome (q.heap r) results with
      | .forgotten => (q.setProcessed (q.heap r).key none, [], none)
      | .requeued delay =>
        let inserted := (q.setProcessed (q.heap r).key none).insert (q.heap r).key true delay now'
          results.limit
        (inserted.1.modify inserted.2 fun item => item.requeue (q.heap r), [], none)
      | .released err =>
        let released := (q.setProcessed (q.heap r).key none).release onForget (q.heap r) err now
          now' results.limit
        (released.1, released.2, err)
  := by
  unfold handleQueueItemObject outcome
  dsimp only
  cases (q.heap r).forget with
  | true => rfl
  | false =>
    cases results.err with
    | none => rfl
    | some err =>
      simp only [Bool.false_eq_true, if_false]
      cases results.retryFunc (q.heap r).key ((q.heap r).requeues + 1)
        (q.heap r).originallyAdded err with
      | ok delay => rfl
      | error err => rfl

/-- What the queue knows of a key. -/
inductive KeyState where
  | absent
  | queued (item : QueueItem)
  | processing (item : QueueItem)
  deriving DecidableEq

inductive KeyAction where
  | other
  | insert (ratelimit : Bool) (delay : Option Duration) (now : Time) (limit : Duration)
  | forget
  | take
  | complete (results : Results) (now now' : Time)

inductive KeyEvent where
  | taken
  | onForget (err : String)
  | handled (err : Option String)
  deriving DecidableEq

namespace KeyState

def insert (key : String) (ratelimit : Bool) (delay : Option Duration) (now : Time)
    (limit : Duration) : KeyState → KeyState
  | .absent => .queued (newItem key ratelimit delay now limit)
  | .queued item =>
    .queued
      (if item.plannedToStartWorkAt < dueAt now delay then item
      else item.planAt (dueAt now delay))
  | .processing item => .processing (item.redirty (dueAt now delay) ratelimit)

def forget : KeyState → KeyState
  | .absent => .absent
  | .queued _ => .absent
  | .processing item => .processing { item with forget := true }

def take : KeyState → KeyState
  | .queued item => .processing item
  | state => state

def release (key : String) (qi : QueueItem) (now now' : Time) (limit : Duration) : KeyState :=
  match qi.redirtiedAt with
  | some redirtiedAt =>
    .queued (newItem key qi.redirtiedWithRatelimit (some (timeSub redirtiedAt now)) now'
      limit).viaRedirty
  | none => .absent

def called (onForget : Bool) : Option String → List KeyEvent
  | some e => if onForget then [.onForget e] else []
  | none => []

def complete (onForget : Bool) (results : Results) (now now' : Time) :
    KeyState → KeyState × List KeyEvent
  | .processing qi =>
    match outcome qi results with
    | .forgotten => (.absent, [.handled none])
    | .requeued delay =>
      (.queued ((newItem qi.key true delay now' results.limit).requeue qi), [.handled none])
    | .released err =>
      (release qi.key qi now now' results.limit, called onForget err ++ [.handled err])
  | state => (state, [])

end KeyState

def keyMachine (onForget : Bool) (key : String) : Mealy KeyState KeyAction KeyEvent where
  step state a :=
    match a with
    | .other => (state, [])
    | .insert ratelimit delay now limit => (state.insert key ratelimit delay now limit, [])
    | .forget => (state.forget, [])
    | .take => (state.take, match state with | .queued _ => [.taken] | _ => [])
    | .complete results now now' => state.complete onForget results now now'

/-- The state of a key in a queue. -/
def stateOf (q : Queue) (key : String) : KeyState :=
  match q.itemsBeingProcessed key with
  | some r => .processing (q.heap r)
  | none =>
    match q.itemsInQueue key with
    | some r => .queued (q.heap r)
    | none => .absent

def Event.ofKey (key : String) : Event → Option KeyEvent
  | .taken _ k => if k = key then some .taken else none
  | .onForget k err => if k = key then some (.onForget err) else none
  | .handled _ k err => if k = key then some (.handled err) else none

def Machine.takes (m : Machine) (worker elapsed : Nat) : Option String :=
  match m.working worker with
  | some _ => none
  | none => (m.queue.getNextItem (m.clock + elapsed)).map fun taken => (m.queue.heap taken.2).key

def Machine.completes (m : Machine) (worker : Nat) : Option String :=
  (m.working worker).map fun r => (m.queue.heap r).key

def Machine.meaning (key : String) (m : Machine) : Action → KeyAction
  | .enqueue k elapsed limit =>
    if k = key then .insert true none (m.clock + elapsed) limit else .other
  | .enqueueWithoutRateLimit k elapsed =>
    if k = key then .insert false none (m.clock + elapsed) 0 else .other
  | .enqueueWithoutRateLimitWithDelay k after elapsed =>
    if k = key then .insert false (some after) (m.clock + elapsed) 0 else .other
  | .forget k => if k = key then .forget else .other
  | .take worker elapsed => if m.takes worker elapsed = some key then .take else .other
  | .complete worker results elapsed elapsed' =>
    if m.completes worker = some key then
      .complete results (m.clock + elapsed) (m.clock + elapsed + elapsed')
    else .other

variable {q q' : Queue} {key k : String} {r : Ref} {f : QueueItem → QueueItem}

theorem stateOf_of_processed (h : q.itemsBeingProcessed key = some r) :
  q.stateOf key = .processing (q.heap r)
  := by
  rw [stateOf, h]

theorem stateOf_of_queued (hn : q.itemsBeingProcessed key = none)
    (h : q.itemsInQueue key = some r) :
  q.stateOf key = .queued (q.heap r)
  := by
  rw [stateOf, hn, h]

theorem stateOf_of_none (hn : q.itemsBeingProcessed key = none) (h : q.itemsInQueue key = none) :
  q.stateOf key = .absent
  := by
  rw [stateOf, hn, h]

theorem stateOf_congr (hp : q'.itemsBeingProcessed k = q.itemsBeingProcessed k)
    (hqu : q'.itemsInQueue k = q.itemsInQueue k)
    (hh : ∀ r, q.itemsBeingProcessed k = some r ∨ q.itemsInQueue k = some r →
      q'.heap r = q.heap r) :
  q'.stateOf k = q.stateOf k
  := by
  rw [stateOf, stateOf, hp, hqu]
  cases h : q.itemsBeingProcessed k with
  | some r =>
    dsimp only
    rw [hh r (.inl h)]
  | none =>
    cases h' : q.itemsInQueue k with
    | some r =>
      dsimp only
      rw [hh r (.inr h')]
    | none => rfl

theorem Consistent.key_of_item (h : q.Consistent)
    (hr : q.itemsBeingProcessed k = some r ∨ q.itemsInQueue k = some r) :
  (q.heap r).key = k
  := by
  rcases hr with hr | hr
  · exact h.processed k r hr
  · exact ((h.listed k r).1 hr).2

theorem Consistent.item_lt_next (h : q.Consistent)
    (hr : q.itemsBeingProcessed k = some r ∨ q.itemsInQueue k = some r) :
  r < q.next
  := by
  rcases hr with hr | hr
  · exact h.allocated_processed k r hr
  · exact h.allocated r ((h.listed k r).1 hr).1

section Operations

theorem Consistent.stateOf_modify_ne (h : q.Consistent) (hk : (q.heap r).key ≠ k) :
  (q.modify r f).stateOf k = q.stateOf k
  := by
  apply stateOf_congr
  · rfl
  · rfl
  · intro x hx
    rw [heap_modify, if_neg]
    rintro rfl
    exact hk (h.key_of_item hx)

theorem stateOf_modify_processed (hr : q.itemsBeingProcessed key = some r) :
  (q.modify r f).stateOf key = .processing (f (q.heap r))
  := by
  rw [stateOf_of_processed (q := q.modify r f) hr, heap_modify, if_pos rfl]

theorem stateOf_modify_queued (hn : q.itemsBeingProcessed key = none)
    (hr : q.itemsInQueue key = some r) :
  (q.modify r f).stateOf key = .queued (f (q.heap r))
  := by
  rw [stateOf_of_queued (q := q.modify r f) hn hr, heap_modify, if_pos rfl]

theorem Consistent.stateOf_push_ne (h : q.Consistent) {val : QueueItem} (hk : val.key ≠ k) :
  (q.push val).1.stateOf k = q.stateOf k
  := by
  apply stateOf_congr
  · rfl
  · rw [itemsInQueue_push, if_neg (Ne.symm hk)]
  · intro x hx
    rw [heap_push, if_neg]
    rintro rfl
    exact lt_irrefl _ (h.item_lt_next hx)

theorem stateOf_push (val : QueueItem) (hn : q.itemsBeingProcessed val.key = none) :
  (q.push val).1.stateOf val.key = .queued val
  := by
  rw [stateOf_of_queued (q := (q.push val).1) (r := q.next) hn, heap_push, if_pos rfl]
  rw [itemsInQueue_push, if_pos rfl]

variable {ratelimit : Bool} {delay : Option Duration} {now : Time} {limit : Duration}

theorem insert_processed (hr : q.itemsBeingProcessed key = some r) :
  q.insert key ratelimit delay now limit
    = (q.modify r fun item => item.redirty (dueAt now delay) ratelimit, r)
  := by
  rw [insert, hr]

theorem insert_queued (hn : q.itemsBeingProcessed key = none) (hr : q.itemsInQueue key = some r) :
  q.insert key ratelimit delay now limit = (q.adjustPosition r (dueAt now delay), r)
  := by
  rw [insert, hn, hr]

theorem insert_absent (hn : q.itemsBeingProcessed key = none) (hqu : q.itemsInQueue key = none) :
  q.insert key ratelimit delay now limit = q.push (newItem key ratelimit delay now limit)
  := by
  rw [insert, hn, hqu]

theorem stateOf_insert :
  (q.insert key ratelimit delay now limit).1.stateOf key
    = (q.stateOf key).insert key ratelimit delay now limit
  := by
  cases hp : q.itemsBeingProcessed key with
  | some r =>
    rw [insert_processed hp, stateOf_modify_processed hp, stateOf_of_processed hp]
    rfl
  | none =>
    cases hqu : q.itemsInQueue key with
    | some r =>
      rw [insert_queued hp hqu, adjustPosition_eq, stateOf_of_queued hp hqu, KeyState.insert]
      split
      next hea =>
        rw [stateOf_of_queued hp hqu]
        exact congrArg _ (if_pos hea).symm
      next hla =>
        apply (stateOf_modify_queued (f := fun item => item.planAt (dueAt now delay))
          hp hqu).trans
        exact congrArg _ (if_neg hla).symm
    | none =>
      rw [insert_absent hp hqu, stateOf_of_none hp hqu]
      have hpu := stateOf_push (q := q) (newItem key ratelimit delay now limit)
      rw [newItem_key] at hpu
      apply hpu hp

theorem Consistent.stateOf_insert_ne (h : q.Consistent) (hk : key ≠ k) :
  (q.insert key ratelimit delay now limit).1.stateOf k = q.stateOf k
  := by
  cases hp : q.itemsBeingProcessed key with
  | some r =>
    rw [insert_processed hp]
    dsimp only
    apply h.stateOf_modify_ne
    rw [h.processed key r hp]
    exact hk
  | none =>
    cases hqu : q.itemsInQueue key with
    | some r =>
      rw [insert_queued hp hqu, adjustPosition_eq]
      split
      · rfl
      · apply h.stateOf_modify_ne (f := fun item => item.planAt (dueAt now delay))
        rw [h.key_of_item (.inr hqu)]
        exact hk
    | none =>
      rw [insert_absent hp hqu]
      apply h.stateOf_push_ne
      rw [newItem_key]
      exact hk

theorem Consistent.stateOf_forget (h : q.Consistent) :
  (q.forget key).stateOf key = (q.stateOf key).forget
  := by
  unfold Queue.forget
  split
  next r hqu =>
    have hn := h.disjoint key r hqu
    rw [stateOf_of_queued hn hqu, KeyState.forget]
    apply stateOf_of_none (q := q.unlist key r) hn
    exact update_self ..
  next hqu =>
    split
    next r hp =>
      rw [stateOf_modify_processed hp, stateOf_of_processed hp]
      rfl
    next hp =>
      rw [stateOf_of_none hp hqu]
      rfl

theorem stateOf_unlist_ne (hk : key ≠ k) :
  (q.unlist key r).stateOf k = q.stateOf k
  := by
  apply stateOf_congr
  · rfl
  · exact update_of_ne (Ne.symm hk) ..
  · exact fun _ _ => rfl

theorem stateOf_setProcessed_ne {r : Option Ref} (hk : key ≠ k) :
  (q.setProcessed key r).stateOf k = q.stateOf k
  := by
  apply stateOf_congr
  · exact update_of_ne (Ne.symm hk) ..
  · rfl
  · exact fun _ _ => rfl

theorem Consistent.stateOf_forget_ne (h : q.Consistent) (hk : key ≠ k) :
  (q.forget key).stateOf k = q.stateOf k
  := by
  unfold Queue.forget
  split
  · apply stateOf_unlist_ne hk
  · split
    next r hp =>
      apply h.stateOf_modify_ne
      rw [h.processed key r hp]
      exact hk
    · rfl

theorem stateOf_replace (hn : q.itemsBeingProcessed key = none) (hqu : q.itemsInQueue key = none) :
  ((q.insert key ratelimit delay now limit).1.modify
      (q.insert key ratelimit delay now limit).2 f).stateOf key
    = .queued (f (newItem key ratelimit delay now limit))
  := by
  rw [insert_absent hn hqu]
  have hl : (q.push (newItem key ratelimit delay now limit)).1.itemsInQueue key = some q.next := by
    rw [itemsInQueue_push, newItem_key, if_pos rfl]
  apply (stateOf_modify_queued (q := (q.push _).1) hn hl).trans
  rw [heap_push, if_pos rfl]

theorem Consistent.stateOf_replace_ne (h : q.Consistent) (hn : q.itemsBeingProcessed key = none)
    (hqu : q.itemsInQueue key = none) (hk : key ≠ k) :
  ((q.insert key ratelimit delay now limit).1.modify
      (q.insert key ratelimit delay now limit).2 f).stateOf k = q.stateOf k
  := by
  rw [(h.insert key ratelimit delay now limit).stateOf_modify_ne, h.stateOf_insert_ne hk]
  rw [insert_absent hn hqu]
  change ((q.push _).1.heap q.next).key ≠ k
  rw [heap_push, if_pos rfl, newItem_key]
  exact hk

end Operations

section Completion

variable {results : Results} {now now' : Time}

theorem Consistent.stateOf_completed (h : q.Consistent) (hr : q.itemsBeingProcessed key = some r) :
  (q.setProcessed key none).itemsBeingProcessed key = none
    ∧ (q.setProcessed key none).itemsInQueue key = none
  := by
  constructor
  · exact update_self ..
  · cases hqu : q.itemsInQueue key with
    | none => exact hqu
    | some x =>
      rw [h.disjoint key x hqu] at hr
      cases hr

variable {qi : QueueItem} {err : Option String} {limit : Duration}

theorem release_called :
  (q.release onForget qi err now now' limit).2
    = match err with
      | some e => if onForget then [.onForget qi.key e] else []
      | none => []
  := by
  unfold Queue.release
  dsimp only
  split
  all_goals rfl

theorem release_events :
  (q.release onForget qi err now now' limit).2.filterMap (Event.ofKey key)
    = if qi.key = key then KeyState.called onForget err else []
  := by
  rw [release_called]
  cases err with
  | none => simp [KeyState.called]
  | some e =>
    cases onForget with
    | true => by_cases hke : qi.key = key <;> simp [Event.ofKey, KeyState.called, hke]
    | false => simp [KeyState.called]

theorem stateOf_release (hn : q.itemsBeingProcessed qi.key = none)
    (hqu : q.itemsInQueue qi.key = none) :
  (q.release onForget qi err now now' limit).1.stateOf qi.key
    = KeyState.release qi.key qi now now' limit
  := by
  unfold Queue.release KeyState.release
  cases qi.redirtiedAt with
  | some redirtiedAt => exact stateOf_replace hn hqu
  | none => exact stateOf_of_none hn hqu

theorem Consistent.stateOf_release_ne (h : q.Consistent)
    (hn : q.itemsBeingProcessed qi.key = none) (hqu : q.itemsInQueue qi.key = none)
    (err : Option String) (limit : Duration) (hk : qi.key ≠ k) :
  (q.release onForget qi err now now' limit).1.stateOf k = q.stateOf k
  := by
  unfold Queue.release
  cases qi.redirtiedAt with
  | some redirtiedAt => exact h.stateOf_replace_ne hn hqu hk
  | none => rfl

theorem Consistent.stateOf_handle (h : q.Consistent)
    (hr : q.itemsBeingProcessed (q.heap r).key = some r) (worker : Nat) :
  let result := q.handleQueueItemObject onForget r results now now'
  (q.stateOf (q.heap r).key).complete onForget results now now'
    = (result.1.stateOf (q.heap r).key,
      (result.2.1 ++ [Event.handled worker (q.heap r).key result.2.2]).filterMap
        (Event.ofKey (q.heap r).key))
  := by
  obtain ⟨hn, hqu⟩ := h.stateOf_completed hr
  rw [stateOf_of_processed hr, KeyState.complete, handleQueueItemObject_eq]
  cases outcome (q.heap r) results with
  | forgotten =>
    dsimp only
    rw [stateOf_of_none hn hqu]
    simp [Event.ofKey]
  | requeued delay =>
    dsimp only
    rw [stateOf_replace hn hqu]
    simp [Event.ofKey]
  | released err =>
    dsimp only
    rw [stateOf_release hn hqu, List.filterMap_append, release_events]
    simp [Event.ofKey]

theorem Consistent.stateOf_handle_ne (h : q.Consistent)
    (hr : q.itemsBeingProcessed (q.heap r).key = some r) (worker : Nat) (hk : (q.heap r).key ≠ k) :
  let result := q.handleQueueItemObject onForget r results now now'
  result.1.stateOf k = q.stateOf k
    ∧ (result.2.1 ++ [Event.handled worker (q.heap r).key result.2.2]).filterMap (Event.ofKey k)
      = []
  := by
  obtain ⟨hn, hqu⟩ := h.stateOf_completed hr
  have hq := h.unprocessed (q.heap r).key
  rw [← stateOf_setProcessed_ne (q := q) (r := none) hk, handleQueueItemObject_eq]
  cases outcome (q.heap r) results with
  | forgotten => simp [Event.ofKey, hk]
  | requeued delay =>
    dsimp only
    rw [hq.stateOf_replace_ne hn hqu hk]
    simp [Event.ofKey, hk]
  | released err =>
    dsimp only
    rw [hq.stateOf_release_ne hn hqu err _ hk, List.filterMap_append, release_events]
    simp [Event.ofKey, hk]

end Completion

section Steps

variable {m : Machine} (onForget)

theorem insert_meaning (h : m.Consistent) {key : String} (k : String) {delay : Option Duration}
    {elapsed : Nat} {limit : Duration} :
  (keyMachine onForget key).step (m.queue.stateOf key)
      (if k = key then .insert ratelimit delay (m.clock + elapsed) limit else .other)
    = ((m.insert k ratelimit delay elapsed limit).queue.stateOf key, [])
  := by
  split
  next hk =>
    subst hk
    apply Prod.ext
    · exact stateOf_insert.symm
    · rfl
  next hk =>
    apply Prod.ext
    · exact (h.queue.stateOf_insert_ne hk).symm
    · rfl

theorem forget_meaning (h : m.Consistent) (k key : String) :
  (keyMachine onForget key).step (m.queue.stateOf key) (if k = key then .forget else .other)
    = ((m.queue.forget k).stateOf key, [])
  := by
  split
  next hk =>
    subst hk
    apply Prod.ext
    · exact h.queue.stateOf_forget.symm
    · rfl
  next hk =>
    apply Prod.ext
    · exact (h.queue.stateOf_forget_ne hk).symm
    · rfl

theorem stateOf_taken (hn : q.itemsBeingProcessed key = none) (hr : q.itemsInQueue key = some r) :
  ((q.setProcessed key (some r)).unlist key r).stateOf key = (q.stateOf key).take
  := by
  rw [stateOf_of_queued hn hr]
  apply stateOf_of_processed (q := (q.setProcessed key (some r)).unlist key r)
  exact update_self ..

variable {worker elapsed : Nat}

theorem take_of_none (ht : m.takes worker elapsed = none) :
  (m.take worker elapsed).1.queue = m.queue
    ∧ (m.take worker elapsed).1.working = m.working ∧ (m.take worker elapsed).2 = []
  := by
  unfold Machine.takes at ht
  unfold Machine.take
  cases hi : m.working worker with
  | some _ => exact ⟨rfl, rfl, rfl⟩
  | none =>
    rw [hi] at ht
    dsimp only
    rw [map_eq_none_iff.1 ht]
    exact ⟨rfl, rfl, rfl⟩

theorem take_of_some (h : m.Consistent) (ht : m.takes worker elapsed = some key) :
  ∃ r, m.working worker = none ∧ m.queue.itemsInQueue key = some r
    ∧ m.take worker elapsed
      = ({ queue := (m.queue.setProcessed key (some r)).unlist key r
           working := update m.working worker (some r)
           clock := m.clock + elapsed }, [.taken worker key])
  := by
  unfold Machine.takes at ht
  cases hi : m.working worker with
  | some _ =>
    rw [hi] at ht
    cases ht
  | none =>
    rw [hi] at ht
    obtain ⟨⟨q', r⟩, hne, rfl⟩ := map_eq_some_iff.1 ht
    obtain ⟨hl, -, rfl⟩ := getNextItem_eq_some h.queue hne
    refine ⟨r, rfl, hl, ?_⟩
    unfold take
    rw [hi]
    dsimp only
    rw [hne]
    rfl

theorem take_meaning (h : m.Consistent) (key : String) {elapsed : Nat} :
  (keyMachine onForget key).step (m.queue.stateOf key) (m.meaning key (.take worker elapsed))
    = ((m.take worker elapsed).1.queue.stateOf key,
      (m.take worker elapsed).2.filterMap (Event.ofKey key))
  := by
  rw [Machine.meaning]
  cases ht : m.takes worker elapsed with
  | none =>
    obtain ⟨hqu, -, hev⟩ := take_of_none ht
    rw [hqu, hev]
    rfl
  | some k =>
    obtain ⟨r, -, hl, hta⟩ := take_of_some h ht
    have hn := h.queue.disjoint k r hl
    rw [hta]
    by_cases hk : k = key
    · subst hk
      rw [if_pos rfl, stateOf_taken hn hl, stateOf_of_queued hn hl]
      simp [keyMachine, Event.ofKey]
    · rw [if_neg (by simpa using hk), stateOf_unlist_ne hk, stateOf_setProcessed_ne hk]
      simp [keyMachine, Event.ofKey, hk]

theorem complete_of_none (hc : m.completes worker = none) (results : Results) :
  m.complete onForget worker results elapsed elapsed' = (m, [])
  := by
  rw [Machine.complete, map_eq_none_iff.1 hc]

theorem complete_meaning (h : m.Consistent) (key : String) (worker : Nat) (results : Results)
    (elapsed elapsed' : Nat) :
  (keyMachine onForget key).step (m.queue.stateOf key)
      (m.meaning key (.complete worker results elapsed elapsed'))
    = ((m.complete onForget worker results elapsed elapsed').1.queue.stateOf key,
      (m.complete onForget worker results elapsed elapsed').2.filterMap (Event.ofKey key))
  := by
  rw [Machine.meaning]
  cases hc : m.completes worker with
  | none =>
    rw [complete_of_none onForget hc]
    rfl
  | some k =>
    obtain ⟨r, hw, rfl⟩ := map_eq_some_iff.1 hc
    have hr := h.processed hw
    rw [complete, hw]
    by_cases hk : (m.queue.heap r).key = key
    · subst hk
      rw [if_pos rfl]
      exact h.queue.stateOf_handle hr worker
    · rw [if_neg (by simpa using hk)]
      apply Prod.ext
      · exact (h.queue.stateOf_handle_ne hr worker hk).1.symm
      · exact (h.queue.stateOf_handle_ne hr worker hk).2.symm

end Steps

theorem step_meaning {m : Machine} (h : m.Consistent) {onForget : Bool} {key : String} :
  (keyMachine onForget key).step (m.queue.stateOf key) (m.meaning key a)
    = (((machine onForget).step m a).1.queue.stateOf key,
      ((machine onForget).step m a).2.filterMap (Event.ofKey key))
  := by
  cases a with
  | forget k => apply forget_meaning onForget h
  | take worker elapsed => apply take_meaning onForget h
  | complete worker results elapsed elapsed' => apply complete_meaning onForget h
  | _ => apply insert_meaning onForget h

theorem projects (onForget : Bool) (key : String) :
  (machine onForget).Projects (keyMachine onForget key) Machine.Consistent
    (fun m => m.queue.stateOf key) (Machine.meaning key) (Event.ofKey key)
  := by
  constructor
  · intro m a h
    exact consistent_step h onForget a
  · intro m a h
    exact congrArg Prod.fst (step_meaning h)
  · intro m a h
    exact congrArg Prod.snd (step_meaning h)

theorem stateOf_final_concat (key : String) (clock : Time) (actions : List Action) (a : Action) :
  let before := (machine onForget).final (Machine.init clock) actions
  ((machine onForget).final (Machine.init clock) (actions ++ [a])).queue.stateOf key
    = ((keyMachine onForget key).step (before.queue.stateOf key) (before.meaning key a)).1
  := by
  intro before
  rw [Mealy.final_append]
  symm
  apply (projects onForget key).state before a
  apply consistent_final

end Periapsis.Queue
