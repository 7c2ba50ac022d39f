import Periapsis.Types.Corev1
import Periapsis.Transition.BackInsertion
import Periapsis.Transition.Mealy

/-!
# The work queue

Keys are put into a queue, to be handled from a planned time on by one of several workers.
-/

namespace Periapsis

open Transition Function

namespace Queue

def maxRetries : Nat := 20

/-- A retry policy: the delay of a retry if one is given, or the error to give up with. -/
abbrev ShouldRetryFunc := String → Nat → Time → String → Except String (Option Duration)

def defaultRetryFunc : ShouldRetryFunc := fun _ timesTried _ err =>
  if timesTried < maxRetries then .ok none
  else .error ("maximum retries (" ++ toString maxRetries ++ ") reached: " ++ err)

/-- An item of the queue. -/
structure QueueItem where
  key : String
  plannedToStartWorkAt : Time
  /-- When to start work again, if the key was put in meanwhile; `none` is the zero time, farther
  back than a delay from any reading of a clock. -/
  redirtiedAt : Option Time := none
  redirtiedWithRatelimit : Bool := false
  forget : Bool := false
  requeues : Nat := 0
  originallyAdded : Time
  addedViaRedirty : Bool := false
  delayedViaRateLimit : Option Duration := none
  deriving DecidableEq

def durationDeref (duration : Option Duration) (default : Duration) : Duration :=
  duration.getD default

def dueAt (now : Time) (delay : Option Duration) : Time :=
  now + (durationDeref delay 0).toInt

def QueueItem.redirty (item : QueueItem) (due : Time) (ratelimit : Bool) : QueueItem :=
  let item :=
    match item.redirtiedAt with
    | none => { item with redirtiedAt := some due, redirtiedWithRatelimit := ratelimit }
    | some redirtiedAt =>
      if due < redirtiedAt then
        { item with redirtiedAt := some due, redirtiedWithRatelimit := ratelimit }
      else item
  { item with forget := false }

def QueueItem.planAt (item : QueueItem) (due : Time) : QueueItem :=
  { item with plannedToStartWorkAt := due }

def QueueItem.requeue (item qi : QueueItem) : QueueItem :=
  { item with requeues := qi.requeues + 1, originallyAdded := qi.originallyAdded }

def QueueItem.viaRedirty (item : QueueItem) : QueueItem :=
  { item with addedViaRedirty := true }

def newItem (key : String) (ratelimit : Bool) (delay : Option Duration) (now : Time)
    (limit : Duration) : QueueItem :=
  let val : QueueItem := { key := key, plannedToStartWorkAt := now, originallyAdded := now }
  if ratelimit then
    let actualDelay := delay.getD limit
    { val with
      plannedToStartWorkAt := val.plannedToStartWorkAt + actualDelay.toInt
      delayedViaRateLimit := some actualDelay }
  else
    { val with
      plannedToStartWorkAt := val.plannedToStartWorkAt + (durationDeref delay 0).toInt }

abbrev Ref := Nat

end Queue

/-- The work queue: its list in order of the planned times, and two maps from keys to items. -/
structure Queue where
  heap : Queue.Ref → Queue.QueueItem
  next : Queue.Ref
  items : List Queue.Ref
  itemsInQueue : String → Option Queue.Ref
  itemsBeingProcessed : String → Option Queue.Ref

namespace Queue

def new : Queue where
  heap _ := { key := "", plannedToStartWorkAt := 0, originallyAdded := 0 }
  next := 0
  items := []
  itemsInQueue _ := none
  itemsBeingProcessed _ := none

variable (q : Queue)

def modify (r : Ref) (f : QueueItem → QueueItem) : Queue :=
  { q with heap := update q.heap r (f (q.heap r)) }

def planned (r : Ref) : Time :=
  (q.heap r).plannedToStartWorkAt

def unlist (key : String) (r : Ref) : Queue :=
  { q with
    itemsInQueue := update q.itemsInQueue key none
    items := q.items.erase r }

def setProcessed (key : String) (r : Option Ref) : Queue :=
  { q with itemsBeingProcessed := update q.itemsBeingProcessed key r }

def push (val : QueueItem) : Queue × Ref :=
  let r := q.next
  let q := { q with heap := update q.heap r val, next := r + 1 }
  ({ q with
      items := insertBack q.planned r q.items
      itemsInQueue := update q.itemsInQueue val.key (some r) }, r)

def adjustPosition (r : Ref) (due : Time) : Queue :=
  if q.planned r < due then q
  else
    let q := q.modify r fun item => item.planAt due
    { q with items := moveBack q.planned r q.items }

def insert (key : String) (ratelimit : Bool) (delay : Option Duration) (now : Time)
    (limit : Duration) : Queue × Ref :=
  match q.itemsBeingProcessed key with
  | some r => (q.modify r fun item => item.redirty (dueAt now delay) ratelimit, r)
  | none =>
    match q.itemsInQueue key with
    | some r => (q.adjustPosition r (dueAt now delay), r)
    | none => q.push (newItem key ratelimit delay now limit)

variable {q}

def forget (q : Queue) (key : String) : Queue :=
  match q.itemsInQueue key with
  | some r => q.unlist key r
  | none =>
    match q.itemsBeingProcessed key with
    | some r => q.modify r fun item => { item with forget := true }
    | none => q

def getNextItem (q : Queue) (now : Time) : Option (Queue × Ref) :=
  match q.items with
  | [] => none
  | r :: _ =>
    let qi := q.heap r
    if timeSub qi.plannedToStartWorkAt now ≤ 0 then
      some ((q.setProcessed qi.key (some r)).unlist qi.key r, r)
    else none

inductive Event where
  | taken (worker : Nat) (key : String)
  | onForget (key : String) (err : String)
  | handled (worker : Nat) (key : String) (err : Option String)
  deriving DecidableEq

structure Results where
  err : Option String
  retryFunc : ShouldRetryFunc
  limit : Duration

def giveUp (qi : QueueItem) (err : String) : String :=
  if qi.redirtiedAt.isSome then
    "temporarily (requeued) forgetting " ++ qi.key.quote ++ " due to: " ++ err
  else "forgetting " ++ qi.key.quote ++ " due to: " ++ err

/-- An item was handled for the last time, or with success: the callback is called if there is an
error, and the key is put back if it was put in meanwhile. -/
def release (q : Queue) (onForget : Bool) (qi : QueueItem) (err : Option String) (now now' : Time)
    (limit : Duration) : Queue × List Event :=
  let called :=
    match err with
    | some e => if onForget then [.onForget qi.key e] else []
    | none => []
  match qi.redirtiedAt with
  | some redirtiedAt =>
    let delay := timeSub redirtiedAt now
    let (q, r) := q.insert qi.key qi.redirtiedWithRatelimit (some delay) now' limit
    (q.modify r QueueItem.viaRedirty, called)
  | none => (q, called)

def handleQueueItemObject (q : Queue) (onForget : Bool) (r : Ref) (results : Results)
    (now now' : Time) : Queue × List Event × Option String :=
  let qi := q.heap r
  let q := q.setProcessed qi.key none
  if qi.forget then (q, [], none)
  else
    match results.err with
    | none =>
      let (q, called) := q.release onForget qi none now now' results.limit
      (q, called, none)
    | some err =>
      match results.retryFunc qi.key (qi.requeues + 1) qi.originallyAdded err with
      | .ok delay =>
        let (q, r') := q.insert qi.key true delay now' results.limit
        (q.modify r' fun item => item.requeue qi, [], none)
      | .error err =>
        let err := giveUp qi err
        let (q, called) := q.release onForget qi (some err) now now' results.limit
        (q, called, some err)

/-- The queue with its workers and the clock. -/
structure Machine where
  queue : Queue
  working : Nat → Option Ref
  clock : Time

/-- A step: a call of a method, or a step of a worker. `elapsed` is the time from the clock reading
before to that of the step. -/
inductive Action where
  | enqueue (key : String) (elapsed : Nat) (limit : Duration)
  | enqueueWithoutRateLimit (key : String) (elapsed : Nat)
  | enqueueWithoutRateLimitWithDelay (key : String) (after : Duration) (elapsed : Nat)
  | forget (key : String)
  | take (worker : Nat) (elapsed : Nat)
  | complete (worker : Nat) (results : Results) (elapsed elapsed' : Nat)

namespace Machine

def insert (m : Machine) (key : String) (ratelimit : Bool) (delay : Option Duration)
    (elapsed : Nat) (limit : Duration) : Machine :=
  let now := m.clock + elapsed
  { m with queue := (m.queue.insert key ratelimit delay now limit).1, clock := now }

def take (m : Machine) (worker : Nat) (elapsed : Nat) : Machine × List Event :=
  match m.working worker with
  | some _ => (m, [])
  | none =>
    let now := m.clock + elapsed
    match m.queue.getNextItem now with
    | none => ({ m with clock := now }, [])
    | some (q, r) =>
      ({ queue := q, working := update m.working worker (some r), clock := now },
        [.taken worker (q.heap r).key])

def complete (m : Machine) (onForget : Bool) (worker : Nat) (results : Results)
    (elapsed elapsed' : Nat) : Machine × List Event :=
  match m.working worker with
  | none => (m, [])
  | some r =>
    let now := m.clock + elapsed
    let now' := now + elapsed'
    let key := (m.queue.heap r).key
    let (q, called, err) := m.queue.handleQueueItemObject onForget r results now now'
    ({ queue := q, working := update m.working worker none, clock := now' },
      called ++ [.handled worker key err])

def init (clock : Time) : Machine where
  queue := new
  working _ := none
  clock := clock

end Machine

def machine (onForget : Bool) : Mealy Machine Action Event where
  step m a :=
    match a with
    | .enqueue key elapsed limit => (m.insert key true none elapsed limit, [])
    | .enqueueWithoutRateLimit key elapsed => (m.insert key false none elapsed 0, [])
    | .enqueueWithoutRateLimitWithDelay key after elapsed =>
      (m.insert key false (some after) elapsed 0, [])
    | .forget key => ({ m with queue := m.queue.forget key }, [])
    | .take worker elapsed => m.take worker elapsed
    | .complete worker results elapsed elapsed' =>
      m.complete onForget worker results elapsed elapsed'

end Queue

end Periapsis
