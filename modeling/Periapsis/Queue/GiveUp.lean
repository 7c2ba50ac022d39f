import Periapsis.Queue.Updates

/-!
# Retries and giving up

A key whose handler fails is put back until the retry function gives up on it, and then a callback
is called.
-/

namespace Periapsis.Queue

open Transition List Option Machine KeyState

def KeyEvent.isTaken : KeyEvent → Bool
  | .taken => true
  | _ => false

def KeyEvent.isHandled : KeyEvent → Bool
  | .handled _ => true
  | _ => false

def KeyEvent.isOnForget : KeyEvent → Bool
  | .onForget _ => true
  | _ => false

/-- The step neither puts in nor forgets the key, and if it completes its item, the handler failed
and the default retry function is asked. -/
def Machine.Fails (key : String) (m : Machine) : Action → Prop
  | .complete worker results _ _ =>
    m.completes worker = some key →
      results.err ≠ none ∧ results.retryFunc = defaultRetryFunc
  | a => a.mark key = none

def KeyAction.Fails : KeyAction → Prop
  | .insert _ _ _ _ => False
  | .forget => False
  | .complete results _ _ => results.err ≠ none ∧ results.retryFunc = defaultRetryFunc
  | _ => True

variable {m : Machine} {key : String}

theorem fails_meaning :
  (m.meaning key a).Fails ↔ m.Fails key a
  := by
  cases a with
  | take worker elapsed =>
    rw [meaning]
    apply iff_of_true _ rfl
    split
    all_goals trivial
  | complete worker results elapsed elapsed' =>
    rw [meaning, Machine.Fails]
    split
    next hco =>
      simp [KeyAction.Fails, hco]
    next hco =>
      simp [KeyAction.Fails, hco]
  | _ =>
    rw [meaning]
    change _ ↔ Action.mark key _ = none
    rw [Action.mark]
    split
    all_goals simp [KeyAction.Fails]

structure Tally (events : List KeyEvent) (taken handled onForget : Nat) : Prop where
  taken : events.countP KeyEvent.isTaken = taken
  handled : events.countP KeyEvent.isHandled = handled
  onForget : events.countP KeyEvent.isOnForget = onForget

theorem Tally.append {events : List KeyEvent} (h : Tally events n n' n'')
    (h' : Tally events' k k' k'') :
  Tally (events ++ events') (n + k) (n' + k') (n'' + k'')
  := by
  constructor
  · rw [countP_append, h.taken, h'.taken]
  · rw [countP_append, h.handled, h'.handled]
  · rw [countP_append, h.onForget, h'.onForget]

structure QueueItem.Tried (item : QueueItem) (handled : Nat) : Prop where
  requeues : item.requeues = handled
  fewer : handled < maxRetries
  redirtiedAt : item.redirtiedAt = none
  forget : item.forget = false

inductive Retrying (onForget : Bool) (events : List KeyEvent) : KeyState → Prop
  | queued (item : QueueItem) (n : Nat) (tried : item.Tried n) (tally : Tally events n n 0) :
      Retrying onForget events (.queued item)
  | processing (item : QueueItem) (n : Nat) (tried : item.Tried n)
      (tally : Tally events (n + 1) n 0) : Retrying onForget events (.processing item)
  | absent (tally : Tally events maxRetries maxRetries onForget.toNat) :
      Retrying onForget events .absent

variable {onForget : Bool} {state : KeyState} {events : List KeyEvent} {item : QueueItem}
  {ratelimit : Bool} {delay : Option Duration} {now : Time} {limit : Duration}

theorem newItem_requeues :
  (newItem key ratelimit delay now limit).requeues = 0
  := by
  cases ratelimit with
  | _ => rfl

theorem retrying_insert :
  Retrying onForget [] (absent.insert key ratelimit delay now limit)
  := by
  obtain ⟨hrd, hfo⟩ := newItem_clean key ratelimit delay now limit
  apply Retrying.queued _ 0
  · constructor
    · apply newItem_requeues
    · decide
    · apply hrd
    · apply hfo
  · constructor
    all_goals rfl

variable {results : Results}

theorem complete_retried (h : item.Tried n) (hn : n + 1 < maxRetries)
    (hf : results.err ≠ none ∧ results.retryFunc = defaultRetryFunc) :
  complete onForget results now now' (.processing item)
    = (.queued ((newItem item.key true none now' results.limit).requeue item), [.handled none])
  := by
  obtain ⟨err, her⟩ := ne_none_iff_exists'.1 hf.1
  have ho : outcome item results = .requeued none := by
    simp [outcome, h.forget, her, hf.2, defaultRetryFunc, h.requeues, hn]
  rw [KeyState.complete, ho]

theorem complete_exhausted (h : item.Tried n) (hn : ¬ n + 1 < maxRetries)
    (hf : results.err ≠ none ∧ results.retryFunc = defaultRetryFunc) :
  ∃ err, complete onForget results now now' (.processing item)
    = (.absent, called onForget (some err) ++ [.handled (some err)])
  := by
  obtain ⟨err, her⟩ := ne_none_iff_exists'.1 hf.1
  have ho : ∃ err, outcome item results = .released (some err) := by
    simp [outcome, h.forget, her, hf.2, defaultRetryFunc, h.requeues, hn]
  obtain ⟨err', ho⟩ := ho
  use err'
  rw [KeyState.complete, ho]
  simp [KeyState.release, h.redirtiedAt]

theorem QueueItem.Tried.requeue (h : item.Tried n) (hn : n + 1 < maxRetries) (now : Time)
    (limit : Duration) :
  ((newItem item.key true none now limit).requeue item).Tried (n + 1)
  := by
  constructor
  · apply congrArg (· + 1) h.requeues
  · apply hn
  all_goals rfl

theorem tally_exhausted :
  Tally (called onForget (some err) ++ [.handled (some err)]) 0 1 onForget.toNat
  := by
  cases onForget with
  | _ => exact ⟨rfl, rfl, rfl⟩

theorem Retrying.complete (h : Retrying onForget events state)
    (hf : results.err ≠ none ∧ results.retryFunc = defaultRetryFunc) (now now' : Time) :
  Retrying onForget (events ++ (state.complete onForget results now now').2)
    (state.complete onForget results now now').1
  := by
  cases h with
  | queued item n htr ht =>
    rw [KeyState.complete, append_nil]
    · apply Retrying.queued item n htr ht
    · simp
  | absent ht =>
    rw [KeyState.complete, append_nil]
    · apply Retrying.absent ht
    · simp
  | processing item n htr ht =>
    by_cases hn : n + 1 < maxRetries
    · rw [complete_retried htr hn hf]
      have hon : Tally [.handled none] 0 1 0 := ⟨rfl, rfl, rfl⟩
      apply Retrying.queued _ (n + 1) (htr.requeue hn now' results.limit)
      apply ht.append hon
    · have hma : n + 1 = maxRetries := le_antisymm htr.fewer (not_lt.1 hn)
      obtain ⟨err, hcm⟩ := complete_exhausted htr hn hf
      rw [hcm]
      apply Retrying.absent
      rw [← hma, ← Nat.zero_add onForget.toNat]
      apply ht.append tally_exhausted

theorem Retrying.step (h : Retrying onForget events state) {a : KeyAction} (ha : a.Fails) :
  Retrying onForget (events ++ ((keyMachine onForget key).step state a).2)
    ((keyMachine onForget key).step state a).1
  := by
  have hs : Retrying onForget (events ++ []) state := by
    rw [append_nil]
    apply h
  cases a with
  | other => apply hs
  | complete results now now' => apply h.complete ha
  | take =>
    cases h with
    | queued item n htr ht =>
      have hon : Tally [.taken] 1 0 0 := ⟨rfl, rfl, rfl⟩
      apply Retrying.processing item n htr
      apply ht.append hon
    | _ => apply hs
  | _ => apply ha.elim

theorem Retrying.run (h : Retrying onForget [] state) (key : String)
    (hac : ∀ a ∈ actions, a.Fails) :
  Retrying onForget ((keyMachine onForget key).outputs state actions)
    ((keyMachine onForget key).final state actions)
  := by
  apply (keyMachine onForget key).outputs_induction (C := fun _ a => a.Fails)
    (P := Retrying onForget) h
  · intro events state a hr ha
    apply hr.step ha
  · apply (keyMachine onForget key).meets_of_forall state hac

theorem Retrying.spec (h : Retrying onForget events state) :
  (events.countP KeyEvent.isHandled < maxRetries →
      state ≠ .absent ∧ events.countP KeyEvent.isOnForget = 0)
    ∧ (events.countP KeyEvent.isHandled = maxRetries →
      ¬ state ≠ .absent ∧ events.countP KeyEvent.isOnForget = onForget.toNat)
    ∧ events.countP KeyEvent.isHandled ≤ maxRetries
    ∧ events.countP KeyEvent.isTaken ≤ maxRetries
  := by
  cases h with
  | queued item n htr ht =>
    have hfe := htr.fewer
    rw [ht.taken, ht.handled, ht.onForget]
    refine ⟨?_, ?_, hfe.le, hfe.le⟩
    · simp
    · intro hn
      apply absurd hn hfe.ne
  | processing item n htr ht =>
    have hfe := htr.fewer
    rw [ht.taken, ht.handled, ht.onForget]
    refine ⟨?_, ?_, hfe.le, hfe⟩
    · simp
    · intro hn
      apply absurd hn hfe.ne
  | absent ht =>
    rw [ht.taken, ht.handled, ht.onForget]
    simp

def Pending (q : Queue) (key : String) : Prop :=
  q.Has key ∨ ∃ r, q.itemsBeingProcessed key = some r

theorem Consistent.pending_iff {q : Queue} (h : q.Consistent) (key : String) :
  q.Pending key ↔ q.stateOf key ≠ .absent
  := by
  rw [Pending, h.has_iff, stateOf]
  cases q.itemsBeingProcessed key with
  | some r => simp
  | none =>
    cases q.itemsInQueue key with
    | _ => simp

theorem enqueue_meaning (m : Machine) {call : Action} (hca : call.mark key = some .enqueue) :
  ∃ ratelimit delay now limit, m.meaning key call = .insert ratelimit delay now limit
  := by
  rw [← mark_meaning m] at hca
  cases hm : m.meaning key call with
  | insert ratelimit delay now limit => exact ⟨ratelimit, delay, now, limit, rfl⟩
  | _ =>
    rw [hm] at hca
    cases hca

/-- A key that is put in once, and whose handler always fails, is pending and not given up as long
as it was handled fewer than `maxRetries` times. -/
theorem retries_bounded (onForget : Bool) (clock : Time) (pre post : List Action) (call : Action)
    (key : String)
    (habsent : ¬ ((machine onForget).final (Machine.init clock) pre).queue.Pending key)
    (hcall : call.mark key = some .enqueue) (hpost : (machine onForget).Meets (Machine.Fails key)
      ((machine onForget).final (Machine.init clock) (pre ++ [call])) post) :
  let after := (machine onForget).final (Machine.init clock) (pre ++ [call])
  let q := ((machine onForget).final after post).queue
  let seen := ((machine onForget).outputs after post).filterMap (Event.ofKey key)
  (seen.countP KeyEvent.isHandled < maxRetries →
      q.Pending key ∧ seen.countP KeyEvent.isOnForget = 0)
    ∧ (seen.countP KeyEvent.isHandled = maxRetries →
      ¬ q.Pending key ∧ seen.countP KeyEvent.isOnForget = onForget.toNat)
    ∧ seen.countP KeyEvent.isHandled ≤ maxRetries ∧ seen.countP KeyEvent.isTaken ≤ maxRetries
  := by
  intro after q seen
  have hp := projects onForget key
  have hb := consistent_final onForget clock pre
  have haf : after.Consistent := consistent_final onForget clock _
  have hst : Retrying onForget [] (after.queue.stateOf key) := by
    obtain ⟨ratelimit, delay, now, limit, hm⟩ := enqueue_meaning _ hcall
    rw [stateOf_final_concat, hm, not_not.mp ((hb.queue.pending_iff key).not.mp habsent)]
    apply retrying_insert
  have hf : ∀ a ∈ (machine onForget).along (meaning key) after post, a.Fails := by
    rw [Mealy.forall_mem_along]
    simpa only [fails_meaning] using hpost
  have hr : Retrying onForget seen (q.stateOf key) := by
    have hrn := hst.run key hf
    rw [hp.outputs haf, hp.final haf] at hrn
    apply hrn
  rw [(hp.inv_final haf post).queue.pending_iff key]
  apply hr.spec

theorem retries_bounded_exhausted :
  let results : Results := { err := some "sync", retryFunc := defaultRetryFunc, limit := 0 }
  let rounds := (replicate maxRetries [Action.take 0 1, .complete 0 results 1 0]).flatten
  let after := (machine true).final (Machine.init 0) [.enqueue "pod" 0 0]
  ¬ ((machine true).final after rounds).queue.Pending "pod"
    ∧ (((machine true).outputs after rounds).filterMap (Event.ofKey "pod")).countP
        KeyEvent.isOnForget = 1
  := by
  intro results rounds after
  have hab : ¬ ((machine true).final (init 0) []).queue.Pending "pod" := by
    simp [Pending, Has, init, new]
  have hro : (machine true).Meets (Machine.Fails "pod") after rounds := by
    apply ((machine true).meets_iff_forall_split _ _).mpr
    intro pre a post heq
    have ha : a ∈ rounds := by simp [heq]
    obtain ⟨round, hru, ha⟩ := mem_flatten.mp ha
    rw [eq_of_mem_replicate hru] at ha
    rcases mem_pair.mp ha with rfl | rfl
    · rfl
    · intro _
      exact ⟨by simp [results], rfl⟩
  apply (retries_bounded true 0 [] rounds (.enqueue "pod" 0 0) "pod" hab (by decide)
    hro).2.1
  decide

/-- The handler fails, and the item is not to be retried. -/
def Results.GivesUp (results : Results) (qi : QueueItem) : Prop :=
  qi.forget = false ∧ ∃ err err', results.err = some err
    ∧ results.retryFunc qi.key (qi.requeues + 1) qi.originallyAdded err = .error err'

def Machine.NotRedirtied (onForget : Bool) (m : Machine) : Action → Prop
  | .complete worker results _ _ =>
    ∀ item, m.itemOf worker = some item → onForget = true → results.GivesUp item →
      item.redirtiedAt = none
  | _ => True

theorem outcome_givesUp_iff :
  (∃ err, outcome item results = .released (some err)) ↔ results.GivesUp item
  := by
  rcases outcome_cases item results with ⟨hfo, ho⟩ | ⟨hfo, ⟨her, ho⟩
    | ⟨err, her, ⟨delay, hre, ho⟩ | ⟨err', hre, ho⟩⟩⟩
  · simp [ho, Results.GivesUp, hfo]
  · simp [ho, Results.GivesUp, her]
  · simp [ho, Results.GivesUp, her, hre]
  · simp [hfo, ho, Results.GivesUp, her, hre]

theorem Results.GivesUp.not_retries (h : results.GivesUp item) :
  ¬ results.Retries item
  := by
  rintro ⟨err, delay, herr, hre⟩
  obtain ⟨-, err', e, her, hrt⟩ := h
  cases herr.symm.trans her
  rw [hre] at hrt
  cases hrt

theorem mem_complete_onForget :
  (∃ err, .onForget key err ∈ (m.complete onForget worker results elapsed elapsed').2)
    ↔ ∃ item, m.itemOf worker = some item ∧ item.key = key ∧ onForget
      ∧ results.GivesUp item
  := by
  simp only [← outcome_givesUp_iff]
  rw [Machine.complete, Machine.itemOf]
  cases m.working worker with
  | none => simp
  | some r =>
    simp only [handleQueueItemObject_eq, map_some, Option.some.injEq, exists_eq_left']
    cases outcome (m.queue.heap r) results with
    | released err =>
      dsimp only
      rw [release_called]
      cases err with
      | none => simp
      | some err =>
        cases onForget with
        | true => simp [eq_comm]
        | false => simp
    | _ => simp

theorem onForget_step_iff (h : m.Consistent) (onForget : Bool) (a : Action) :
  (∀ key err, .onForget key err ∈ ((machine onForget).step m a).2 →
      ¬ ((machine onForget).step m a).1.queue.Has key)
    ↔ m.NotRedirtied onForget a
  := by
  cases a with
  | complete worker results elapsed elapsed' =>
    have hh : ∀ item, m.itemOf worker = some item → results.GivesUp item →
        (((machine onForget).step m (.complete worker results elapsed elapsed')).1.queue.Has
          item.key ↔ item.redirtiedAt.isSome) := by
      intro item hi hg
      rw [h.has_complete_iff onForget hi]
      simp [hg.1, hg.not_retries]
    constructor
    · intro hcl item hi hse hg
      obtain ⟨err, hc⟩ := mem_complete_onForget.2 ⟨item, hi, rfl, hse, hg⟩
      have hgo := hcl item.key err hc
      rw [hh item hi hg] at hgo
      simpa using hgo
    · intro hce key err hc
      obtain ⟨item, hi, rfl, hse, hg⟩ := mem_complete_onForget.1 ⟨err, hc⟩
      rw [hh item hi hg, hce item hi hse hg]
      simp
  | take worker elapsed =>
    apply iff_of_true _ trivial
    intro key err hc
    change _ ∈ (m.take worker elapsed).2 at hc
    cases hta : m.takes worker elapsed with
    | none => simp [(take_of_none hta).2.2] at hc
    | some k =>
      obtain ⟨r, -, -, htk⟩ := take_of_some h hta
      simp [htk] at hc
  | _ => simp [machine, Machine.NotRedirtied]

/-- In every run the callback is called only for keys not in the queue after the step, exactly if no
key that is given up was put in while being processed. -/
theorem onForget_permanent_iff (onForget : Bool) (clock : Time) (actions : List Action) :
  (∀ pre a post, actions = pre ++ a :: post →
      let before := (machine onForget).final (Machine.init clock) pre
      ∀ key err, .onForget key err ∈ ((machine onForget).step before a).2 →
        ¬ ((machine onForget).step before a).1.queue.Has key)
    ↔ (machine onForget).Meets (Machine.NotRedirtied onForget) (Machine.init clock) actions
  := by
  rw [Mealy.meets_iff_forall_split]
  apply forall₄_congr
  intro pre a post heq
  apply onForget_step_iff (consistent_final onForget clock pre)

theorem onForget_not_permanent :
  let results : Results :=
    { err := some "sync", retryFunc := fun _ _ _ err => .error err, limit := 0 }
  let before := (machine true).final (Machine.init 0)
    [.enqueueWithoutRateLimit "pod" 0, .take 0 1, .enqueueWithoutRateLimit "pod" 2]
  let result := (machine true).step before (.complete 0 results 3 4)
  (∃ err, .onForget "pod" err ∈ result.2) ∧ result.1.queue.Has "pod"
  := by
  intro results before result
  constructor
  · use giveUp (before.queue.heap 0) "sync"
    apply mem_cons_self
  · unfold Has
    decide

end Periapsis.Queue
