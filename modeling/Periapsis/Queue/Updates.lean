import Periapsis.Queue.Key

/-!
# No update is lost

While the item of a key is being processed, calls for the key mark the item.
-/

namespace Periapsis.Queue

open Transition List Option Function Machine KeyState

inductive Mark where
  | enqueue
  | forget
  deriving DecidableEq

def Action.mark (key : String) : Action → Option Mark
  | .enqueue k _ _ => if k = key then some .enqueue else none
  | .enqueueWithoutRateLimit k _ => if k = key then some .enqueue else none
  | .enqueueWithoutRateLimitWithDelay k _ _ => if k = key then some .enqueue else none
  | .forget k => if k = key then some .forget else none
  | _ => none

def KeyAction.mark : KeyAction → Option Mark
  | .insert _ _ _ _ => some .enqueue
  | .forget => some .forget
  | _ => none

def KeyAction.isComplete : KeyAction → Bool
  | .complete _ _ _ => true
  | _ => false

def Action.isCompleteOf (worker : Nat) : Action → Bool
  | .complete w _ _ _ => w = worker
  | _ => false

theorem mark_meaning (m : Machine) :
  (m.meaning key a).mark = a.mark key
  := by
  cases a with
  | take | complete =>
    rw [meaning]
    split
    all_goals rfl
  | _ =>
    rw [meaning, Action.mark]
    split
    all_goals rfl

theorem marks_along (M : Mealy Machine Action Event) :
  (M.along (meaning key) m actions).filterMap KeyAction.mark
    = actions.filterMap (Action.mark key)
  := by
  induction actions generalizing m with
  | nil => rfl
  | cons a actions ih =>
    rw [Mealy.along, filterMap_cons, filterMap_cons, mark_meaning, ih]

structure Marked (marks : List Mark) (item : QueueItem) : Prop where
  redirtied : item.redirtiedAt.isSome = true ↔ .enqueue ∈ marks
  forget : item.forget = true ↔ marks.getLast? = some .forget

variable (onForget : Bool) {key : String} {item : QueueItem} {marks : List Mark}

theorem redirty_spec (item : QueueItem) (due : Time) (ratelimit : Bool) :
  ∃ t, (item.redirty due ratelimit).redirtiedAt = some t ∧ t ≤ due
    ∧ ∀ t' ∈ item.redirtiedAt, t ≤ t'
  := by
  unfold QueueItem.redirty
  cases hre : item.redirtiedAt with
  | none => exact ⟨due, rfl, le_refl due, by simp⟩
  | some redirtiedAt =>
    dsimp only
    split
    next hea =>
      exact ⟨due, rfl, le_refl due, by simpa using hea.le⟩
    next hlt =>
      exact ⟨redirtiedAt, hre, not_lt.1 hlt, by simp⟩

theorem Marked.step (h : Marked marks item) {a : KeyAction} (ha : a.isComplete = false)
    (key : String) :
  ∃ item', ((keyMachine onForget key).step (.processing item) a).1 = .processing item'
    ∧ Marked (marks ++ a.mark.toList) item'
  := by
  cases a with
  | insert ratelimit delay now limit =>
    obtain ⟨t, hre, -⟩ := redirty_spec item (dueAt now delay) ratelimit
    refine ⟨_, rfl, ?_, ?_⟩
    · simp [KeyAction.mark, hre]
    · simp [KeyAction.mark, QueueItem.redirty]
  | forget =>
    refine ⟨_, rfl, ?_, ?_⟩
    · simp [KeyAction.mark, h.redirtied]
    · simp [KeyAction.mark]
  | complete => cases ha
  | _ => exact ⟨item, rfl, by simpa [KeyAction.mark] using h⟩

theorem Marked.run (h : Marked marks item) (hac : ∀ a ∈ actions, a.isComplete = false)
    (key : String) :
  ∃ item', (keyMachine onForget key).final (.processing item) actions = .processing item'
    ∧ Marked (marks ++ actions.filterMap KeyAction.mark) item'
  := by
  induction actions generalizing item marks with
  | nil => exact ⟨item, rfl, by simpa using h⟩
  | cons a actions ih =>
    obtain ⟨item₁, hst, h₁⟩ := h.step onForget (hac a mem_cons_self) key
    obtain ⟨item', hfi, h'⟩ := ih h₁ fun b hb => hac b (mem_cons_of_mem a hb)
    refine ⟨item', ?_, ?_⟩
    · rw [Mealy.final_cons, hst, hfi]
    · have hmr : (a :: actions).filterMap KeyAction.mark
          = a.mark.toList ++ actions.filterMap KeyAction.mark := by
        cases hmk : a.mark <;> simp [hmk]
      rw [hmr, ← append_assoc]
      exact h'

/-- The worker processes the item of the key. -/
def Machine.Handles (m : Machine) (worker : Nat) (key : String) : Prop :=
  ∃ r, m.working worker = some r ∧ m.queue.itemsBeingProcessed key = some r

variable {m : Machine} {worker : Nat}

theorem Machine.Handles.completes (hh : m.Handles worker key) (h : m.Consistent) :
  m.completes worker = some key
  := by
  obtain ⟨r, hw, hr⟩ := hh
  rw [Machine.completes, hw, Option.map_some, h.queue.processed key r hr]

theorem Machine.Handles.alone (hh : m.Handles worker key) (h : m.Consistent)
    (hw : m.completes w = some key) :
  w = worker
  := by
  obtain ⟨r, hwo, hr⟩ := hh
  obtain ⟨r', hw', rfl⟩ := map_eq_some_iff.1 hw
  cases hr.symm.trans (h.processed hw')
  exact h.alone w worker r hw' hwo

theorem handles_take (h : m.Consistent) (ht : m.takes worker elapsed = some key) :
  (m.take worker elapsed).1.Handles worker key
  := by
  obtain ⟨r, -, -, htk⟩ := take_of_some h ht
  rw [htk]
  use r
  constructor
  all_goals exact update_self ..

theorem Machine.Handles.take (hh : m.Handles worker key) (h : m.Consistent) (w elapsed : Nat) :
  (m.take w elapsed).1.Handles worker key
  := by
  obtain ⟨r, hwo, hr⟩ := hh
  cases ht : m.takes w elapsed with
  | none =>
    obtain ⟨hq, hwr, -⟩ := take_of_none ht
    refine ⟨r, ?_, ?_⟩
    · rw [hwr, hwo]
    · rw [hq, hr]
  | some k =>
    obtain ⟨x, hid, hl, htk⟩ := take_of_some h ht
    have hw : worker ≠ w := by
      rintro rfl
      rw [hwo] at hid
      cases hid
    have hk : key ≠ k := by
      rintro rfl
      rw [h.queue.disjoint key x hl] at hr
      cases hr
    rw [htk]
    refine ⟨r, ?_, ?_⟩
    · exact (update_of_ne hw ..).trans hwo
    · exact (update_of_ne hk ..).trans hr

theorem Machine.Handles.complete (hh : m.Handles worker key) (h : m.Consistent) (hw : w ≠ worker)
    (results : Results) (elapsed elapsed' : Nat) :
  (m.complete onForget w results elapsed elapsed').1.Handles worker key
  := by
  cases hc : m.completes w with
  | none =>
    rw [complete_of_none onForget hc]
    exact hh
  | some k =>
    have hk : key ≠ k := by
      rintro rfl
      exact hw (hh.alone h hc)
    obtain ⟨x, hx, rfl⟩ := map_eq_some_iff.1 hc
    obtain ⟨r, hwo, hr⟩ := hh
    rw [Machine.complete, hx]
    refine ⟨r, ?_, ?_⟩
    · exact (update_of_ne hw.symm ..).trans hwo
    · rw [handleQueueItemObject_itemsBeingProcessed, itemsBeingProcessed_setProcessed,
        if_neg hk, hr]

variable {a : Action}

theorem Machine.Handles.step (hh : m.Handles worker key) (h : m.Consistent)
    (ha : a.isCompleteOf worker = false) :
  ((machine onForget).step m a).1.Handles worker key
  := by
  have hfr : ∀ q clock, q.itemsBeingProcessed = m.queue.itemsBeingProcessed →
      { m with queue := q, clock := clock : Machine }.Handles worker key := by
    intro q clock heq
    obtain ⟨r, hwo, hr⟩ := hh
    exact ⟨r, hwo, heq ▸ hr⟩
  cases a with
  | enqueueWithoutRateLimitWithDelay k after elapsed =>
    exact hfr _ _ (insert_itemsBeingProcessed ..)
  | forget k => exact hfr _ _ (forget_itemsBeingProcessed ..)
  | take w elapsed => exact hh.take h w elapsed
  | complete w results elapsed elapsed' =>
    have hw : w ≠ worker := by simpa [Action.isCompleteOf] using ha
    exact hh.complete onForget h hw results elapsed elapsed'
  | _ => exact hfr _ _ (insert_itemsBeingProcessed ..)

theorem Machine.Handles.meaning (hh : m.Handles worker key) (h : m.Consistent)
    (ha : a.isCompleteOf worker = false) :
  (m.meaning key a).isComplete = false
  := by
  cases a with
  | complete w results elapsed elapsed' =>
    rw [meaning, if_neg]
    · rfl
    · intro hw
      simp [Action.isCompleteOf, hh.alone h hw] at ha
  | _ =>
    rw [meaning]
    split
    all_goals rfl

theorem Machine.Handles.run (hh : m.Handles worker key) (h : m.Consistent)
    (hac : ∀ a ∈ actions, a.isCompleteOf worker = false) :
  ((machine onForget).final m actions).Handles worker key
    ∧ ∀ a ∈ (machine onForget).along (Machine.meaning key) m actions, a.isComplete = false
  := by
  induction actions generalizing m with
  | nil => exact ⟨hh, by simp [Mealy.along]⟩
  | cons a actions ih =>
    have ha := hac a mem_cons_self
    obtain ⟨hfi, hal⟩ := ih (hh.step onForget h ha) (consistent_step h onForget a)
      fun b hb => hac b (mem_cons_of_mem a hb)
    refine ⟨hfi, ?_⟩
    rw [Mealy.along, forall_mem_cons]
    exact ⟨hh.meaning h ha, hal⟩

/-- The key is in the list. -/
def Has (q : Queue) (key : String) : Prop :=
  ∃ r ∈ q.items, (q.heap r).key = key

def Machine.itemOf (m : Machine) (worker : Nat) : Option QueueItem :=
  (m.working worker).map m.queue.heap

def Results.Retries (results : Results) (qi : QueueItem) : Prop :=
  ∃ err delay, results.err = some err
    ∧ results.retryFunc qi.key (qi.requeues + 1) qi.originallyAdded err = .ok delay

theorem Consistent.has_iff {q : Queue} (h : q.Consistent) (key : String) :
  q.Has key ↔ ∃ item, q.stateOf key = .queued item
  := by
  constructor
  · rintro ⟨r, hr, hke⟩
    have hl := (h.listed key r).2 ⟨hr, hke⟩
    exact ⟨_, stateOf_of_queued (h.disjoint key r hl) hl⟩
  · rintro ⟨item, hi⟩
    rw [stateOf] at hi
    split at hi
    · cases hi
    · split at hi
      next r hl =>
        exact ⟨r, (h.listed key r).1 hl⟩
      · cases hi

theorem outcome_requeued_iff (item : QueueItem) (results : Results) :
  (∃ delay, outcome item results = .requeued delay)
    ↔ item.forget = false ∧ results.Retries item
  := by
  rcases outcome_cases item results with ⟨hf, ho⟩ | ⟨hf, ⟨her, ho⟩
    | ⟨err, her, ⟨delay, hrr, ho⟩ | ⟨err', hrr, ho⟩⟩⟩
  · simp [hf, ho]
  · simp [ho, Results.Retries, her]
  · simp [hf, ho, Results.Retries, her, hrr]
  · simp [ho, Results.Retries, her, hrr]

theorem outcome_forgotten_iff (item : QueueItem) (results : Results) :
  outcome item results = .forgotten ↔ item.forget
  := by
  rcases outcome_cases item results with ⟨hf, ho⟩ | ⟨hf, ⟨-, ho⟩
    | ⟨err, -, ⟨delay, -, ho⟩ | ⟨err', -, ho⟩⟩⟩
  all_goals simp [hf, ho]

theorem complete_queued_iff (item : QueueItem) (results : Results) (now now' : Time) :
  (∃ item', (complete onForget results now now' (.processing item)).1 = .queued item')
    ↔ item.forget = false ∧ (item.redirtiedAt.isSome ∨ results.Retries item)
  := by
  have hfo := outcome_forgotten_iff item results
  have hrq := outcome_requeued_iff item results
  rw [KeyState.complete]
  cases ho : outcome item results with
  | forgotten => simp [hfo.1 ho]
  | requeued delay =>
    obtain ⟨hf, hrt⟩ := hrq.1 ⟨delay, ho⟩
    simp [hf, hrt]
  | released err =>
    have hf : item.forget = false := by
      simpa [ho] using hfo
    have hrt : ¬ results.Retries item := by
      simpa [ho, hf] using hrq
    cases hre : item.redirtiedAt with
    | none => simp [hrt, hre, KeyState.release]
    | some redirtiedAt => simp [hf, hre, KeyState.release]

theorem Machine.Consistent.handles (h : m.Consistent) (hi : m.itemOf worker = some item) :
  m.Handles worker item.key ∧ m.queue.stateOf item.key = .processing item
  := by
  obtain ⟨r, hwo, rfl⟩ := map_eq_some_iff.1 hi
  have hr := h.processed hwo
  exact ⟨⟨r, hwo, hr⟩, stateOf_of_processed hr⟩

theorem Machine.Handles.itemOf (hh : m.Handles worker key) (h : m.Consistent)
    (hs : m.queue.stateOf key = .processing item) :
  m.itemOf worker = some item ∧ item.key = key
  := by
  obtain ⟨r, hwo, hr⟩ := hh
  rw [stateOf_of_processed hr] at hs
  obtain rfl := processing.inj hs
  rw [itemOf, hwo]
  exact ⟨rfl, h.queue.processed key r hr⟩

theorem Machine.Consistent.has_complete_iff (h : m.Consistent)
    (hi : m.itemOf worker = some item) (results : Results) (elapsed elapsed' : Nat) :
  ((machine onForget).step m (.complete worker results elapsed elapsed')).1.queue.Has item.key
    ↔ item.forget = false ∧ (item.redirtiedAt.isSome ∨ results.Retries item)
  := by
  obtain ⟨hh, hs⟩ := h.handles hi
  have haf := consistent_step h onForget (.complete worker results elapsed elapsed')
  have hme := complete_meaning onForget h item.key worker results elapsed elapsed'
  rw [meaning, if_pos (hh.completes h), hs] at hme
  rw [haf.queue.has_iff, ← complete_queued_iff onForget item results (m.clock + elapsed)
      (m.clock + elapsed + elapsed')]
  apply exists_congr
  intro item'
  exact Eq.congr_left (congrArg Prod.fst hme).symm

theorem stateOf_take_marked (h : m.Consistent) (ht : m.takes worker elapsed = some key) :
  ∃ item, (m.take worker elapsed).1.queue.stateOf key = .processing item ∧ Marked [] item
  := by
  obtain ⟨r, -, hl, htk⟩ := take_of_some h ht
  obtain ⟨hcl, hf⟩ := h.queue.clean r ((h.queue.listed key r).1 hl).1
  refine ⟨m.queue.heap r, ?_, ?_, ?_⟩
  · have hn := h.queue.disjoint key r hl
    rw [htk]
    rw [stateOf_taken hn hl, stateOf_of_queued hn hl]
    rfl
  · simp [hcl]
  · simp [hf]

theorem marked_of_taken (h : m.Consistent) (ht : m.takes worker elapsed = some key)
    (hac : ∀ a ∈ actions, a.isCompleteOf worker = false) :
  let before := (machine onForget).final m (.take worker elapsed :: actions)
  ∃ item, before.itemOf worker = some item ∧ item.key = key
    ∧ Marked (actions.filterMap (Action.mark key)) item
  := by
  intro before
  have hta := consistent_step h onForget (.take worker elapsed)
  obtain ⟨item, hs, hm⟩ := stateOf_take_marked h ht
  obtain ⟨hh, hal⟩ := (handles_take h ht).run onForget hta hac
  obtain ⟨item', hfi, hma⟩ := hm.run onForget hal key
  have hbe : before.queue.stateOf key = .processing item' := by
    rw [← hfi, ← hs]
    exact ((projects onForget key).final hta actions).symm
  have hco : before.Consistent := (projects onForget key).inv_final hta actions
  obtain ⟨hi, hke⟩ := hh.itemOf hco hbe
  refine ⟨item', hi, hke, ?_⟩
  rw [nil_append, marks_along] at hma
  exact hma

theorem getLast?_ne_forget {l₁ l₂ : List Mark} (h : .forget ∉ l₂) :
  (l₁ ++ .enqueue :: l₂).getLast? ≠ some .forget
  := by
  intro hla
  rw [getLast?_append_cons] at hla
  rcases mem_cons.1 (mem_of_getLast? hla) with hmm | hmm
  · cases hmm
  · exact h hmm

/-- No update is lost: a key that is put in while a worker handles it, and is not forgotten after
that, is in the queue after the completion. -/
theorem no_update_lost (onForget : Bool) (clock : Time) (pre mid : List Action)
    (worker elapsed₀ : Nat) (key : String) (results : Results) (elapsed elapsed' : Nat)
    (htakes : ((machine onForget).final (Machine.init clock) pre).takes worker elapsed₀ = some key)
    (hmid : ∀ a ∈ mid, a.isCompleteOf worker = false) :
  let before := (machine onForget).final (Machine.init clock)
    (pre ++ .take worker elapsed₀ :: mid)
  let after := ((machine onForget).step before (.complete worker results elapsed elapsed')).1
  let marks := mid.filterMap (Action.mark key)
  (∀ l₁ l₂, marks = l₁ ++ .enqueue :: l₂ → .forget ∉ l₂ → after.queue.Has key)
    ∧ (after.queue.Has key
      ↔ marks.getLast? ≠ some .forget
        ∧ (.enqueue ∈ marks ∨ ∃ item, before.itemOf worker = some item ∧ results.Retries item))
  := by
  intro before after marks
  have hbe : before.Consistent := consistent_final onForget clock _
  obtain ⟨item, hi, rfl, hm⟩ :
      ∃ item, before.itemOf worker = some item ∧ item.key = key ∧ Marked marks item := by
    have hta := marked_of_taken onForget (consistent_final onForget clock pre) htakes hmid
    rwa [← Mealy.final_append] at hta
  have hif : after.queue.Has item.key
      ↔ marks.getLast? ≠ some .forget ∧ (.enqueue ∈ marks ∨ results.Retries item) := by
    rw [Ne, ← hm.forget, ← hm.redirtied, Bool.not_eq_true]
    exact hbe.has_complete_iff onForget hi results elapsed elapsed'
  constructor
  · intro l₁ l₂ hmr hf
    apply hif.mpr
    rw [hmr]
    use getLast?_ne_forget hf
    simp
  · rw [hif, hi]
    simp

theorem no_update_lost_once :
  let results : Results := { err := none, retryFunc := defaultRetryFunc, limit := 0 }
  let before := (machine true).final (Machine.init 0)
    [.enqueueWithoutRateLimit "pod" 0, .take 0 1, .enqueueWithoutRateLimit "pod" 2]
  ((machine true).step before (.complete 0 results 3 4)).1.queue.Has "pod"
  := by
  intro results before
  apply (no_update_lost true 0 [.enqueueWithoutRateLimit "pod" 0]
    [.enqueueWithoutRateLimit "pod" 2] 0 1 "pod" results 3 4 (by decide) (by decide)).1 [] []
  · rfl
  · simp

end Periapsis.Queue
