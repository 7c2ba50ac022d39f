import Periapsis.Queue.Invariant
import Periapsis.Transition.System

/-!
# The wait for the next item

One worker at a time waits for the next item.
-/

namespace Periapsis.Queue

open Transition List Option Int64 Machine

/-- What a worker without an item does. -/
inductive Stage where
  | looking
  | waiting (until' : Option Time)
  deriving DecidableEq

structure Waiter where
  machine : Machine
  holder : Option (Nat × Stage)
  wakeupCh : Bool
  inserting : Bool

inductive WaitAction where
  | call (a : Action)
  | signal
  | acquire (worker : Nat)
  | look (elapsed : Nat)
  | wakeup
  | timer (elapsed : Nat)
  | cancel

def Machine.requeues (m : Machine) (worker : Nat) (results : Results) : Bool :=
  match m.working worker with
  | none => false
  | some r =>
    let qi := m.queue.heap r
    if qi.forget then false
    else
      match results.err with
      | none => qi.redirtiedAt.isSome
      | some err =>
        match results.retryFunc qi.key (qi.requeues + 1) qi.originallyAdded err with
        | .ok _ => true
        | .error _ => qi.redirtiedAt.isSome

def Machine.inserts (m : Machine) : Action → Bool
  | .enqueue _ _ _ => true
  | .enqueueWithoutRateLimit _ _ => true
  | .enqueueWithoutRateLimitWithDelay _ _ _ => true
  | .forget _ => false
  | .take _ _ => false
  | .complete worker results _ _ => m.requeues worker results

namespace Waiter

def init (clock : Time) : Waiter where
  machine := .init clock
  holder := none
  wakeupCh := false
  inserting := false

def call (onForget : Bool) (s : Waiter) (a : Action) : Option Waiter :=
  if s.inserting then none
  else
    match a with
    | .take _ _ => none
    | _ =>
      some
        { s with
          machine := ((Queue.machine onForget).step s.machine a).1
          inserting := s.machine.inserts a }

def look (s : Waiter) (worker : Nat) (elapsed : Nat) : Waiter :=
  let now := s.machine.clock + elapsed
  match s.machine.queue.items with
  | [] =>
    { s with
      machine := { s.machine with clock := now }
      holder := some (worker, .waiting none) }
  | r :: _ =>
    let timeUntilProcessing := timeSub (s.machine.queue.planned r) now
    if timeUntilProcessing ≤ 0 then
      { s with machine := (s.machine.take worker elapsed).1, holder := none }
    else
      { s with
        machine := { s.machine with clock := now }
        holder := some (worker, .waiting (some (now + timeUntilProcessing.toInt))) }

def step (onForget : Bool) (s : Waiter) : WaitAction → Option Waiter
  | .call a => s.call onForget a
  | .signal => if s.inserting then some { s with wakeupCh := true, inserting := false } else none
  | .acquire worker =>
    match s.holder, s.machine.working worker with
    | none, none => some { s with holder := some (worker, .looking) }
    | _, _ => none
  | .look elapsed =>
    match s.holder with
    | some (worker, .looking) => if s.inserting then none else some (s.look worker elapsed)
    | _ => none
  | .wakeup =>
    match s.holder with
    | some (worker, .waiting _) =>
      if s.wakeupCh then
        some { s with holder := some (worker, .looking), wakeupCh := false }
      else none
    | _ => none
  | .timer elapsed =>
    match s.holder with
    | some (worker, .waiting (some due)) =>
      let now := s.machine.clock + elapsed
      if due ≤ now then
        some
          { s with
            machine := { s.machine with clock := now }
            holder := some (worker, .looking) }
      else none
    | _ => none
  | .cancel =>
    match s.holder with
    | some (_, .waiting _) => some { s with holder := none }
    | _ => none

end Waiter

def waiter (onForget : Bool) : System Waiter WaitAction where
  step := Waiter.step onForget

theorem add_timeSub_le {t u : Int} (h : ¬ timeSub t u ≤ 0) :
  u + (timeSub t u).toInt ≤ t
  := by
  rw [le_iff_toInt_le, toInt_timeSub, toInt_zero] at h
  rw [toInt_timeSub]
  omega

theorem le_of_timeSub_le {t u : Int} (h : timeSub t u ≤ 0) :
  t ≤ u
  := by
  rw [le_iff_toInt_le, toInt_timeSub, toInt_zero] at h
  omega

def NothingBefore (q : Queue) (until' : Option Time) : Prop :=
  ∀ r ∈ q.items, ∃ due, until' = some due ∧ due ≤ q.planned r

variable {q q' : Queue} {until' : Option Time}

theorem NothingBefore.mono (h : q.NothingBefore until')
    (hi : ∀ r ∈ q'.items, r ∈ q.items ∧ q'.planned r = q.planned r) :
  q'.NothingBefore until'
  := by
  intro r hr
  obtain ⟨hm, hp⟩ := hi r hr
  rw [hp]
  exact h r hm

theorem Consistent.planned_le (h : q.Consistent) (hi : q.items = r :: rest) (hx : x ∈ q.items) :
  q.planned r ≤ q.planned x
  := by
  have hra := h.ranked
  rw [Ranked, hi, pairwise_cons] at hra
  rw [hi] at hx
  rcases mem_cons.1 hx with rfl | hx
  · exact le_refl _
  · exact hra.1 x hx

theorem forget_items (q : Queue) (key : String) :
  ∀ r ∈ (q.forget key).items, r ∈ q.items ∧ (q.forget key).planned r = q.planned r
  := by
  unfold forget
  split
  · intro r hr
    exact ⟨mem_of_mem_erase hr, rfl⟩
  · split
    · intro r hr
      refine ⟨hr, ?_⟩
      rw [planned, heap_modify]
      split
      next heq =>
        rw [heq]
        rfl
      · rfl
    · intro r hr
      exact ⟨hr, rfl⟩

theorem complete_items {m : Machine} (h : m.requeues worker results = false) (onForget : Bool)
    (elapsed elapsed' : Nat) :
  let m' := (m.complete onForget worker results elapsed elapsed').1
  ∀ r ∈ m'.queue.items, r ∈ m.queue.items ∧ m'.queue.planned r = m.queue.planned r
  := by
  unfold requeues at h
  unfold complete
  cases hw : m.working worker with
  | none => exact fun r hr => ⟨hr, rfl⟩
  | some r =>
    rw [hw] at h
    dsimp only at h ⊢
    unfold handleQueueItemObject
    dsimp only
    split
    · exact fun r hr => ⟨hr, rfl⟩
    next hf =>
      rw [if_neg hf] at h
      split
      next her =>
        rw [her] at h
        have hno := isSome_eq_false_iff.1 h
        rw [isNone_iff_eq_none] at hno
        simp only [release, hno]
        exact fun r hr => ⟨hr, rfl⟩
      next err her =>
        rw [her] at h
        dsimp only at h
        split
        next delay hre =>
          rw [hre] at h
          cases h
        next err' hre =>
          rw [hre] at h
          have hno := isSome_eq_false_iff.1 h
          rw [isNone_iff_eq_none] at hno
          simp only [release, hno]
          exact fun r hr => ⟨hr, rfl⟩

namespace Waiter

variable {onForget : Bool} {s t : Waiter} {worker : Nat} {elapsed : Nat}

theorem look_cases (h : s.machine.Consistent) (worker : Nat) (elapsed : Nat) :
  (∃ until', s.machine.queue.NothingBefore until'
      ∧ s.look worker elapsed =
        { s with
          machine := { s.machine with clock := s.machine.clock + elapsed }
          holder := some (worker, .waiting until') })
    ∨ ∃ r rest, s.machine.queue.items = r :: rest
      ∧ timeSub (s.machine.queue.planned r) (s.machine.clock + elapsed) ≤ 0
      ∧ s.look worker elapsed =
        { s with machine := (s.machine.take worker elapsed).1, holder := none }
  := by
  unfold look
  dsimp only
  split
  next hi =>
    left
    refine ⟨none, ?_, rfl⟩
    intro r hr
    rw [hi] at hr
    cases hr
  next r rest hi =>
    split
    next hd =>
      right
      exact ⟨r, rest, hi, hd, rfl⟩
    next hd =>
      left
      refine ⟨_, ?_, rfl⟩
      intro x hx
      refine ⟨_, rfl, ?_⟩
      apply (add_timeSub_le hd).trans
      apply h.queue.planned_le hi hx

variable {m : Machine}

theorem take_working (hid : m.working worker = none) (hi : m.queue.items = r :: rest)
    (hd : timeSub (m.queue.planned r) (m.clock + elapsed) ≤ 0) :
  (m.take worker elapsed).1.working worker = some r
    ∧ (m.take worker elapsed).1.clock = m.clock + elapsed
  := by
  have hne : m.queue.getNextItem (m.clock + elapsed)
      = some ((m.queue.setProcessed (m.queue.heap r).key (some r)).unlist (m.queue.heap r).key r,
        r) := by
    unfold getNextItem
    rw [hi]
    exact if_pos hd
  simp only [Machine.take, hid, hne, Function.update_self, and_self]

structure Awake (s : Waiter) : Prop where
  consistent : s.machine.Consistent
  idle : ∀ w stage, s.holder = some (w, stage) → s.machine.working w = none
  awake : ∀ w until', s.holder = some (w, .waiting until') →
    s.inserting = true ∨ s.wakeupCh = true ∨ s.machine.queue.NothingBefore until'

theorem awake_init (clock : Time) :
  (init clock).Awake
  := by
  refine ⟨consistent_init clock, ?_, ?_⟩
  · intro w stage h
    cases h
  · intro w until' h
    cases h

theorem idle_call (ht : ∀ w e, a ≠ .take w e) (hid : m.working worker = none) :
  ((Queue.machine onForget).step m a).1.working worker = none
  := by
  cases a with
  | take w e => exact absurd rfl (ht w e)
  | complete w results elapsed elapsed' =>
    simp only [Queue.machine, complete]
    split
    · exact hid
    · dsimp only
      rw [Function.update_apply]
      split
      · rfl
      · exact hid
  | _ => exact hid

theorem nothingBefore_call (his : m.inserts a = false) (ht : ∀ w e, a ≠ .take w e)
    (h : m.queue.NothingBefore until') :
  ((Queue.machine onForget).step m a).1.queue.NothingBefore until'
  := by
  cases a with
  | forget key => exact h.mono (forget_items m.queue key)
  | take w e => exact absurd rfl (ht w e)
  | complete w results elapsed elapsed' => exact h.mono (complete_items his onForget _ _)
  | _ => cases his

theorem call_eq_some (h : s.call onForget a = some t) :
  s.inserting = false ∧ (∀ w e, a ≠ .take w e)
    ∧ t =
      { s with
        machine := ((Queue.machine onForget).step s.machine a).1
        inserting := s.machine.inserts a }
  := by
  unfold call at h
  split at h
  · cases h
  next hin =>
    split at h
    · cases h
    next ht =>
      exact ⟨by simpa using hin, ht, (some.inj h).symm⟩

theorem Awake.call (hs : s.Awake) {a : Action} (h : s.call onForget a = some t) :
  t.Awake
  := by
  obtain ⟨hin, ht, rfl⟩ := call_eq_some h
  refine ⟨consistent_step hs.consistent onForget a, ?_, ?_⟩
  · intro w stage hh
    apply idle_call ht (hs.idle w stage hh)
  · intro w until' hh
    by_cases his : s.machine.inserts a
    · left
      exact his
    · right
      rcases hs.awake w until' hh with hb | hto | hn
      · rw [hin] at hb
        cases hb
      · left
        exact hto
      · right
        apply nothingBefore_call (by simpa using his) ht hn

theorem Awake.look (hs : s.Awake) (hh : s.holder = some (worker, .looking)) :
  (s.look worker elapsed).Awake
  := by
  have hid := hs.idle _ _ hh
  rcases look_cases hs.consistent worker elapsed with
    ⟨until', hn, heq⟩ | ⟨r, rest, hi, hd, heq⟩
  · rw [heq]
    refine ⟨hs.consistent.of_queue hs.consistent.queue rfl _, ?_, ?_⟩
    · rintro w stage ⟨⟩
      exact hid
    · rintro w until'' ⟨⟩
      exact .inr (.inr hn)
  · rw [heq]
    refine ⟨hs.consistent.take worker elapsed, ?_, ?_⟩
    · intro w stage h
      cases h
    · intro w until' h
      cases h

theorem Awake.step (hs : s.Awake) (h : s.step onForget a = some t) :
  t.Awake
  := by
  cases a with
  | call a => exact hs.call h
  | signal =>
    simp only [Waiter.step] at h
    split at h
    · cases h
      exact ⟨hs.consistent, hs.idle, fun _ _ _ => .inr (.inl rfl)⟩
    · cases h
  | acquire worker =>
    simp only [Waiter.step] at h
    split at h
    next hfr hid =>
      cases h
      refine ⟨hs.consistent, ?_, ?_⟩
      · rintro w stage ⟨⟩
        exact hid
      · rintro w until' ⟨⟩
    · cases h
  | look elapsed =>
    simp only [Waiter.step] at h
    split at h
    next worker hh =>
      split at h
      · cases h
      · cases h
        exact hs.look hh
    · cases h
  | wakeup =>
    simp only [Waiter.step] at h
    split at h
    next worker until' hh =>
      split at h
      · cases h
        refine ⟨hs.consistent, ?_, ?_⟩
        · rintro w stage ⟨⟩
          exact hs.idle _ _ hh
        · rintro w until'' ⟨⟩
      · cases h
    · cases h
  | timer elapsed =>
    simp only [Waiter.step] at h
    split at h
    next worker due hh =>
      split at h
      · cases h
        refine ⟨hs.consistent.of_queue hs.consistent.queue rfl _, ?_, ?_⟩
        · rintro w stage ⟨⟩
          exact hs.idle _ _ hh
        · rintro w until' ⟨⟩
      · cases h
    · cases h
  | cancel =>
    simp only [Waiter.step] at h
    split at h
    · cases h
      refine ⟨hs.consistent, ?_, ?_⟩
      · rintro w stage ⟨⟩
      · rintro w until' ⟨⟩
    · cases h

theorem Awake.handed (hs : s.Awake) (hh : s.holder = some (worker, .looking))
    (hr : (s.look worker elapsed).machine.working worker = some r) :
  r ∈ s.machine.queue.items
    ∧ s.machine.queue.planned r ≤ (s.look worker elapsed).machine.clock
    ∧ ∀ x ∈ s.machine.queue.items, s.machine.queue.planned r ≤ s.machine.queue.planned x
  := by
  have hid := hs.idle _ _ hh
  rcases look_cases hs.consistent worker elapsed with
    ⟨until', -, heq⟩ | ⟨r', rest, hi, hd, heq⟩
  · rw [heq] at hr
    exact absurd (hid.symm.trans hr) (by simp)
  · obtain ⟨hw, hc⟩ := take_working hid hi hd
    rw [heq] at hr ⊢
    cases hw.symm.trans hr
    refine ⟨?_, ?_, ?_⟩
    · rw [hi]
      exact mem_cons_self
    · rw [hc]
      exact le_of_timeSub_le hd
    · intro x hx
      exact hs.consistent.queue.planned_le hi hx

end Waiter

/-- A waiting worker has a token in the channel, or nothing to do before its wait ends; and an item
that is handed to a worker is due and planned first in the list. -/
theorem no_lost_wakeup (onForget : Bool) (clock : Time) (actions : List WaitAction) {s : Waiter}
    (hrun : (waiter onForget).run (.init clock) actions = some s) :
  (∀ worker until', s.holder = some (worker, .waiting until') → s.inserting = false →
      s.wakeupCh = true ∨ s.machine.queue.items = []
        ∨ ∃ due r rest, until' = some due ∧ s.machine.queue.items = r :: rest
          ∧ due ≤ s.machine.queue.planned r)
    ∧ ∀ worker elapsed t r, s.holder = some (worker, .looking) →
        (waiter onForget).step s (.look elapsed) = some t →
        t.machine.working worker = some r →
        r ∈ s.machine.queue.items ∧ s.machine.queue.planned r ≤ t.machine.clock
          ∧ ∀ x ∈ s.machine.queue.items, s.machine.queue.planned r ≤ s.machine.queue.planned x
  := by
  have hs : s.Awake := by
    apply (waiter onForget).run_induction (Waiter.awake_init clock) _
      ((waiter onForget).meets_true _ actions) hrun
    intro u a v hu _ hst
    exact hu.step hst
  constructor
  · intro worker until' hh hin
    rcases hs.awake worker until' hh with hb | hto | hn
    · rw [hin] at hb
      cases hb
    · left
      exact hto
    · right
      cases hi : s.machine.queue.items with
      | nil => exact .inl rfl
      | cons r rest =>
        right
        obtain ⟨due, hd, hle⟩ := hn r (by simp [hi])
        exact ⟨due, r, rest, hd, rfl, hle⟩
  · intro worker elapsed t r hh hst hr
    have heq : t = s.look worker elapsed := by
      simp only [waiter, Waiter.step, hh] at hst
      split at hst
      · cases hst
      · exact (some.inj hst).symm
    subst heq
    exact hs.handed hh hr

theorem no_lost_wakeup_enqueued :
  ∃ s, (waiter false).run (.init 0)
      [.acquire 0, .look 0, .call (.enqueueWithoutRateLimit "k" 0), .signal] = some s
    ∧ s.holder = some (0, .waiting none) ∧ s.inserting = false
    ∧ (s.wakeupCh = true ∨ s.machine.queue.items = []
      ∨ ∃ due r rest, none = some due ∧ s.machine.queue.items = r :: rest
        ∧ due ≤ s.machine.queue.planned r)
  := by
  refine ⟨_, rfl, rfl, rfl, ?_⟩
  apply (no_lost_wakeup false 0
    [.acquire 0, .look 0, .call (.enqueueWithoutRateLimit "k" 0), .signal] rfl).1 0 none
  all_goals rfl

/-- After every run nothing is handed out only if no listed item is due; an item handed out is due,
planned first, and of a key that no worker has. -/
theorem getNextItem_earliest (onForget : Bool) (clock now : Time) (actions : List Action) :
  let q := ((machine onForget).final (init clock) actions).queue
  (q.getNextItem now = none ↔ ∀ r ∈ q.items, now < q.planned r)
    ∧ ∀ q' r, q.getNextItem now = some (q', r) → q.planned r ≤ now
      ∧ (∀ x ∈ q.items, q.planned r ≤ q.planned x) ∧ q.itemsBeingProcessed (q.heap r).key = none
  := by
  have h := (consistent_final onForget clock actions).queue
  intro q
  cases hi : q.items with
  | nil => simp [getNextItem, hi]
  | cons r rest =>
    have hle : ∀ x ∈ r :: rest, q.planned r ≤ q.planned x := hi ▸ fun x => h.planned_le hi
    by_cases hd : timeSub (q.planned r) now ≤ 0
    · have hdu := le_of_timeSub_le hd
      rw [planned] at hd
      simp only [getNextItem, hi, if_pos hd]
      refine ⟨iff_of_false (by simp) fun hn => Int.not_lt.2 hdu (hn r mem_cons_self), ?_⟩
      rintro _ _ ⟨⟩
      exact ⟨hdu, hle, h.disjoint _ r ((h.listed _ r).2 ⟨hi ▸ mem_cons_self, rfl⟩)⟩
    · have hdu : now < q.planned r := by
        rw [le_iff_toInt_le, toInt_timeSub, toInt_zero] at hd
        change (_ : Int) < _
        omega
      rw [planned] at hd
      simp only [getNextItem, hi, if_neg hd]
      exact ⟨iff_of_true trivial fun x hx => Int.lt_of_lt_of_le hdu (hle x hx), by simp⟩

end Periapsis.Queue
