import Periapsis.Queue.Queue

/-!
# The representation invariant of the work queue

The list, the maps and the workers of a queue agree on its items.
-/

namespace Periapsis.Queue

open Transition List Function Machine Option

structure Consistent (q : Queue) : Prop where
  ranked : Ranked q.planned q.items
  nodup : q.items.Nodup
  listed : ∀ key r, q.itemsInQueue key = some r ↔ r ∈ q.items ∧ (q.heap r).key = key
  processed : ∀ key r, q.itemsBeingProcessed key = some r → (q.heap r).key = key
  disjoint : ∀ key r, q.itemsInQueue key = some r → q.itemsBeingProcessed key = none
  allocated : ∀ r ∈ q.items, r < q.next
  allocated_processed : ∀ key r, q.itemsBeingProcessed key = some r → r < q.next
  clean : ∀ r ∈ q.items, (q.heap r).redirtiedAt = none ∧ (q.heap r).forget = false

theorem consistent_new :
  new.Consistent
  := by
  constructor
  · exact List.Pairwise.nil
  · exact nodup_nil
  all_goals simp [new]

variable {q : Queue} {key : String} {r : Ref} {f : QueueItem → QueueItem}

variable {x : Ref}

theorem heap_modify (f : QueueItem → QueueItem) :
  (q.modify r f).heap x = if x = r then f (q.heap r) else q.heap x
  := update_apply ..

theorem key_modify (hky : ∀ item, (f item).key = item.key) (x : Ref) :
  ((q.modify r f).heap x).key = (q.heap x).key
  := by
  rw [heap_modify]
  split
  next hx =>
    rw [hky, hx]
  · rfl

namespace Consistent

theorem not_listed (h : q.Consistent) (hr : q.itemsBeingProcessed key = some r) :
  r ∉ q.items
  := by
  intro hm
  have hl := (h.listed _ r).2 ⟨hm, rfl⟩
  have hno := h.disjoint _ r hl
  rw [h.processed key r hr, hr] at hno
  cases hno

theorem modify (h : q.Consistent) (hky : ∀ item, (f item).key = item.key) (hf : r ∈ q.items →
      (f (q.heap r)).plannedToStartWorkAt = (q.heap r).plannedToStartWorkAt
      ∧ (f (q.heap r)).redirtiedAt = (q.heap r).redirtiedAt
      ∧ (f (q.heap r)).forget = (q.heap r).forget) :
  (q.modify r f).Consistent
  := by
  have hke : ∀ x ∈ q.items,
      ((q.modify r f).heap x).plannedToStartWorkAt = (q.heap x).plannedToStartWorkAt
      ∧ ((q.modify r f).heap x).redirtiedAt = (q.heap x).redirtiedAt
      ∧ ((q.modify r f).heap x).forget = (q.heap x).forget := by
    intro x hx
    rw [heap_modify]
    split
    next heq =>
      subst heq
      apply hf hx
    · exact ⟨rfl, rfl, rfl⟩
  refine ⟨?_, h.nodup, ?_, ?_, h.disjoint, h.allocated, h.allocated_processed, ?_⟩
  · apply h.ranked.congr
    intro x hx
    apply (hke x hx).1
  · intro k x
    rw [key_modify hky]
    apply h.listed
  · intro k x hx
    rw [key_modify hky]
    apply h.processed k x hx
  · intro x hx
    rw [(hke x hx).2.1, (hke x hx).2.2]
    apply h.clean x hx

theorem modify_processed (h : q.Consistent) (hr : q.itemsBeingProcessed key = some r)
    (hky : ∀ item, (f item).key = item.key) :
  (q.modify r f).Consistent
  := by
  apply h.modify hky
  intro hm
  exact absurd hm (h.not_listed hr)

end Consistent

section Push

variable {val : QueueItem}

theorem heap_push (x : Ref) :
  (q.push val).1.heap x = if x = q.next then val else q.heap x
  := update_apply ..

theorem itemsInQueue_push (k : String) :
  (q.push val).1.itemsInQueue k = if k = val.key then some q.next else q.itemsInQueue k
  := update_apply ..

theorem mem_push_items :
  x ∈ (q.push val).1.items ↔ x = q.next ∨ x ∈ q.items
  := mem_insertBack

theorem heap_push_of_lt (hx : x < q.next) :
  (q.push val).1.heap x = q.heap x
  := by
  rw [heap_push, if_neg hx.ne]

theorem Consistent.listed_push (h : q.Consistent) (hqu : q.itemsInQueue val.key = none)
    (k : String) (x : Ref) :
  (q.push val).1.itemsInQueue k = some x
    ↔ x ∈ (q.push val).1.items ∧ ((q.push val).1.heap x).key = k
  := by
  have hfr : q.next ∉ q.items := fun hm => lt_irrefl _ (h.allocated _ hm)
  rw [itemsInQueue_push, mem_push_items, heap_push]
  by_cases hx : x = q.next
  · subst hx
    by_cases hk : k = val.key
    · simp [hk]
    · simp only [hk, if_false, if_true, true_or, true_and, iff_false_intro (Ne.symm hk),
        iff_false]
      intro hm
      exact hfr ((h.listed k _).1 hm).1
  · by_cases hk : k = val.key
    · subst hk
      simp only [if_true, some.injEq, Ne.symm hx, hx, if_false, false_or, false_iff]
      intro hm
      rw [(h.listed _ x).2 hm] at hqu
      cases hqu
    · simp only [hk, if_false, hx, false_or]
      apply h.listed

theorem Consistent.push (h : q.Consistent) (hqu : q.itemsInQueue val.key = none)
    (hp : q.itemsBeingProcessed val.key = none) (hc : val.redirtiedAt = none ∧ val.forget = false) :
  (q.push val).1.Consistent
  := by
  have hol : ∀ x ∈ q.items, (q.push val).1.heap x = q.heap x := by
    intro x hx
    apply heap_push_of_lt (h.allocated x hx)
  constructor
  case ranked =>
    apply insertBack_ranked
    apply h.ranked.congr
    intro x hx
    exact congrArg QueueItem.plannedToStartWorkAt (hol x hx)
  case nodup =>
    apply (insertBack_perm _ _ _).nodup_iff.2
    apply nodup_cons.2 ⟨fun hm => lt_irrefl _ (h.allocated _ hm), h.nodup⟩
  case listed =>
    intro k x
    apply h.listed_push hqu
  case processed =>
    intro k x hx
    rw [heap_push_of_lt (h.allocated_processed k x hx)]
    apply h.processed k x hx
  case disjoint =>
    intro k x hx
    rw [itemsInQueue_push] at hx
    split at hx
    next heq =>
      rw [heq]
      apply hp
    · apply h.disjoint k x hx
  case allocated =>
    intro x hx
    rcases mem_push_items |>.mp hx with rfl | hx
    · exact Nat.lt_succ_self _
    · exact Nat.lt_succ_of_lt (h.allocated x hx)
  case allocated_processed =>
    intro k x hx
    exact Nat.lt_succ_of_lt (h.allocated_processed k x hx)
  case clean =>
    intro x hx
    rcases mem_push_items |>.mp hx with rfl | hx
    · rw [heap_push, if_pos rfl]
      exact hc
    · rw [hol x hx]
      apply h.clean x hx

end Push

def moved (q : Queue) (r : Ref) (due : Time) : Queue :=
  { q with
    heap := Function.update q.heap r ((q.heap r).planAt due)
    items := moveBack (q.modify r fun item => item.planAt due).planned r q.items }

variable {due : Time}

theorem adjustPosition_eq :
  q.adjustPosition r due = if q.planned r < due then q else q.moved r due
  := rfl

theorem heap_moved :
  (q.moved r due).heap x = if x = r then (q.heap r).planAt due else q.heap x
  := update_apply ..

theorem Consistent.moved (h : q.Consistent) (hr : q.itemsInQueue key = some r)
    (hd : due ≤ q.planned r) :
  (q.moved r due).Consistent
  := by
  have hm := ((h.listed key r).1 hr).1
  have hky : ∀ x, ((q.moved r due).heap x).key = (q.heap x).key :=
    key_modify (f := fun item => item.planAt due) fun _ => rfl
  have hi : ∀ x, x ∈ (q.moved r due).items ↔ x ∈ q.items :=
    fun x => (moveBack_perm _ hm).mem_iff
  constructor
  case ranked =>
    apply moveBack_ranked h.nodup h.ranked hm
    · rw [planned, heap_moved, if_pos rfl]
      exact hd
    · intro x hx
      rw [planned, heap_moved, if_neg hx]
      rfl
  case nodup => exact (moveBack_perm _ hm).nodup_iff.2 h.nodup
  case listed =>
    intro k x
    rw [hi, hky]
    apply h.listed
  case processed =>
    intro k x hx
    rw [hky]
    apply h.processed k x hx
  case disjoint => exact h.disjoint
  case allocated =>
    intro x hx
    apply h.allocated x ((hi x).1 hx)
  case allocated_processed => exact h.allocated_processed
  case clean =>
    intro x hx
    rw [heap_moved]
    split
    · exact h.clean r hm
    · exact h.clean x ((hi x).1 hx)

theorem Consistent.adjustPosition (h : q.Consistent) (hr : q.itemsInQueue key = some r)
    (due : Time) :
  (q.adjustPosition r due).Consistent
  := by
  rw [adjustPosition_eq]
  split
  · exact h
  next hla =>
    exact h.moved hr (not_lt.1 hla)

theorem Consistent.removed (h : q.Consistent) (hr : q.itemsInQueue key = some r) (k : String)
    (x : Ref) :
  update q.itemsInQueue key none k = some x
    ↔ x ∈ q.items.erase r ∧ (q.heap x).key = k
  := by
  obtain ⟨hm, hky⟩ := (h.listed key r).1 hr
  rw [update_apply, h.nodup.mem_erase_iff]
  by_cases hk : k = key
  · subst hk
    simp only [if_true, reduceCtorEq, false_iff]
    rintro ⟨⟨hne, hx⟩, hxk⟩
    have hl := (h.listed _ x).2 ⟨hx, hxk⟩
    exact hne (some.inj (hl.symm.trans hr))
  · rw [if_neg hk, h.listed, and_assoc]
    constructor
    · rintro ⟨hx, hxk⟩
      refine ⟨?_, hx, hxk⟩
      rintro rfl
      exact hk (hxk.symm.trans hky)
    · rintro ⟨-, hx⟩
      exact hx

theorem Consistent.unlist (h : q.Consistent) (hr : q.itemsInQueue key = some r) :
  (q.unlist key r).Consistent
  := by
  constructor
  case ranked => exact h.ranked.sublist erase_sublist
  case nodup => exact h.nodup.erase r
  case listed => exact h.removed hr
  case processed => exact h.processed
  case disjoint =>
    intro k x hx
    apply h.disjoint k x
    apply (h.listed k x).2
    obtain ⟨hm, hky⟩ := (h.removed hr k x).1 hx
    exact ⟨mem_of_mem_erase hm, hky⟩
  case allocated => exact fun x hx => h.allocated x (mem_of_mem_erase hx)
  case allocated_processed => exact h.allocated_processed
  case clean => exact fun x hx => h.clean x (mem_of_mem_erase hx)

theorem itemsBeingProcessed_setProcessed (q : Queue) (key : String) (r' : Option Ref) (k : String) :
  (q.setProcessed key r').itemsBeingProcessed k = if k = key then r' else q.itemsBeingProcessed k
  := update_apply ..

theorem setProcessed_some (h : (q.setProcessed key r').itemsBeingProcessed k = some x) :
  k = key ∧ r' = some x ∨ q.itemsBeingProcessed k = some x
  := by
  rw [itemsBeingProcessed_setProcessed] at h
  split at h
  · left
    exact ⟨‹_›, h⟩
  · right
    exact h

theorem Consistent.toProcessed (h : q.Consistent) (hr : q.itemsInQueue key = some r) :
  ((q.setProcessed key (some r)).unlist key r).Consistent
  := by
  obtain ⟨hm, hky⟩ := (h.listed key r).1 hr
  have hre := h.unlist hr
  constructor
  case ranked => exact hre.ranked
  case nodup => exact hre.nodup
  case listed => exact hre.listed
  case processed =>
    intro k x hx
    rcases setProcessed_some hx with ⟨rfl, ⟨⟩⟩ | hx
    · exact hky
    · exact h.processed k x hx
  case disjoint =>
    intro k x hx
    have hne : k ≠ key := by
      rintro rfl
      simp [Queue.unlist] at hx
    exact (update_of_ne hne _ _).trans (hre.disjoint k x hx)
  case allocated => exact hre.allocated
  case allocated_processed =>
    intro k x hx
    rcases setProcessed_some hx with ⟨rfl, ⟨⟩⟩ | hx
    · exact h.allocated r hm
    · exact h.allocated_processed k x hx
  case clean => exact hre.clean

theorem Consistent.unprocessed (h : q.Consistent) (key : String) :
  (q.setProcessed key none).Consistent
  := by
  have hs : ∀ {k x}, (q.setProcessed key none).itemsBeingProcessed k = some x →
      q.itemsBeingProcessed k = some x := by
    intro k x hx
    rcases setProcessed_some hx with ⟨-, hno⟩ | hx
    · cases hno
    · exact hx
  constructor
  case ranked => exact h.ranked
  case nodup => exact h.nodup
  case listed => exact h.listed
  case processed => exact fun k x hx => h.processed k x (hs hx)
  case disjoint =>
    intro k x hx
    rw [itemsBeingProcessed_setProcessed]
    split
    · rfl
    · exact h.disjoint k x hx
  case allocated => exact h.allocated
  case allocated_processed => exact fun k x hx => h.allocated_processed k x (hs hx)
  case clean => exact h.clean

variable {now : Time}

theorem newItem_key (key : String) (ratelimit : Bool) (delay : Option Duration) (limit : Duration) :
  (newItem key ratelimit delay now limit).key = key
  := by
  unfold newItem
  split
  all_goals rfl

theorem newItem_clean (key : String) (ratelimit : Bool) (delay : Option Duration) (now : Time)
    (limit : Duration) :
  (newItem key ratelimit delay now limit).redirtiedAt = none
    ∧ (newItem key ratelimit delay now limit).forget = false
  := by
  unfold newItem
  split
  all_goals exact ⟨rfl, rfl⟩

theorem redirty_key {item : QueueItem} {due : Time} :
  (item.redirty due ratelimit).key = item.key
  := by
  unfold QueueItem.redirty
  split
  · rfl
  · split
    all_goals rfl

theorem Consistent.insert (h : q.Consistent) (key : String) (ratelimit : Bool)
    (delay : Option Duration) (now : Time) (limit : Duration) :
  (q.insert key ratelimit delay now limit).1.Consistent
  := by
  unfold Queue.insert
  split
  next r hr =>
    exact h.modify_processed hr fun item => redirty_key
  next hp =>
    split
    next r hr =>
      exact h.adjustPosition hr _
    next hqu =>
      apply h.push
      · rw [newItem_key]
        exact hqu
      · rw [newItem_key]
        exact hp
      · apply newItem_clean

theorem Consistent.forget (h : q.Consistent) (key : String) :
  (q.forget key).Consistent
  := by
  unfold Queue.forget
  split
  next r hr =>
    exact h.unlist hr
  · split
    next r hr =>
      exact h.modify_processed hr fun _ => rfl
    · exact h

theorem insert_itemsBeingProcessed (q : Queue) (key : String) (ratelimit : Bool)
    (delay : Option Duration) (now : Time) (limit : Duration) :
  (q.insert key ratelimit delay now limit).1.itemsBeingProcessed = q.itemsBeingProcessed
  := by
  unfold insert
  split
  · rfl
  · split
    · rw [adjustPosition_eq]
      split
      all_goals rfl
    · rfl

theorem forget_itemsBeingProcessed (q : Queue) (key : String) :
  (q.forget key).itemsBeingProcessed = q.itemsBeingProcessed
  := by
  unfold forget
  split
  · rfl
  · split
    all_goals rfl

theorem getNextItem_eq_some (h : q.Consistent) (hn : q.getNextItem now = some (q', r)) :
  q.itemsInQueue (q.heap r).key = some r ∧ timeSub (q.planned r) now ≤ 0
    ∧ q' = (q.setProcessed (q.heap r).key (some r)).unlist (q.heap r).key r
  := by
  unfold getNextItem at hn
  split at hn
  · cases hn
  next r' rest hi =>
    dsimp only at hn
    split at hn
    next hd =>
      cases hn
      refine ⟨?_, hd, rfl⟩
      apply (h.listed _ _).2
      rw [hi]
      exact ⟨mem_cons_self, rfl⟩
    · cases hn

section Completion

variable {onForget : Bool} {results : Results} {now' : Time}

theorem Consistent.release (h : q.Consistent) (onForget : Bool) (qi : QueueItem)
    (err : Option String) (now now' : Time) (limit : Duration) :
  (q.release onForget qi err now now' limit).1.Consistent
  := by
  unfold Queue.release
  dsimp only
  split
  · apply Consistent.modify
    · apply h.insert
    · exact fun _ => rfl
    · exact fun _ => ⟨rfl, rfl, rfl⟩
  · exact h

theorem release_itemsBeingProcessed {err : Option String} {limit : Duration} :
  (q.release onForget qi err now now' limit).1.itemsBeingProcessed = q.itemsBeingProcessed
  := by
  unfold release
  dsimp only
  split
  · apply insert_itemsBeingProcessed
  · rfl

theorem Consistent.handleQueueItemObject (h : q.Consistent) (onForget : Bool) (r : Ref)
    (results : Results) (now now' : Time) :
  (q.handleQueueItemObject onForget r results now now').1.Consistent
  := by
  have hq := h.unprocessed (q.heap r).key
  unfold Queue.handleQueueItemObject
  dsimp only
  split
  · exact hq
  · split
    · apply hq.release
    · split
      · dsimp only
        apply Consistent.modify
        · apply hq.insert
        · exact fun _ => rfl
        · exact fun _ => ⟨rfl, rfl, rfl⟩
      · apply hq.release

theorem handleQueueItemObject_itemsBeingProcessed (r : Ref) (results : Results) :
  (q.handleQueueItemObject onForget r results now now').1.itemsBeingProcessed
    = (q.setProcessed (q.heap r).key none).itemsBeingProcessed
  := by
  unfold handleQueueItemObject
  dsimp only
  split
  · rfl
  · split
    · apply release_itemsBeingProcessed
    · split
      · apply insert_itemsBeingProcessed
      · apply release_itemsBeingProcessed

end Completion

/-- The items being processed are those the workers have, one each. -/
structure Machine.Consistent (m : Machine) : Prop where
  queue : m.queue.Consistent
  working : ∀ w r, m.working w = some r → ∃ key, m.queue.itemsBeingProcessed key = some r
  busy : ∀ key r, m.queue.itemsBeingProcessed key = some r → ∃ w, m.working w = some r
  alone : ∀ w w' r, m.working w = some r → m.working w' = some r → w = w'

namespace Machine

theorem consistent_init (clock : Time) :
  (init clock).Consistent
  := by
  constructor
  · exact consistent_new
  · simp [init]
  · simp [init, new]
  · simp [init]

variable {m : Machine} {worker : Nat}

namespace Consistent

section

variable (h : m.Consistent)
include h

theorem processed (hw : m.working worker = some r) :
  m.queue.itemsBeingProcessed (m.queue.heap r).key = some r
  := by
  obtain ⟨key, hky⟩ := h.working worker r hw
  rw [h.queue.processed key r hky]
  exact hky

theorem of_queue (hq : q.Consistent) (heq : q.itemsBeingProcessed = m.queue.itemsBeingProcessed)
    (clock : Time) :
  { m with queue := q, clock := clock : Machine }.Consistent
  := by
  refine ⟨hq, ?_, ?_, h.alone⟩
  · rw [heq]
    exact h.working
  · rw [heq]
    exact h.busy

theorem assign (hid : m.working worker = none) (hr : m.queue.itemsInQueue key = some r)
    (clock : Time) :
  { queue := (m.queue.setProcessed key (some r)).unlist key r
    working := update m.working worker (some r)
    clock := clock : Machine }.Consistent
  := by
  have hnw : ∀ w, m.working w ≠ some r := by
    intro w hw
    apply h.queue.not_listed (h.processed hw)
    exact ((h.queue.listed key r).1 hr).1
  have hwo : ∀ w x, update m.working worker (some r) w = some x ↔
      w = worker ∧ x = r ∨ m.working w = some x := by
    intro w x
    rw [update_apply]
    split
    next hw =>
      simp [hw, hid, eq_comm]
    next hw =>
      simp [hw]
  refine ⟨h.queue.toProcessed hr, ?_, ?_, ?_⟩
  · intro w x hw
    rcases (hwo w x).1 hw with ⟨-, rfl⟩ | hw
    · use key
      apply (itemsBeingProcessed_setProcessed ..).trans
      exact if_pos rfl
    · obtain ⟨k, hk⟩ := h.working w x hw
      use k
      apply (itemsBeingProcessed_setProcessed ..).trans
      rw [if_neg, hk]
      rintro rfl
      rw [h.queue.disjoint k r hr] at hk
      cases hk
  · intro k x hx
    rcases setProcessed_some hx with ⟨-, ⟨⟩⟩ | hx
    · exact ⟨worker, (hwo worker r).2 (.inl ⟨rfl, rfl⟩)⟩
    · obtain ⟨w, hw⟩ := h.busy k x hx
      exact ⟨w, (hwo w x).2 (.inr hw)⟩
  · intro w w' x hw hw'
    rcases (hwo w x).1 hw with ⟨rfl, rfl⟩ | hol
    · rcases (hwo w' x).1 hw' with ⟨rfl, -⟩ | ho
      · rfl
      · exact absurd ho (hnw w')
    · rcases (hwo w' x).1 hw' with ⟨-, rfl⟩ | ho
      · exact absurd hol (hnw w)
      · exact h.alone w w' x hol ho

theorem dismiss (hw : m.working worker = some r) (hq : q.Consistent)
    (heq : q.itemsBeingProcessed =
      (m.queue.setProcessed (m.queue.heap r).key none).itemsBeingProcessed)
    (clock : Time) :
  { queue := q
    working := update m.working worker none
    clock := clock : Machine }.Consistent
  := by
  have hwo : ∀ w x, update m.working worker none w = some x ↔
      w ≠ worker ∧ m.working w = some x := by
    intro w x
    rw [update_apply]
    split
    next heq =>
      simp [heq]
    next hne =>
      simp [hne]
  have hp : ∀ k x, q.itemsBeingProcessed k = some x ↔
      k ≠ (m.queue.heap r).key ∧ m.queue.itemsBeingProcessed k = some x := by
    intro k x
    rw [heq, itemsBeingProcessed_setProcessed]
    split
    next heq =>
      simp [heq]
    next hne =>
      simp [hne]
  refine ⟨hq, ?_, ?_, ?_⟩
  · intro w x hx
    obtain ⟨hne, hx⟩ := (hwo w x).1 hx
    obtain ⟨k, hk⟩ := h.working w x hx
    refine ⟨k, (hp k x).2 ⟨?_, hk⟩⟩
    rintro rfl
    obtain rfl := some.inj (hk.symm.trans (h.processed hw))
    exact hne (h.alone w worker x hx hw)
  · intro k x hx
    obtain ⟨hne, hb⟩ := (hp k x).1 hx
    obtain ⟨w, hwx⟩ := h.busy k x hb
    refine ⟨w, (hwo w x).2 ⟨?_, hwx⟩⟩
    rintro rfl
    obtain rfl := some.inj (hwx.symm.trans hw)
    exact hne (h.queue.processed k x hb).symm
  · intro w w' x hx hx'
    exact h.alone w w' x ((hwo w x).1 hx).2 ((hwo w' x).1 hx').2

theorem insert (key : String) (ratelimit : Bool) (delay : Option Duration) (elapsed : Nat)
    (limit : Duration) :
  (m.insert key ratelimit delay elapsed limit).Consistent
  := by
  apply h.of_queue
  · apply h.queue.insert
  · apply insert_itemsBeingProcessed

theorem take (worker : Nat) (elapsed : Nat) :
  (m.take worker elapsed).1.Consistent
  := by
  unfold Machine.take
  split
  · exact h
  next hid =>
    dsimp only
    split
    · apply h.of_queue h.queue rfl
    next q' r hn =>
      obtain ⟨hl, -, rfl⟩ := getNextItem_eq_some h.queue hn
      apply h.assign hid hl

theorem complete (onForget : Bool) (worker : Nat) (results : Results) (elapsed elapsed' : Nat) :
  (m.complete onForget worker results elapsed elapsed').1.Consistent
  := by
  unfold Machine.complete
  split
  · exact h
  next r hw =>
    apply h.dismiss hw
    · apply h.queue.handleQueueItemObject
    · apply handleQueueItemObject_itemsBeingProcessed

end

end Consistent

end Machine

theorem consistent_step {m : Machine} (h : m.Consistent) (onForget : Bool) (a : Action) :
  ((machine onForget).step m a).1.Consistent
  := by
  cases a with
  | forget key =>
    apply h.of_queue
    · apply h.queue.forget
    · apply forget_itemsBeingProcessed
  | take worker elapsed => apply h.take
  | complete worker results elapsed elapsed' => apply h.complete
  | _ => apply h.insert

theorem consistent_final (onForget : Bool) (clock : Time) (actions : List Action) :
  ((machine onForget).final (init clock) actions).Consistent
  := by
  apply (machine onForget).final_induction (C := fun _ _ => True)
  · apply consistent_init
  · intro m a h _
    apply consistent_step h
  · apply (machine onForget).meets_of_forall
    intros
    trivial

/-- The list is sorted by planned times without a key twice, the map has exactly the listed keys,
none being processed, and no two workers handle one key. -/
theorem representation (onForget : Bool) (clock : Time) (actions : List Action) :
  let m := (machine onForget).final (Machine.init clock) actions
  let q := m.queue
  q.items.Pairwise (fun r r' =>
      (q.heap r).plannedToStartWorkAt ≤ (q.heap r').plannedToStartWorkAt)
    ∧ (q.items.map fun r => (q.heap r).key).Nodup
    ∧ (∀ key r, q.itemsInQueue key = some r ↔ r ∈ q.items ∧ (q.heap r).key = key)
    ∧ (∀ r ∈ q.items, q.itemsBeingProcessed (q.heap r).key = none)
    ∧ ∀ w w' r r', m.working w = some r → m.working w' = some r' →
        (q.heap r).key = (q.heap r').key → w = w'
  := by
  have h := consistent_final onForget clock actions
  intro m q
  refine ⟨h.queue.ranked, ?_, h.queue.listed, ?_, ?_⟩
  · apply List.Nodup.map_on _ h.queue.nodup
    intro r hr r' hr' hky
    have hl := (h.queue.listed _ r).mpr ⟨hr, rfl⟩
    have hli := (h.queue.listed _ r').mpr ⟨hr', rfl⟩
    rw [hky, hli] at hl
    exact (some.inj hl).symm
  · intro r hr
    apply h.queue.disjoint _ r
    apply (h.queue.listed _ r).mpr ⟨hr, rfl⟩
  · intro w w' r r' hw hw' hky
    have hp := h.processed hw
    rw [hky, h.processed hw'] at hp
    obtain rfl := some.inj hp
    exact h.alone w w' r' hw hw'

/-- After every run a key is marked as being processed exactly while one worker has it. -/
theorem processed_iff_worker (onForget : Bool) (clock : Time) (actions : List Action)
    (key : String) :
  let m := (machine onForget).final (Machine.init clock) actions
  (m.queue.itemsBeingProcessed key).isSome = true
    ↔ ∃! w, ∃ r, m.working w = some r ∧ (m.queue.heap r).key = key
  := by
  have h := consistent_final onForget clock actions
  intro m
  rw [isSome_iff_exists]
  constructor
  · rintro ⟨r, hr⟩
    obtain ⟨w, hw⟩ := h.busy key r hr
    refine ⟨w, ⟨r, hw, h.queue.processed key r hr⟩, ?_⟩
    rintro w' ⟨r', hw', rfl⟩
    have hr' := h.processed hw'
    rw [hr] at hr'
    cases hr'
    exact h.alone w' w r hw' hw
  · rintro ⟨w, ⟨r, hw, rfl⟩, -⟩
    exact ⟨r, h.processed hw⟩

end Periapsis.Queue
