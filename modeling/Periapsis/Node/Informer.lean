import Periapsis.Node.PodController
import Periapsis.Queue.Updates

/-!
# The known pods

The informer tells of pod objects added, changed or deleted, and handlers keep the known pods and
fill the queues.
-/

namespace Periapsis.Node

open Corev1 Transition List Bool Queue

def metaNamespaceKeyFunc (pod : ApiPod) : String :=
  if pod.podNamespace = "" then pod.name else pod.podNamespace ++ "/" ++ pod.name

namespace Notification

def key : Notification → String
  | .add pod => metaNamespaceKeyFunc pod
  | .update _ newPod => metaNamespaceKeyFunc newPod
  | .delete pod _ => metaNamespaceKeyFunc pod

def isAdd : Notification → Bool
  | .add _ => true
  | _ => false

def isDelete : Notification → Bool
  | .delete _ _ => true
  | _ => false

def isFinalStateUnknown : Notification → Bool
  | .delete _ finalStateUnknown => finalStateUnknown
  | _ => false

end Notification

/-- The known pods and the three work queues. -/
structure EventHandler where
  knownPods : String → Option KnownPod
  syncPodsFromKubernetes : Queue.Machine
  syncPodStatusFromProvider : Queue.Machine
  deletePodsFromKubernetes : Queue.Machine

/-- What is read when keys are put on the queues of pods and of statuses: the time that has passed,
and the delays given by the rate limiters. -/
structure EnqueueReadings where
  elapsed : Nat := 0
  limit : Duration := 0
  statusElapsed : Nat := 0
  statusLimit : Duration := 0

namespace EventHandler

def init (clock : Time) : EventHandler where
  knownPods _ := none
  syncPodsFromKubernetes := .init clock
  syncPodStatusFromProvider := .init clock
  deletePodsFromKubernetes := .init clock

variable (s : EventHandler)

def setKnownPod (key : String) (kPod : Option KnownPod) : EventHandler :=
  { s with knownPods := Function.update s.knownPods key kPod }

def enqueueSync (r : EnqueueReadings) (key : String) : EventHandler :=
  { s with
    syncPodsFromKubernetes := s.syncPodsFromKubernetes.insert key true none r.elapsed r.limit }

def enqueueStatus (r : EnqueueReadings) (key : String) : EventHandler :=
  { s with
    syncPodStatusFromProvider :=
      s.syncPodStatusFromProvider.insert key true none r.statusElapsed r.statusLimit }

def forgetDeletion (key : String) : EventHandler :=
  { s with
    deletePodsFromKubernetes :=
      { s.deletePodsFromKubernetes with
        queue := s.deletePodsFromKubernetes.queue.forget key } }

def addFunc (r : EnqueueReadings) (pod : ApiPod) : EventHandler :=
  let key := metaNamespaceKeyFunc pod
  (s.setKnownPod key (some {})).enqueueSync r key

def updateFunc (r : EnqueueReadings) (oldPod newPod : ApiPod) :
    Option EventHandler :=
  let key := metaNamespaceKeyFunc newPod
  match s.knownPods key with
  | none => none
  | some kPod =>
    let s :=
      if kPod.lastPodStatusUpdateSkipped && PodController.statusDiffers kPod newPod then
        (s.enqueueStatus r key).setKnownPod key
          (some { kPod with lastPodStatusUpdateSkipped := false })
      else s
    some (if podShouldEnqueue oldPod newPod then s.enqueueSync r key else s)

def deleteFunc (r : EnqueueReadings) (pod : ApiPod) (finalStateUnknown : Bool) : EventHandler :=
  let key := metaNamespaceKeyFunc pod
  if finalStateUnknown then s
  else ((s.setKnownPod key none).enqueueSync r key).forgetDeletion (key ++ "/" ++ pod.uid)

def handle (r : EnqueueReadings) : Notification → Option EventHandler
  | .add pod => some (s.addFunc r pod)
  | .update oldPod newPod => s.updateFunc r oldPod newPod
  | .delete pod finalStateUnknown => some (s.deleteFunc r pod finalStateUnknown)

end EventHandler

inductive HandlerStep where
  | notify (n : Notification) (r : EnqueueReadings)
  | sync (a : Queue.Action)
  | syncStatus (a : Queue.Action)
  | deleteFromKubernetes (a : Queue.Action)
  | change (key : String) (f : KnownPod → KnownPod)

def eventHandler : System EventHandler HandlerStep where
  step s a :=
    match a with
    | .notify n r => s.handle r n
    | .sync a =>
      some { s with
        syncPodsFromKubernetes := ((Queue.machine true).step s.syncPodsFromKubernetes a).1 }
    | .syncStatus a =>
      some { s with
        syncPodStatusFromProvider :=
          ((Queue.machine false).step s.syncPodStatusFromProvider a).1 }
    | .deleteFromKubernetes a =>
      some { s with
        deletePodsFromKubernetes :=
          ((Queue.machine false).step s.deletePodsFromKubernetes a).1 }
    | .change key f => some (s.setKnownPod key ((s.knownPods key).map f))

/-- The notifications among steps. -/
def notificationsOf (steps : List HandlerStep) : List Notification :=
  steps.filterMap fun a =>
    match a with
    | .notify n _ => some n
    | _ => none

def present (ns : List Notification) (key : String) : Bool :=
  (ns.filter (·.key = key)).getLast?.any fun n => !n.isDelete

def Valid (ns : List Notification) : Prop :=
  ∀ before n, before ++ [n] <+: ns → n.isAdd = !present before n.key

variable {ns : List Notification} {n : Notification} {key : String} {steps : List HandlerStep}

theorem present_concat :
  present (ns ++ [n]) key = if n.key = key then !n.isDelete else present ns key
  := by
  unfold present
  split
  next hky =>
    simp [hky]
  next hky =>
    simp [hky]

theorem valid_concat_iff :
  Valid (ns ++ [n]) ↔ Valid ns ∧ n.isAdd = !present ns n.key
  := by
  constructor
  · intro h
    constructor
    · intro before n' hi
      apply h before n' (hi.trans (prefix_append _ _))
    · apply h ns n (prefix_refl _)
  · rintro ⟨hns, hn⟩ before n' hi
    rcases prefix_concat_iff.1 hi with heq | hi
    · obtain ⟨rfl, hl⟩ := append_inj' heq rfl
      obtain rfl := singleton_inj.1 hl
      apply hn
    · apply hns before n' hi

theorem notificationsOf_concat_notify :
  notificationsOf (steps ++ [.notify n r]) = notificationsOf steps ++ [n]
  := by
  simp [notificationsOf]

theorem notificationsOf_concat_other (ha : ∀ n r, a ≠ .notify n r) :
  notificationsOf (steps ++ [a]) = notificationsOf steps
  := by
  cases a with
  | notify n r => exact absurd rfl (ha n r)
  | sync | syncStatus | deleteFromKubernetes | change => simp [notificationsOf]

namespace EventHandler

variable {s t : EventHandler} {r : EnqueueReadings} {oldPod newPod : ApiPod}

def Queued (m : Queue.Machine) (key : String) : Prop :=
  m.queue.Has key ∨ (m.queue.itemsBeingProcessed key).isSome = true

structure Follows (s : EventHandler) (steps : List HandlerStep) : Prop where
  known : ∀ key, (s.knownPods key).isSome = present (notificationsOf steps) key
  queued : ∀ n r, steps.getLast? = some (.notify n r) → n.isDelete = true →
    Queued s.syncPodsFromKubernetes n.key

theorem queued_insert {m : Queue.Machine} (h : m.Consistent) {key : String}
    {delay : Option Duration} {elapsed : Nat} {limit : Duration} :
  Queued (m.insert key ratelimit delay elapsed limit) key
  := by
  have hin := h.insert key ratelimit delay elapsed limit
  unfold Queue.Machine.insert at hin ⊢
  cases hpr : m.queue.itemsBeingProcessed key with
  | some item =>
    right
    rw [insert_itemsBeingProcessed, hpr]
    rfl
  | none =>
    left
    apply (hin.queue.has_iff key).2
    rw [stateOf_insert]
    cases hq : m.queue.itemsInQueue key with
    | some item =>
      rw [stateOf_of_queued hpr hq]
      exact ⟨_, rfl⟩
    | none =>
      rw [stateOf_of_none hpr hq]
      exact ⟨_, rfl⟩

theorem follows_concat_notify_iff :
  t.Follows (steps ++ [.notify n r])
    ↔ (∀ key, (t.knownPods key).isSome
        = if n.key = key then !n.isDelete else present (notificationsOf steps) key)
      ∧ (n.isDelete → Queued t.syncPodsFromKubernetes n.key)
  := by
  constructor
  · intro h
    constructor
    · intro key
      rw [h.known, notificationsOf_concat_notify, present_concat]
    · apply h.queued n r (by simp)
  · rintro ⟨hk, hqu⟩
    constructor
    · intro key
      rw [hk, notificationsOf_concat_notify, present_concat]
    · intro n' r' hl
      obtain ⟨rfl, -⟩ : n = n' ∧ r = r' := by simpa using hl
      apply hqu

theorem isSome_setKnownPod {s : EventHandler} {key : String} :
  ((s.setKnownPod key kPod).knownPods key').isSome
    = if key = key' then kPod.isSome else (s.knownPods key').isSome
  := by
  unfold setKnownPod
  by_cases hky : key = key'
  · subst hky
    simp
  · simp [hky, Ne.symm hky]

theorem Follows.addFunc (h : s.Follows steps) (r : EnqueueReadings) (pod : ApiPod) :
  (s.addFunc r pod).Follows (steps ++ [.notify (.add pod) r])
  := by
  apply follows_concat_notify_iff.2
  constructor
  · intro key
    rw [← h.known]
    apply isSome_setKnownPod
  · rintro ⟨⟩

theorem isSome_updateFunc (h : s.updateFunc r oldPod newPod = some t) :
  (t.knownPods key).isSome = (s.knownPods key).isSome
  := by
  simp only [EventHandler.updateFunc] at h
  split at h
  · cases h
  rename_i kPod hko
  cases h
  have hse : ((s.setKnownPod (metaNamespaceKeyFunc newPod)
      (some { kPod with lastPodStatusUpdateSkipped := false })).knownPods key).isSome
      = (s.knownPods key).isSome := by
    rw [isSome_setKnownPod]
    split
    next hky =>
      rw [← hky, hko]
      rfl
    · rfl
  split_ifs
  · exact hse
  · rfl
  · exact hse
  · rfl

section

variable (h : s.Follows steps)
include h

theorem Follows.updateFunc (r : EnqueueReadings) (oldPod newPod : ApiPod)
    (hp : present (notificationsOf steps) (metaNamespaceKeyFunc newPod)) :
  ∃ t, s.updateFunc r oldPod newPod = some t
    ∧ t.Follows (steps ++ [.notify (.update oldPod newPod) r])
  := by
  have hk := h.known (metaNamespaceKeyFunc newPod)
  rw [hp] at hk
  cases hup : s.updateFunc r oldPod newPod with
  | none =>
    simp only [EventHandler.updateFunc] at hup
    split at hup
    next hno =>
      rw [hno] at hk
      cases hk
    · cases hup
  | some t =>
    refine ⟨t, rfl, follows_concat_notify_iff.2 ⟨?_, ?_⟩⟩
    · intro key
      rw [isSome_updateFunc hup, h.known]
      split
      next hky =>
        rw [← hky]
        exact hp
      · rfl
    · rintro ⟨⟩

theorem Follows.deleteFunc_iff (hq : s.syncPodsFromKubernetes.Consistent) (r : EnqueueReadings)
    (pod : ApiPod) (finalStateUnknown : Bool)
    (hp : present (notificationsOf steps) (metaNamespaceKeyFunc pod)) :
  (s.deleteFunc r pod finalStateUnknown).Follows
      (steps ++ [.notify (.delete pod finalStateUnknown) r])
    ↔ finalStateUnknown = false
  := by
  rw [follows_concat_notify_iff]
  cases finalStateUnknown with
  | true =>
    simp only [true_eq_false, iff_false]
    rintro ⟨hk, -⟩
    have hke := (hk (metaNamespaceKeyFunc pod)).trans (if_pos rfl)
    change (s.knownPods (metaNamespaceKeyFunc pod)).isSome = false at hke
    rw [h.known, hp] at hke
    cases hke
  | false =>
    simp only [iff_true]
    constructor
    · intro key
      rw [← h.known]
      exact isSome_setKnownPod
    · intro _
      exact queued_insert hq

theorem Follows.handle_iff (hq : s.syncPodsFromKubernetes.Consistent)
    (hv : n.isAdd = !present (notificationsOf steps) n.key) :
  (∃ t, s.handle r n = some t ∧ t.Follows (steps ++ [.notify n r]))
    ↔ n.isFinalStateUnknown = false
  := by
  cases n with
  | add pod =>
    constructor
    · intro _
      rfl
    · intro _
      exact ⟨_, rfl, h.addFunc r pod⟩
  | update oldPod newPod =>
    have hp := not_inj (y := true) hv.symm
    constructor
    · intro _
      rfl
    · intro _
      exact h.updateFunc r oldPod newPod hp
  | delete pod finalStateUnknown =>
    have hp := not_inj (y := true) hv.symm
    apply Iff.trans _ (h.deleteFunc_iff hq r pod finalStateUnknown hp)
    simp [EventHandler.handle]

theorem Follows.other (ha : ∀ n r, a ≠ .notify n r) :
  ∃ t, eventHandler.step s a = some t ∧ t.Follows (steps ++ [a])
  := by
  have hkp (t : EventHandler)
      (hk : ∀ key, (t.knownPods key).isSome = (s.knownPods key).isSome) :
      t.Follows (steps ++ [a]) := by
    constructor
    · intro key
      rw [hk, h.known, notificationsOf_concat_other ha]
    · intro n r hl
      obtain rfl : a = .notify n r := by simpa using hl
      exact absurd rfl (ha n r)
  cases a with
  | notify n r => exact absurd rfl (ha n r)
  | sync | syncStatus | deleteFromKubernetes =>
    exact ⟨_, rfl, hkp _ fun _ => rfl⟩
  | change key f =>
    refine ⟨_, rfl, hkp _ ?_⟩
    intro key'
    rw [isSome_setKnownPod]
    split
    next hky =>
      rw [← hky, Option.isSome_map]
    · rfl

end

theorem consistent_step (h : s.syncPodsFromKubernetes.Consistent)
    (hst : eventHandler.step s a = some t) :
  t.syncPodsFromKubernetes.Consistent
  := by
  cases a with
  | notify n r =>
    cases n with
    | add pod =>
      cases hst
      apply h.insert
    | update oldPod newPod =>
      simp only [eventHandler, handle, updateFunc] at hst
      split at hst
      · cases hst
      · cases hst
        split_ifs
        · apply h.insert
        · apply h.insert
        all_goals exact h
    | delete pod finalStateUnknown =>
      cases hst
      unfold deleteFunc
      split
      · exact h
      · apply h.insert
  | sync a =>
    cases hst
    apply consistent_step h
  | syncStatus | deleteFromKubernetes | change =>
    cases hst
    exact h

theorem consistent_of_run {clock : Time} (hru : eventHandler.run (init clock) steps = some s) :
  s.syncPodsFromKubernetes.Consistent
  := by
  apply eventHandler.run_induction (P := fun s => s.syncPodsFromKubernetes.Consistent)
    (Queue.Machine.consistent_init clock) _ (eventHandler.meets_true _ _) hru
  intro u a v hu _ hst
  apply consistent_step hu hst

/-- The known pods are those not notified as deleted, and the key of a deleted pod is queued or
processed, if and only if no deletion was missed. -/
theorem follows_iff (clock : Time) (steps : List HandlerStep)
    (hvalid : Valid (notificationsOf steps)) :
  (∀ before, before <+: steps →
      ∃ s, eventHandler.run (init clock) before = some s ∧ s.Follows before)
    ↔ ∀ n ∈ notificationsOf steps, n.isFinalStateUnknown = false
  := by
  induction steps using reverseRecOn with
  | nil =>
    constructor
    · rintro - n ⟨⟩
    · intro _ before hi
      obtain rfl := prefix_nil.mp hi
      refine ⟨_, rfl, fun key => rfl, ?_⟩
      rintro n r ⟨⟩
  | append_singleton steps a ih =>
    rw [forall_prefix_concat_iff]
    by_cases ha : ∃ n r, a = .notify n r
    · obtain ⟨n, r, rfl⟩ := ha
      rw [notificationsOf_concat_notify] at hvalid ⊢
      obtain ⟨hb, hn⟩ := valid_concat_iff.mp hvalid
      rw [forall_mem_append, ← ih hb]
      apply and_congr_right
      intro h
      obtain ⟨s, hru, hs⟩ := h steps (prefix_refl _)
      rw [eventHandler.run_concat hru, forall_mem_singleton]
      exact hs.handle_iff (consistent_of_run hru) hn
    · have ho (n : Notification) (r : EnqueueReadings) : a ≠ .notify n r := by
        intro heq
        exact ha ⟨n, r, heq⟩
      rw [notificationsOf_concat_other ho] at hvalid ⊢
      rw [← ih hvalid, and_iff_left_iff_imp]
      intro h
      obtain ⟨s, hru, hs⟩ := h steps (prefix_refl _)
      rw [eventHandler.run_concat hru]
      exact hs.other ho

end EventHandler

def listedPod : ApiPod :=
  { spec := {}, uid := "u", podNamespace := "default", name := "web" }

def syncedAndDeleted (finalStateUnknown : Bool) : List HandlerStep :=
  [.notify (.add listedPod) {}, .sync (.take 0 0),
    .sync (.complete 0 ⟨none, Queue.defaultRetryFunc, 0⟩ 0 0),
    .notify (.delete listedPod finalStateUnknown) {}]

theorem valid_syncedAndDeleted (finalStateUnknown : Bool) :
  Valid (notificationsOf (syncedAndDeleted finalStateUnknown))
  := by
  change Valid (([] ++ [.add listedPod]) ++ [.delete listedPod finalStateUnknown])
  rw [valid_concat_iff, valid_concat_iff]
  refine ⟨⟨?_, rfl⟩, rfl⟩
  intro before n hi
  simp at hi

theorem follows_syncedAndDeleted :
  ∃ s, eventHandler.run (.init 0) (syncedAndDeleted false) = some s
    ∧ s.Follows (syncedAndDeleted false)
  := by
  apply (EventHandler.follows_iff 0 _ (valid_syncedAndDeleted false)).mpr
  · decide
  · apply prefix_refl

theorem known_after_missed_deletion :
  Valid (notificationsOf (syncedAndDeleted true))
    ∧ ∃ s, eventHandler.run (.init 0) (syncedAndDeleted true) = some s
      ∧ present (notificationsOf (syncedAndDeleted true)) "default/web" = false
      ∧ (s.knownPods "default/web").isSome = true
      ∧ ¬ EventHandler.Queued s.syncPodsFromKubernetes "default/web"
  := by
  use valid_syncedAndDeleted true
  refine ⟨_, rfl, by decide, by decide, ?_⟩
  rintro (⟨r, hr, -⟩ | hpr)
  · cases hr
  · cases hpr

end Periapsis.Node
