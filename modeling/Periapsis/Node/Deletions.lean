import Periapsis.Node.PodStore

/-!
# The pods being deleted

Marking a pod counts it as being deleted, and removing a marked pod with `unregister` takes it out
of the count.
-/

namespace Periapsis.Node

open Transition Int32 Multiset PodState

def PodState.deletion (ps : PodState) : Int :=
  if ps.deleting then 1 else 0

namespace PodStore

variable {s t : PodStore} {uid : String} {ps : PodState}

def deletingPods (s : PodStore) : Nat :=
  s.pods.entries.countP fun e => e.2.deleting

theorem deletingPods_eq_total :
  (s.deletingPods : Int) = total deletion s.pods
  := by
  unfold deletingPods total
  induction s.pods.entries using Multiset.induction with
  | empty => rfl
  | cons e es ih =>
    rw [countP_cons, map_cons, sum_cons, Nat.cast_add, ih, add_comm]
    congr 1
    unfold deletion
    split
    all_goals rfl

theorem deletingPods_eq_zero :
  s.deletingPods = 0 ↔ ∀ uid, s.isDeleting uid = false
  := by
  unfold deletingPods isDeleting
  rw [countP_eq_zero]
  constructor
  · intro h uid
    split
    · rfl
    next ps hps =>
      simpa using h ⟨uid, ps⟩ ((mem_entries_iff _ _).2 hps)
  · rintro h ⟨uid, ps⟩ hme
    have hu := h uid
    rw [(mem_entries_iff _ _).1 hme] at hu
    simpa using hu

theorem share_deletion :
  share deletion s.pods uid = if s.isDeleting uid then 1 else 0
  := by
  unfold share isDeleting
  cases s.pods.lookup uid with
  | _ => rfl

/-- The pod loses its mark, and the counter is left alone. -/
structure Clears (s : PodStore) (uid : String) (t : PodStore) : Prop where
  isDeleting : ∀ uid', t.isDeleting uid' = if uid' = uid then false else s.isDeleting uid'
  pods : (t.deletingPods : Int) = s.deletingPods - if s.isDeleting uid then 1 else 0
  count : t.deletingCount = s.deletingCount

theorem clears_put (h : ps.deleting = false) :
  Clears s uid (s.put uid ps)
  := by
  constructor
  · intro uid'
    unfold isDeleting
    split_ifs with heq
    · rw [heq, put, Finmap.lookup_insert]
      exact h
    · rw [lookup_put_of_ne _ _ _ heq]
  · rw [deletingPods_eq_total, deletingPods_eq_total, put, total_insert, share_deletion,
      deletion, h]
    simp
  · rfl

theorem clears_drop (s : PodStore) (uid : String) (ps : PodState) :
  Clears s uid (s.drop uid ps)
  := by
  constructor
  · intro uid'
    unfold isDeleting
    split_ifs with heq
    · rw [heq, drop, Finmap.lookup_erase]
    · rw [lookup_drop_of_ne _ _ _ heq]
  · rw [deletingPods_eq_total, deletingPods_eq_total, drop, total_erase, share_deletion]
  · rfl

theorem clears_of_lookup_eq_none (h : s.pods.lookup uid = none) :
  Clears s uid s
  := by
  have hu : s.isDeleting uid = false := by
    rw [isDeleting, h]
  constructor
  · intro uid'
    split_ifs with heq
    · rw [heq, hu]
    · rfl
  · simp [hu]
  · rfl

theorem clears_evictGhost (s : PodStore) (uid : String) :
  Clears s uid (s.evictGhost uid)
  := by
  unfold evictGhost
  split
  next hn =>
    apply clears_of_lookup_eq_none hn
  next ps _ =>
    obtain ⟨hm, hp, hc⟩ := clears_drop s uid ps
    exact ⟨hm, hp, hc⟩

theorem clears_purgeEntry (acc : PodStore × Int64 × Int64) (uid : String) :
  Clears acc.1 uid (purgeEntry acc uid).1
  := by
  unfold purgeEntry
  dsimp only
  split
  next hn =>
    apply clears_of_lookup_eq_none hn
  · apply clears_drop

theorem clears_foldl {β : Type*} {step : PodStore × Int64 × Int64 → β → PodStore × Int64 × Int64}
    (key : β → String) (hst : ∀ acc b, Clears acc.1 (key b) (step acc b).1)
    (bs : List β) (acc : PodStore × Int64 × Int64) :
  (bs.foldl step acc).1.deletingCount = acc.1.deletingCount
    ∧ (bs.foldl step acc).1.deletingPods ≤ acc.1.deletingPods
    ∧ ((bs.foldl step acc).1.deletingPods = acc.1.deletingPods
      ↔ ∀ b ∈ bs, acc.1.isDeleting (key b) = false)
  := by
  induction bs generalizing acc with
  | nil => simp
  | cons b bs ih =>
    have hb := hst acc b
    obtain ⟨hc, hle, hi⟩ := ih (step acc b)
    have hp := hb.pods
    rw [List.foldl_cons, List.forall_mem_cons]
    refine ⟨hc.trans hb.count, ?_, ?_⟩
    · split_ifs at hp
      all_goals omega
    · cases hk : acc.1.isDeleting (key b) with
      | true =>
        rw [hk, if_pos rfl] at hp
        simp
        omega
      | false =>
        have hsm : (step acc b).1.deletingPods = acc.1.deletingPods := by
          simpa [hk] using hp
        have hma (uid' : String) :
            (step acc b).1.isDeleting uid' = acc.1.isDeleting uid' := by
          rw [hb.isDeleting]
          split_ifs with heq
          · rw [heq, hk]
          · rfl
        simp only [hma, hsm] at hi
        simp [hi]

/-- The counter is right. -/
def Counted (s : PodStore) : Prop :=
  s.deletingCount.toInt = s.deletingPods

def KeepsCount (s : PodStore) : StoreOp → Prop
  | .registerPending uid _ _ => s.isDeleting uid = false
  | .registerHydrated uid _ _ => s.isDeleting uid = false
  | .registerHydratedBatch entries => ∀ e ∈ entries, s.isDeleting e.uid = false
  | .evictGhost uid => s.isDeleting uid = false
  | .purgeHydrated staleUIDs => ∀ uid ∈ staleUIDs, s.isDeleting uid = false
  | .markDeleting uid =>
    s.hasPod uid = true → s.isDeleting uid = false → s.deletingPods + 1 < 2 ^ 31
  | _ => True

section

variable (hs : s.Counted)
include hs

theorem Counted.iff_of_count_eq (h : t.deletingCount = s.deletingCount) :
  t.Counted ↔ t.deletingPods = s.deletingPods
  := by
  unfold Counted at *
  rw [h, hs]
  omega

theorem Counted.iff_of_clears (h : Clears s uid t) :
  t.Counted ↔ s.isDeleting uid = false
  := by
  rw [hs.iff_of_count_eq h.count]
  have hp := h.pods
  cases hu : s.isDeleting uid with
  | true =>
    rw [hu, if_pos rfl] at hp
    simp
    omega
  | false => simpa [hu] using hp

theorem Counted.unregister (uid podNamespace name : String) (deletedAt now : Time) :
  (s.unregister uid podNamespace name deletedAt now).Counted
  := by
  unfold PodStore.unregister
  split
  · exact hs
  next ps hps =>
    have hp := (clears_drop s uid ps).pods
    have hu : s.isDeleting uid = ps.deleting := by
      rw [isDeleting, hps]
    have hlt := s.deletingCount.toInt_lt
    rw [hu] at hp
    unfold Counted at *
    change (if ps.deleting then s.deletingCount + -1 else s.deletingCount).toInt
      = ((s.drop uid ps).deletingPods : Int)
    split_ifs with hd
    · rw [if_pos hd] at hp
      rw [toInt_add, hs, hp]
      apply Int.bmod_eq_of_le
      · change _ ≤ (s.deletingPods : Int) + -1
        omega
      · change (s.deletingPods : Int) + -1 < _
        omega
    · rw [hs, hp, if_neg hd, sub_zero]

theorem Counted.markDeleting_iff (uid : String) :
  (s.markDeleting uid).Counted ↔ s.KeepsCount (.markDeleting uid)
  := by
  change _ ↔ (s.hasPod uid → s.isDeleting uid = false → s.deletingPods + 1 < 2 ^ 31)
  rw [markDeleting, hasPod, isDeleting]
  cases hps : s.pods.lookup uid with
  | none => simp [hs]
  | some ps =>
    dsimp only
    split_ifs with hd
    · simp [hs, hd]
    · have hp : ((s.update uid fun ps => { ps with deleting := true }).deletingPods : Int)
          = s.deletingPods + 1 := by
        rw [deletingPods_eq_total, deletingPods_eq_total, update, hps]
        rw [total_insert, share_of_lookup _ _ _ hps]
        simp [deletion, hd]
      change (s.deletingCount + 1).toInt
        = ((s.update uid fun ps => { ps with deleting := true }).deletingPods : Int) ↔ _
      rw [toInt_add, hs, hp, Int.bmod_def]
      have ho : toInt 1 = 1 := rfl
      simp only [Option.isSome_some, eq_false_of_ne_true hd, forall_const]
      split_ifs
      all_goals omega

theorem Counted.update (h : ∀ ps, (f ps).deleting = ps.deleting) :
  (s.update uid f).Counted
  := by
  unfold PodStore.update
  split
  · exact hs
  next ps hps =>
    have hp : total deletion (s.pods.insert uid (f ps))
        = total deletion s.pods := by
      rw [total_insert, share_of_lookup _ _ _ hps, deletion, deletion, h,
        sub_add_cancel]
    unfold Counted at *
    rw [hs, deletingPods_eq_total, deletingPods_eq_total]
    exact hp.symm

theorem Counted.apply_local (op : StoreOp) (h : op.isLocal) :
  (s.apply op).Counted
  := by
  obtain ⟨uid, f, cpu, mem, heq, hf⟩ := s.apply_local op h
  rw [heq]
  apply Counted.update (s := s.use cpu mem) hs hf.deleting

theorem Counted.apply_iff (op : StoreOp) :
  (s.apply op).Counted ↔ s.KeepsCount op
  := by
  cases op with
  | registerPending uid | registerHydrated uid =>
    exact hs.iff_of_clears (t := s.put uid _) (clears_put rfl)
  | registerHydratedBatch entries =>
    have hen (acc : PodStore × Int64 × Int64) (e : HydratedEntry) :
        Clears acc.1 e.uid (hydrateEntry acc e).1 := clears_put rfl
    obtain ⟨hc, -, hi⟩ := clears_foldl HydratedEntry.uid hen entries (s, 0, 0)
    exact (hs.iff_of_count_eq hc).trans hi
  | evictGhost uid => exact hs.iff_of_clears (clears_evictGhost s uid)
  | purgeHydrated staleUIDs =>
    obtain ⟨hc, -, hi⟩ := clears_foldl id clears_purgeEntry staleUIDs (s, 0, 0)
    exact (hs.iff_of_count_eq hc).trans hi
  | unregister uid podNamespace name deletedAt now =>
    exact iff_of_true (hs.unregister uid podNamespace name deletedAt now) trivial
  | markDeleting uid => exact hs.markDeleting_iff uid
  | _ => exact iff_of_true (hs.apply_local _ rfl) trivial

end

end PodStore

open PodStore

/-- The count is the number of registered pods being deleted if and only if marked pods lose their
marks only by `unregister` and the count does not overflow. -/
theorem deletingCount_eq_iff (ops : List StoreOp) :
  (∀ done, done <+: ops → ∀ s, podStore.run newPodStore done = some s →
      s.deletingCount.toInt = s.deletingPods
        ∧ ((∀ uid, s.isDeleting uid = false) → s.deletionsInProgress = false))
    ↔ podStore.Meets KeepsCount newPodStore ops
  := by
  have hr (s : PodStore) (hs : s.Counted) (hn : ∀ uid, s.isDeleting uid = false) :
      s.deletionsInProgress = false := by
    rw [Counted, deletingPods_eq_zero.mpr hn] at hs
    unfold deletionsInProgress
    rw [decide_eq_false_iff_not, lt_iff_toInt_lt, hs]
    decide
  have hsa : newPodStore.Counted := rfl
  have hst (s : PodStore) (op : StoreOp) (hs : s.Counted) (_ : True) :
      (∀ t, podStore.step s op = some t → t.Counted) ↔ s.KeepsCount op := by
    rw [← hs.apply_iff op]
    simp [podStore]
  rw [← podStore.forall_run_iff_meets hsa hst (podStore.meets_true _ ops)]
  constructor
  · intro h done hdo s hs
    apply (h done hdo s hs).1
  · intro h done hdo s hs
    exact ⟨h done hdo s hs, hr s (h done hdo s hs)⟩

theorem deletingCount_after_eviction :
  ∃ s, podStore.run newPodStore
      [.registerPending "u" { spec := {}, uid := "u", podNamespace := "default", name := "web" } 0,
        .markDeleting "u", .evictGhost "u"] = some s
    ∧ s.pods = ∅ ∧ s.deletingPods = 0 ∧ s.deletingCount = 1 ∧ s.deletionsInProgress = true
  := by
  exact ⟨_, rfl, rfl, rfl, rfl, rfl⟩

end Periapsis.Node
