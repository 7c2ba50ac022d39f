import Periapsis.Node.Teardown

/-!
# The goroutine in flight

The store has the goroutine that creates a pod as long as the pod is in flight.
-/

namespace Periapsis.Node

open Corev1 Function

namespace Lifecycle

variable {pod : ApiPod} {sidecar : String → Bool} {s t : Lifecycle} {handle : CreationHandle}
  {c : Creating}

/-- While the pod is registered, it is in flight exactly if a goroutine that creates it has not
finished: it is there until it has closed its handle. -/
def FlagExact (s : Lifecycle) : Prop :=
  s.registered = true → (s.inFlight.isSome = true ↔ ∃ handle, (s.creations handle).isSome = true)

/-- No goroutine promotes the pod while it is registered, since it has not finished then, and none
finishes without promoting it unless another one is there. -/
def TellsStore (s : Lifecycle) : LifecycleStep → Prop
  | .create handle _ _ _ =>
    ∀ c, s.creations handle = some c → s.registered = true →
      c.step ≠ .promoteRunning
        ∧ (c.step = .finish → ∃ other, other ≠ handle ∧ (s.creations other).isSome = true)
  | _ => True

theorem FlagExact.finish_iff (hs : s.FlagExact) (hc : s.creations handle = some c) :
  FlagExact { s with creations := update s.creations handle none }
    ↔ (s.registered → ∃ other, other ≠ handle ∧ (s.creations other).isSome)
  := by
  apply imp_congr_right
  intro hr
  have hfl := (hs hr).2 ⟨handle, by simp [hc]⟩
  apply (iff_true_left hfl).trans
  apply exists_congr
  intro other
  dsimp only
  rw [update_apply]
  split
  next heq => simp [heq]
  next hne => simp [hne]

theorem FlagExact.goto_iff (hs : s.FlagExact) (hc : s.creations handle = some c)
    (hgo : GoesOn s c u step) :
  (u.goto handle c step).FlagExact ↔ (s.registered → c.step ≠ .promoteRunning)
  := by
  have hal (other : CreationHandle) :
      ((u.goto handle c step).creations other).isSome = (s.creations other).isSome := by
    change (update u.creations handle _ other).isSome = _
    rw [update_apply, hgo.follows.creations]
    split
    next heq => simp [heq, hc]
    · rfl
  unfold FlagExact
  simp only [hal]
  change (u.registered = true → (u.inFlight.isSome ↔ _)) ↔ _
  rw [hgo.follows.registered, hgo.inFlight]
  apply imp_congr_right
  intro hr
  have hfl := hs hr
  have hex : ∃ other, (s.creations other).isSome := ⟨handle, by simp [hc]⟩
  by_cases hp : c.step = .promoteRunning
  · simp [hp, hr, hex]
  · simp [hp, hfl]

theorem FlagExact.create_iff (hs : s.FlagExact) {ok skip : Bool} {outcome : StopOutcome} :
  (∀ t, s.create pod sidecar handle ok skip outcome = some t → t.FlagExact)
    ↔ s.TellsStore (.create handle ok skip outcome)
  := by
  constructor
  · intro h c hc hr
    constructor
    · intro hst
      obtain ⟨t, hcr⟩ : ∃ t, s.create pod sidecar handle ok skip outcome = some t := by
        simp [create, hc, hst]
      obtain ⟨c', hc', ⟨hfi, -⟩ | ⟨u, step, rfl, hgo⟩⟩ := create_eq_some hcr
      · cases hc.symm.trans hc'
        cases hst.symm.trans hfi
      · cases hc.symm.trans hc'
        exact (hs.goto_iff hc hgo).1 (h _ hcr) hr hst
    · intro hst
      apply (hs.finish_iff hc).1 (h _ _) hr
      simp [create, hc, hst]
  · intro hte t ht
    obtain ⟨c, hc, ⟨hst, rfl⟩ | ⟨u, step, rfl, hgo⟩⟩ := create_eq_some ht
    · exact (hs.finish_iff hc).2 fun hr => (hte c hc hr).2 hst
    · exact (hs.goto_iff hc hgo).2 fun hr => (hte c hc hr).1

theorem FlagExact.of_eq (hs : s.FlagExact) (hr : t.registered = s.registered)
    (hfl : t.inFlight = s.inFlight)
    (hcr : ∀ handle, (t.creations handle).isSome = (s.creations handle).isSome) :
  t.FlagExact
  := by
  unfold FlagExact at hs ⊢
  simpa only [hr, hfl, hcr] using hs

theorem FlagExact.createPod (hs : s.FlagExact) :
  (s.createPod pod).FlagExact
  := by
  unfold Lifecycle.createPod
  split
  · exact hs
  split
  · exact hs
  split
  · split
    · obtain ⟨hfo, hfl⟩ := follows_initRestartState pod s
      apply hs.of_eq hfo.registered hfl
      intro handle
      rw [← hfo.creations]
    · exact hs
  · intro _
    apply iff_of_true rfl
    use s.handles
    simp

theorem isSome_creations_cancel (s : Lifecycle) (handle han : CreationHandle) :
  ((s.cancel handle).creations han).isSome = (s.creations han).isSome
  := by
  unfold cancel
  dsimp only
  rw [update_apply]
  split
  next heq => simp [heq]
  · rfl

theorem FlagExact.delete (hs : s.FlagExact) {id : Nat} {ok : Bool} {outcome : StopOutcome}
    (h : s.delete pod id ok outcome = some t) :
  t.FlagExact
  := by
  unfold Lifecycle.delete at h
  split at h
  · cases h
  · cases h
    unfold markDeleting
    split
    all_goals exact hs
  · split at h
    next handle hh =>
      cases h
      refine hs.of_eq rfl rfl ?_
      exact isSome_creations_cancel s handle
    · cases h
      exact hs
  · split at h
    · cases h
    · cases h
      exact hs
  · cases h
    exact hs
  · cases h
    exact hs
  · cases h
    exact hs
  · cases h
    nofun

theorem FlagExact.step_iff (hs : s.FlagExact) (a : LifecycleStep) :
  (∀ t, (lifecycle pod sidecar).step s a = some t → t.FlagExact) ↔ s.TellsStore a
  := by
  cases a with
  | create handle ok skip outcome => exact hs.create_iff
  | createPod =>
    apply iff_of_true _ trivial
    intro t ht
    cases ht
    apply hs.createPod
  | deletePod id =>
    apply iff_of_true _ trivial
    intro t ht
    simp only [lifecycle] at ht
    split at ht
    · cases ht
    · cases ht
      exact hs
  | delete id ok outcome =>
    apply iff_of_true _ trivial
    intro t ht
    apply hs.delete ht
  | watch a =>
    apply iff_of_true _ trivial
    intro t ht
    obtain ⟨watch, rfl, -⟩ := watchStep_eq_some ht
    exact hs

/-- A registered pod is in flight exactly while a goroutine that creates it has not finished, if and
only if no goroutine promotes it, and none finishes unless another one is there. -/
theorem flagExact_iff (pod : ApiPod) (sidecar : String → Bool) {s : Lifecycle} (hs : s.FlagExact)
    (steps : List LifecycleStep) :
  (∀ before, before <+: steps → ∀ t, (lifecycle pod sidecar).run s before = some t →
      t.FlagExact)
    ↔ (lifecycle pod sidecar).Meets TellsStore s steps
  := by
  apply (lifecycle pod sidecar).forall_run_iff_meets hs _ ((lifecycle pod sidecar).meets_true _ _)
  intro u a hu _
  apply hu.step_iff

end Lifecycle

/-- Creating the pod fails in the network, the next attempt gets to the environment, and the pod is
deleted meanwhile. -/
def retriedCreation : List LifecycleStep :=
  [.createPod, .create 0 true false .error, .create 0 false false .error,
    .create 0 true false .error, .create 0 true false .error, .create 0 true false .error,
    .create 0 true false .error, .deletePod 0, .delete 0 true .error, .delete 0 true .error]

theorem flagExact_retriedCreation :
  (∃ t, (lifecycle oneContainerPod fun _ => false).run newLifecycle retriedCreation = some t
      ∧ t.registered = true ∧ t.inFlight = some 0
      ∧ t.creations 0 = some ⟨.populateEnvironmentVariables, true⟩)
    ∧ ∀ before, before <+: retriedCreation →
      ∀ t, (lifecycle oneContainerPod fun _ => false).run newLifecycle before = some t →
        t.FlagExact
  := by
  use ⟨_, rfl, rfl, rfl, rfl⟩
  have hsa : newLifecycle.FlagExact := nofun
  apply (Lifecycle.flagExact_iff oneContainerPod _ hsa retriedCreation).mpr
  refine ⟨trivial, ?_⟩
  rintro _ ⟨⟩
  iterate 6
    refine ⟨by rintro c ⟨⟩ -; simp, ?_⟩
    rintro _ ⟨⟩
  iterate 3
    refine ⟨trivial, ?_⟩
    rintro _ ⟨⟩
  trivial

def neverRestartedPod : ApiPod :=
  { spec := { restartPolicy := .never, containers := [{ name := "app" }] } }

def failedNetwork : List LifecycleStep :=
  [.createPod, .create 0 true false .error, .create 0 false false .error,
    .create 0 true false .error, .create 0 true false .error]

theorem inFlight_after_failure :
  ∃ t, (lifecycle neverRestartedPod fun _ => false).run newLifecycle failedNetwork = some t
    ∧ t.registered = true ∧ t.inFlight = some 0 ∧ t.creations 0 = none
    ∧ ¬ t.FlagExact
  := by
  refine ⟨_, rfl, rfl, rfl, rfl, ?_⟩
  intro hex
  obtain ⟨handle, hc⟩ := (hex rfl).mp rfl
  cases handle with
  | _ => cases hc

end Periapsis.Node
