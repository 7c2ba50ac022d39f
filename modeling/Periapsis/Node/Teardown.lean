import Periapsis.Node.Lifecycle

/-!
# What is started after a pod was deleted

Once `DeletePod` has returned, nothing starts a machine for the pod until it is created again, under
two conditions (`no_runMachine_after_deletePod`).
-/

namespace Periapsis.Node

open Corev1 Perigeos Option Function Watched List

/-- The restart attempt is past its launch. -/
def RestartStep.launched : RestartStep → Bool
  | .backoff | .stopMachine | .resetUnit | .checkMachined | .prepare | .clearStopMachine
  | .clearResetUnit | .runMachine => false
  | _ => true

structure Watched.Idle (m : Watched) : Prop where
  untracked : m.restartCount = none
  launched : ∀ step, m.restarting = some step → step.launched = true

namespace Watched

variable {m m' : Watched}

theorem Idle.of_eq (hm : m.Idle) (hco : m'.restartCount = m.restartCount)
    (hr : m'.restarting = m.restarting) :
  m'.Idle
  := by
  constructor
  · rw [hco, hm.untracked]
  · rw [hr]
    apply hm.launched

theorem exit_frame {m : Watched} {exitCode : Int32} :
  (m.exit exitCode).restartCount = m.restartCount
    ∧ (m.exit exitCode).restarting = m.restarting
  := by
  unfold exit
  split
  all_goals exact ⟨rfl, rfl⟩

theorem resetUnit_restartCount (m : Watched) (ok : Bool) :
  (m.resetUnit ok).restartCount = m.restartCount
  := by
  unfold resetUnit
  split
  all_goals rfl

theorem stopMachine_frame (m : Watched) (outcome : StopOutcome) :
  (m.stopMachine outcome).restartCount = m.restartCount
    ∧ (m.stopMachine outcome).restarting = m.restarting
  := by
  cases outcome with
  | error => exact ⟨rfl, rfl⟩
  | stopped exitCode reset =>
    obtain ⟨hco, hr⟩ := exit_frame
    constructor
    · apply Eq.trans (resetUnit_restartCount _ reset) hco
    · apply Eq.trans (resetUnit_frame _ reset).1 hr

variable {ok : Bool}

theorem runMachine_restartCount :
  (m.runMachine ok outcome).1.restartCount = m.restartCount
  := by
  unfold runMachine
  dsimp only
  split
  all_goals apply (stopMachine_frame m outcome).1

variable {outcome : StopOutcome} {step : RestartStep} {polling : Bool}

theorem restartContainer_restartCount (h : m.restartContainer polling ok outcome step = some m') :
  m'.restartCount = m.restartCount
  := by
  cases step with
  | stopMachine | clearStopMachine | failedStopMachine | unsharedStopMachine =>
    cases h
    apply (stopMachine_frame m outcome).1
  | resetUnit | clearResetUnit | failedResetUnit =>
    cases h
    apply resetUnit_restartCount
  | runMachine =>
    cases h
    apply runMachine_restartCount
  | waitForContainer =>
    simp only [restartContainer] at h
    split at h
    · split at h
      · cases h
        rfl
      · cases h
    · cases h
      rfl
  | markRunning =>
    simp only [restartContainer] at h
    split at h
    · cases h
    · cases h
      rfl
  | backoff | checkMachined | prepare | makeSharedMounts | postStart | finish =>
    cases h
    rfl

theorem restartContainer_launched {next : RestartStep} (hst : step.launched)
    (h : m.restartContainer polling ok outcome step = some m') (hn : m'.restarting = some next) :
  next.launched
  := by
  cases step with
  | waitForContainer =>
    simp only [restartContainer] at h
    split at h
    · split at h
      · cases h
        cases hn
        rfl
      · cases h
    · cases h
      cases hn
      rfl
  | markRunning =>
    simp only [restartContainer] at h
    split at h
    · cases h
    · cases h
      cases hn
      rfl
  | makeSharedMounts =>
    cases h
    cases hn
    cases ok with
    | _ => rfl
  | postStart | failedStopMachine | failedResetUnit | unsharedStopMachine =>
    cases h
    cases hn
    rfl
  | finish =>
    cases h
    cases hn
  | _ => cases hst

theorem Idle.restartContainer (hm : m.Idle) (hst : step.launched)
    (h : m.restartContainer polling ok outcome step = some m') :
  m'.Idle
  := by
  constructor
  · rw [restartContainer_restartCount h, hm.untracked]
  · intro next hn
    apply restartContainer_launched hst h hn

theorem maybeRestart_of_untracked (hm : m.restartCount = none) :
  m.maybeRestart deleting = m
  := by
  unfold maybeRestart bumpBackoff
  rw [hm]
  simp

theorem launchContainer_frame {isInit : Bool} {result : LaunchResult}
    (h : m.launchContainer isInit polling ok outcome step = some (m', result)) :
  m'.restartCount = m.restartCount ∧ m'.restarting = m.restarting
  := by
  unfold launchContainer at h
  split at h
  · split at h
    · split at h
      · cases h
      · cases h
      all_goals
        cases h
        exact ⟨rfl, rfl⟩
    · cases h
      exact ⟨rfl, rfl⟩
  · cases h
    exact ⟨rfl, rfl⟩
  · obtain ⟨launched, hl, heq⟩ := map_eq_some_iff.1 h
    cases heq
    constructor
    · rw [← restartContainer_restartCount hl]
    · rfl

end Watched

variable {policy : RestartPolicy} {deleting unhealthy : Bool} {m m' : Watched}

theorem checkState_idle {state : MachineState} (hm : m.Idle)
    (h : checkState policy deleting unhealthy state m = (m', verdict)) :
  m'.Idle
  := by
  have hse : { m with seenRunning := true }.Idle := hm.of_eq rfl rfl
  cases state with
  | running =>
    cases h
    split
    · rw [maybeRestart_of_untracked hse.untracked]
      apply hse
    · apply hse
  | failed | exited =>
    simp only [checkState, maybeRestart_of_untracked hm.untracked] at h
    split at h
    all_goals
      cases h
      apply hm
  | _ =>
    cases h
    apply hm

theorem checkContainer_idle {entry : Option PodMetadata} (hm : m.Idle)
    (h : checkContainer policy deleting unhealthy entry m = (m', verdict)) :
  m'.Idle
  := by
  unfold checkContainer at h
  dsimp only at h
  split at h
  · cases h
    apply hm
  · split at h
    · split at h
      · apply checkState_idle _ h
        exact hm.of_eq rfl rfl
      · cases h
        apply hm
    · apply checkState_idle hm h

def Watch.Idle (w : Watch) : Prop :=
  ∀ name, (w.containers name).Idle

namespace Watch

variable {pod : Pod} {w w' : Watch}

theorem Idle.set (hw : w.Idle) {name : String} {m : Watched} (hm : m.Idle) :
  (w.set name m).Idle
  := by
  intro name'
  rw [containers_set]
  split
  · apply hm
  · apply hw

theorem Idle.step (hw : w.Idle) (h : (batchWatcher pod).step w a = some w') :
  w'.Idle
  := by
  cases a with
  | pollBegin =>
    obtain ⟨-, checks, -, rfl⟩ := pollBegin_eq_some h
    apply hw
  | probe name =>
    obtain ⟨p, -, -, -, rfl⟩ := probe_eq_some h
    apply hw.set
    rw [maybeRestart_of_untracked (hw name).untracked]
    apply hw
  | check unhealthy =>
    obtain ⟨p, name, todo, m, verdict, -, -, hch, rfl⟩ := check_eq_some h
    apply hw.set (checkContainer_idle (hw name) hch)
  | pollEnd reset =>
    obtain ⟨p, -, -, ⟨-, -, rfl⟩ | rfl⟩ := pollEnd_eq_some h
    · intro name
      dsimp only
      split
      · apply (hw name).of_eq (resetUnit_restartCount _ _) (resetUnit_frame _ _).1
      · apply hw
    · apply hw
  | handleUnitEvent name subState =>
    obtain ⟨-, rfl | ⟨state, seen, -, rfl⟩⟩ := handleUnitEvent_eq_some h
    · apply hw
    · apply hw.set
      exact (hw name).of_eq rfl rfl
  | restart name ok outcome =>
    obtain ⟨step, m, hst, hm, rfl⟩ := restart_eq_some h
    apply hw.set
    apply (hw name).restartContainer ((hw name).launched step hst) hm
  | start name =>
    obtain ⟨-, rfl⟩ := start_eq_some h
    apply hw.set
    exact (hw name).of_eq rfl rfl
  | exit name exitCode =>
    obtain ⟨-, rfl⟩ := exit_eq_some h
    apply hw.set
    exact (hw name).of_eq rfl rfl
  | collect name =>
    obtain ⟨-, rfl⟩ := collect_eq_some h
    apply hw.set
    exact (hw name).of_eq rfl rfl

end Watch

/-- The deletion is past its wait. -/
def DeleteStep.waited : DeleteStep → Bool
  | .markDeleting | .cancelInFlight | .wait _ => false
  | _ => true

namespace Lifecycle

variable {pod : ApiPod} {sidecar : String → Bool} {s t : Lifecycle}

/-- A goroutine has still to promote the pod, mark it as failed or give it up; afterwards it only
tracks the pod and closes its handle. -/
def Unsettled (s : Lifecycle) (handle : CreationHandle) : Prop :=
  ∃ c, s.creations handle = some c ∧ c.step ≠ .finish

structure Follows (s t : Lifecycle) : Prop where
  registered : t.registered = s.registered
  creations : t.creations = s.creations
  deletions : t.deletions = s.deletions
  returned : t.returned = s.returned
  idle : s.registered = false → s.watch.Idle → t.watch.Idle

theorem Follows.refl (s : Lifecycle) :
  s.Follows s
  := ⟨rfl, rfl, rfl, rfl, fun _ hi => hi⟩

theorem follows_initRestartState (pod : ApiPod) (s : Lifecycle) :
  s.Follows (s.initRestartState pod) ∧ (s.initRestartState pod).inFlight = s.inFlight
  := by
  unfold initRestartState
  cases hre : s.registered with
  | false => exact ⟨.refl s, rfl⟩
  | true =>
    refine ⟨⟨rfl, rfl, rfl, rfl, ?_⟩, rfl⟩
    rw [hre]
    nofun

theorem follows_markFailed {s : Lifecycle} :
  s.Follows s.markFailed ∧ s.markFailed.inFlight = s.inFlight
  := by
  unfold markFailed
  split
  · exact ⟨⟨rfl, rfl, rfl, rfl, fun _ hi => hi⟩, rfl⟩
  · exact ⟨.refl s, rfl⟩

theorem follows_promoteRunning {s : Lifecycle} :
  s.Follows s.promoteRunning
    ∧ s.promoteRunning.inFlight = if s.registered = true then none else s.inFlight
  := by
  unfold promoteRunning
  split
  · exact ⟨⟨rfl, rfl, rfl, rfl, fun _ hi => hi⟩, rfl⟩
  · exact ⟨.refl s, rfl⟩

variable {name : String}

theorem follows_setContainer (h : (s.watch.containers name).Idle → m.Idle) :
  s.Follows { s with watch := s.watch.set name m }
  := by
  refine ⟨rfl, rfl, rfl, rfl, ?_⟩
  intro _ hi
  apply hi.set (h (hi name))

/-- A step of the goroutine but its last: the lifecycle becomes `u`, and the goroutine goes on with
`step`. -/
structure GoesOn (s : Lifecycle) (c : Creating) (u : Lifecycle) (step : CreateStep) : Prop where
  unsettled : c.step ≠ .finish
  follows : s.Follows u
  inFlight : u.inFlight
    = if c.step = .promoteRunning ∧ s.registered = true then none else s.inFlight
  promoted : c.step = .promoteRunning → step = .finish

variable {ok skip : Bool} {outcome : StopOutcome}

theorem create_eq_some {handle : CreationHandle}
    (h : s.create pod sidecar handle ok skip outcome = some t) :
  ∃ c, s.creations handle = some c
    ∧ (c.step = .finish ∧ t = { s with creations := update s.creations handle none }
      ∨ ∃ u step, t = u.goto handle c step ∧ GoesOn s c u step)
  := by
  unfold create at h
  split at h
  · cases h
  rename_i c hc
  use c, hc
  have hg {step : CreateStep} (hwo : c.step ≠ .finish) (hp : c.step ≠ .promoteRunning)
      (ht : some (s.goto handle c step) = some t) :
      ∃ u step, t = u.goto handle c step ∧ GoesOn s c u step := by
    cases ht
    exact ⟨s, step, rfl, hwo, .refl s, (if_neg fun h => hp h.1).symm, fun h => absurd h hp⟩
  cases hst : c.step with
  | acquire | backoff =>
    rw [hst] at h hg
    dsimp only at h
    right
    split at h
    · apply hg nofun nofun h
    · split at h
      · apply hg nofun nofun h
      · cases h
  | network | populateEnvironmentVariables =>
    rw [hst] at h hg
    right
    apply hg nofun nofun h
  | initRestartState =>
    rw [hst] at h
    cases h
    obtain ⟨hfo, hf⟩ := follows_initRestartState pod s
    right
    exact ⟨_, _, rfl, by simp [hst], hfo, by simp [hst, hf], by simp [hst]⟩
  | next todo =>
    rw [hst] at h hg
    right
    cases todo with
    | _ => apply hg nofun nofun h
  | launchContainer l todo step =>
    rw [hst] at h
    obtain ⟨⟨m, result⟩, hm, rfl⟩ := map_eq_some_iff.1 h
    obtain ⟨hco, hr⟩ := launchContainer_frame hm
    right
    refine ⟨_, _, rfl, by simp [hst], follows_setContainer ?_, by simp [hst], by simp [hst]⟩
    intro hi
    apply hi.of_eq hco hr
  | failed =>
    rw [hst] at h hg
    dsimp only at h
    right
    split at h
    · cases h
      obtain ⟨hfo, hf⟩ := follows_markFailed
      exact ⟨_, _, rfl, by simp [hst], hfo, by simp [hst, hf], by simp [hst]⟩
    · apply hg nofun nofun h
  | promoteRunning =>
    rw [hst] at h
    cases h
    obtain ⟨hfo, hf⟩ := follows_promoteRunning
    right
    exact ⟨_, _, rfl, by simp [hst], hfo, by simp [hst, hf], fun _ => rfl⟩
  | finish =>
    rw [hst] at h
    left
    exact ⟨rfl, (some.inj h).symm⟩

theorem GoesOn.inFlight_or {step : CreateStep} (h : GoesOn s c u step) :
  u.inFlight = s.inFlight ∨ u.inFlight = none ∧ step = .finish
  := by
  by_cases hp : c.step = .promoteRunning ∧ s.registered
  · right
    exact ⟨h.inFlight.trans (if_pos hp), h.promoted hp.1⟩
  · left
    apply h.inFlight.trans (if_neg hp)

theorem watchStep_eq_some (h : s.watchStep pod a = some t) :
  ∃ watch, t = { s with watch := watch } ∧ (s.watch.Idle → watch.Idle)
  := by
  obtain ⟨watch, hwt, rfl⟩ := map_eq_some_iff.1 h
  split
  · use watch, rfl
    intro hi
    apply hi.step hwt
  · refine ⟨_, rfl, ?_⟩
    intro hi name
    apply hi.step hwt name

/-- While the pod is not created during a deletion: one goroutine is in flight at most, a deletion
waits for it, and nothing is launched once the pod was deleted. -/
structure Orderly (s : Lifecycle) : Prop where
  owned : ∀ handle, s.Unsettled handle → s.inFlight = some handle
  absent : s.registered = false → s.inFlight = none
  waiting : ∀ id handle, s.deletions id = some (.wait handle)
    → ∀ handle', s.inFlight = some handle' → handle' = handle
  waited : ∀ id step, s.deletions id = some step → step.waited = true
    → ∀ handle, ¬ s.Unsettled handle
  gone : s.returned = true → s.registered = false ∧ s.watch.Idle

theorem Orderly.of_calmer (hs : s.Orderly) (hre : t.registered = s.registered)
    (hd : t.deletions = s.deletions) (hrt : t.returned = s.returned)
    (hwo : ∀ handle, t.Unsettled handle → s.Unsettled handle)
    (hf : t.inFlight = s.inFlight ∨ t.inFlight = none ∧ ∀ handle, ¬ t.Unsettled handle)
    (hi : s.registered = false → s.watch.Idle → t.watch.Idle) :
  t.Orderly
  := by
  constructor
  · intro handle hh
    rcases hf with hf | ⟨-, hno⟩
    · rw [hf]
      apply hs.owned handle (hwo handle hh)
    · exact absurd hh (hno handle)
  · intro hab
    rcases hf with hf | ⟨hf, -⟩
    · rw [hf]
      apply hs.absent (hre.symm.trans hab)
    · apply hf
  · intro id handle hid han hha
    rw [hd] at hid
    rcases hf with hf | ⟨hf, -⟩
    · apply hs.waiting id handle hid han (hf.symm.trans hha)
    · rw [hf] at hha
      cases hha
  · intro id step hid hst handle hh
    rw [hd] at hid
    apply hs.waited id step hid hst handle (hwo handle hh)
  · intro hgn
    obtain ⟨hab, hwt⟩ := hs.gone (hrt.symm.trans hgn)
    exact ⟨hre.trans hab, hi hab hwt⟩

theorem Orderly.setContainer (hs : s.Orderly)
    (hco : m.restartCount = (s.watch.containers name).restartCount)
    (hr : m.restarting = (s.watch.containers name).restarting) :
  Orderly { s with watch := s.watch.set name m }
  := by
  refine hs.of_calmer rfl rfl rfl (fun _ hwo => hwo) (.inl rfl) ?_
  intro _ hi
  apply hi.set
  apply (hi name).of_eq hco hr

theorem Orderly.proceed (hs : s.Orderly) (id : Nat) (next : Option DeleteStep)
    (hwi : ∀ handle, next = some (.wait handle)
      → ∀ han, s.inFlight = some han → han = handle)
    (hwa : ∀ step, next = some step → step.waited
      → ∀ handle, ¬ s.Unsettled handle) :
  (s.proceed id next).Orderly
  := by
  constructor
  · apply hs.owned
  · apply hs.absent
  · intro id' handle hi
    change update s.deletions id next id' = _ at hi
    rw [update_apply] at hi
    split at hi
    · apply hwi handle hi
    · apply hs.waiting id' handle hi
  · intro id' step hi
    change update s.deletions id next id' = _ at hi
    rw [update_apply] at hi
    split at hi
    · apply hwa step hi
    · apply hs.waited id' step hi
  · apply hs.gone

theorem Orderly.proceed_of_waited (hs : s.Orderly) {id : Nat} (step next : DeleteStep)
    (hid : s.deletions id = some step) (hst : step.waited) (hn : next.waited) :
  (s.proceed id (some next)).Orderly
  := by
  apply hs.proceed
  · rintro handle hh
    cases hh
    cases hn
  · intro _ _ _
    apply hs.waited id step hid hst

theorem unsettled_update (handle : CreationHandle) (next : Option Creating)
    (hn : ∀ c, next = some c → c.step ≠ .finish → s.Unsettled handle)
    (ht : t.creations = update s.creations handle next) (han : CreationHandle)
    (h : t.Unsettled han) :
  s.Unsettled han
  := by
  obtain ⟨c, hc, hst⟩ := h
  rw [ht, update_apply] at hc
  split at hc
  next heq =>
    rw [heq]
    apply hn c hc hst
  · exact ⟨c, hc, hst⟩

theorem Orderly.create (hs : s.Orderly) {handle : CreationHandle}
    (h : s.create pod sidecar handle ok skip outcome = some t) :
  t.Orderly
  := by
  obtain ⟨c, hc, ⟨-, rfl⟩ | ⟨u, step, rfl, hgo⟩⟩ := create_eq_some h
  · refine hs.of_calmer rfl rfl rfl ?_ (.inl rfl) (fun _ hi => hi)
    apply unsettled_update handle none nofun rfl
  · have hu := hgo.follows
    have hcr : (u.goto handle c step).creations
        = update s.creations handle (some { c with step := step }) := by
      rw [goto, hu.creations]
    have hcl (han : CreationHandle) :
        (u.goto handle c step).Unsettled han → s.Unsettled han := by
      apply unsettled_update handle _ _ hcr
      intro _ _ _
      exact ⟨c, hc, hgo.unsettled⟩
    refine hs.of_calmer hu.registered hu.deletions hu.returned hcl ?_ hu.idle
    apply hgo.inFlight_or.imp_right
    rintro ⟨hno, rfl⟩
    use hno
    intro han hha
    have hsa := hs.owned han (hcl han hha)
    rw [hs.owned handle ⟨c, hc, hgo.unsettled⟩] at hsa
    cases hsa
    obtain ⟨c', hc', hwr⟩ := hha
    rw [hcr, update_self] at hc'
    cases hc'
    apply hwr rfl

theorem Orderly.createPod (hs : s.Orderly)
    (hca : s.registered ∨ ∀ id, s.deletions id = none) :
  (s.createPod pod).Orderly
  := by
  unfold Lifecycle.createPod
  split
  · apply hs
  split
  · apply hs
  split
  · split
    · obtain ⟨hfo, hf⟩ := follows_initRestartState pod s
      refine hs.of_calmer hfo.registered hfo.deletions hfo.returned ?_
        (.inl hf) hfo.idle
      rintro handle ⟨c, hc, hwo⟩
      exact ⟨c, hfo.creations ▸ hc, hwo⟩
    · apply hs
  next hre =>
    have hno (id : Nat) : s.deletions id = none := by
      rcases hca with hca | hca
      · exact absurd hca hre
      · apply hca id
    constructor
    · rintro handle ⟨c, hc, hwo⟩
      change update s.creations s.handles _ handle = _ at hc
      rw [update_apply] at hc
      split at hc
      next heq =>
        rw [heq]
        rfl
      · have hf := hs.owned handle ⟨c, hc, hwo⟩
        rw [hs.absent (Bool.eq_false_of_not_eq_true hre)] at hf
        cases hf
    · nofun
    · intro id handle hid
      cases (hno id).symm.trans hid
    · intro id step hid
      cases (hno id).symm.trans hid
    · nofun

theorem orderly_unregister (id : Nat) (hwo : ∀ handle, ¬ s.Unsettled handle)
    (hca : ∀ name step, (s.watch.containers name).restarting = some step
      → step.launched) :
  Orderly { s.unregister.proceed id none with returned := true }
  := by
  constructor
  · intro handle hh
    exact absurd hh (hwo handle)
  · intro _
    rfl
  · nofun
  · intro _ _ _ _ handle hh
    exact absurd hh (hwo handle)
  · intro _
    use rfl
    intro name
    exact ⟨rfl, hca name⟩

def Careful (s : Lifecycle) : LifecycleStep → Prop
  | .createPod => s.registered = true ∨ ∀ id, s.deletions id = none
  | .delete id _ _ =>
    s.deletions id = some .unregister
      → ∀ name step, (s.watch.containers name).restarting = some step → step.launched = true
  | _ => True

theorem Orderly.markDeleting (hs : s.Orderly) :
  s.markDeleting.Orderly
  := by
  unfold Lifecycle.markDeleting
  split
  · exact hs.of_calmer rfl rfl rfl (fun _ hwo => hwo) (.inl rfl) (fun _ hi => hi)
  · apply hs

theorem unsettled_cancel (s : Lifecycle) (handle han : CreationHandle) :
  (s.cancel handle).Unsettled han ↔ s.Unsettled han
  := by
  unfold Unsettled
  change (∃ c, update s.creations handle _ han = some c ∧ _) ↔ _
  rw [update_apply]
  split
  next heq =>
    rw [heq]
    cases s.creations handle with
    | _ => simp
  · rfl

theorem Orderly.cancel (hs : s.Orderly) (handle : CreationHandle) :
  (s.cancel handle).Orderly
  := by
  refine hs.of_calmer rfl rfl rfl ?_ (.inl rfl) (fun _ hi => hi)
  intro han
  apply (unsettled_cancel s handle han).mp

theorem Orderly.delete (hs : s.Orderly) {id : Nat} {ok : Bool} {outcome : StopOutcome}
    (hca : s.Careful (.delete id ok outcome)) (h : s.delete pod id ok outcome = some t) :
  t.Orderly
  := by
  unfold Lifecycle.delete at h
  split at h
  · cases h
  · cases h
    apply hs.markDeleting.proceed id (some .cancelInFlight) nofun
    rintro step hst hwa
    cases hst
    cases hwa
  · split at h
    next handle hh =>
      cases h
      apply (hs.cancel handle).proceed
      · rintro han hw had hhn
        cases hw
        apply some.inj (hhn.symm.trans hh)
      · rintro step hst hwa
        cases hst
        cases hwa
    next hno =>
      cases h
      apply hs.proceed id (some (.stopMachine _)) nofun
      intro _ _ _ handle hh
      cases hno.symm.trans (hs.owned handle hh)
  next handle hid =>
    split at h
    · cases h
    next hdo =>
      cases h
      apply hs.proceed id (some (.stopMachine _)) nofun
      intro _ _ _ han hha
      obtain rfl := hs.waiting id handle hid han (hs.owned han hha)
      obtain ⟨c, hc, -⟩ := hha
      apply hdo
      rw [hc]
      rfl
  next hid =>
    cases h
    apply hs.proceed_of_waited (.stopMachine []) _ hid rfl rfl
  next name todo hid =>
    cases h
    obtain ⟨hco, hr⟩ := stopMachine_frame (s.watch.containers name) outcome
    have hso := hs.setContainer hco hr
    apply hso.proceed_of_waited (.stopMachine (name :: todo)) _ hid rfl rfl
  next name todo hid =>
    cases h
    have hrs := hs.setContainer (resetUnit_restartCount (s.watch.containers name) ok)
      (resetUnit_frame _ _).1
    apply hrs.proceed_of_waited (.resetUnit name todo) _ hid rfl rfl
  next hid =>
    cases h
    apply orderly_unregister id _ (hca hid)
    apply hs.waited id _ hid rfl

theorem Orderly.step (hs : s.Orderly) (hca : s.Careful a)
    (h : (lifecycle pod sidecar).step s a = some t) :
  t.Orderly
  := by
  cases a with
  | createPod =>
    cases h
    apply hs.createPod hca
  | create handle ok skip outcome => apply hs.create h
  | deletePod id =>
    simp only [lifecycle] at h
    split at h
    · cases h
    · cases h
      apply hs.proceed id (some .markDeleting) nofun
      rintro step hst hwa
      cases hst
      cases hwa
  | delete id ok outcome => apply hs.delete hca h
  | watch a =>
    obtain ⟨watch, rfl, hi⟩ := watchStep_eq_some h
    exact hs.of_calmer rfl rfl rfl (fun _ hwo => hwo) (.inl rfl) (fun _ => hi)

/-- The step starts no machine for a deleted pod. -/
def StartsNothing (s : Lifecycle) (a : LifecycleStep) : Prop :=
  s.returned = true → s.runsMachine a = false

instance (s : Lifecycle) (a : LifecycleStep) :
    Decidable (s.StartsNothing a) :=
  inferInstanceAs (Decidable (_ → _))

theorem Orderly.startsNothing (hs : s.Orderly) (a : LifecycleStep) :
  s.StartsNothing a
  := by
  intro hrt
  obtain ⟨hab, hi⟩ := hs.gone hrt
  cases a with
  | create handle ok skip outcome =>
    rw [runsMachine]
    split
    next hst =>
      obtain ⟨c, hc, hst⟩ := map_eq_some_iff.1 hst
      have hf := hs.owned handle ⟨c, hc, by rw [hst]; nofun⟩
      cases (hs.absent hab).symm.trans hf
    · rfl
  | watch a =>
    cases a with
    | restart name ok outcome =>
      apply decide_eq_false
      intro hst
      cases (hi name).launched _ hst
    | _ => rfl
  | _ => rfl

structure Quiet (s : Lifecycle) : Prop where
  creations : ∀ handle, s.creations handle = none
  deletions : ∀ id, s.deletions id = none
  inFlight : s.inFlight = none
  returned : s.returned = false

theorem Quiet.orderly (hs : s.Quiet) :
  s.Orderly
  := by
  constructor
  · rintro handle ⟨c, hc, -⟩
    cases (hs.creations handle).symm.trans hc
  · intro _
    apply hs.inFlight
  · intro id handle hid
    cases (hs.deletions id).symm.trans hid
  · intro id step hid
    cases (hs.deletions id).symm.trans hid
  · intro hrt
    cases hs.returned.symm.trans hrt

/-- If the pod is not created during a deletion, and no restart attempt is before its launch, no
machine is started between `DeletePod` and the next creation. -/
theorem no_runMachine_after_deletePod (pod : ApiPod) (sidecar : String → Bool) {s : Lifecycle}
    (hs : s.Quiet) {steps : List LifecycleStep}
    (hcareful : (lifecycle pod sidecar).Meets Careful s steps) :
  (lifecycle pod sidecar).Meets StartsNothing s steps
  := by
  apply (lifecycle pod sidecar).meets_of_invariant hs.orderly _ _ hcareful
  · intro u a v hu ha
    apply hu.step ha
  · intro u a hu _
    apply hu.startsNothing a

end Lifecycle

def newLifecycle : Lifecycle where
  watch :=
    { phase := .unset
      deleting := false
      containers := fun _ => ⟨none, none, false, none, none⟩
      prevStateMap := fun _ => none
      shared := false
      poll := none }
  registered := false
  stub := false
  inFlight := none
  creations := fun _ => none
  deletions := fun _ => none
  handles := 0
  returned := false

def oneContainerPod : ApiPod :=
  { spec := { restartPolicy := .always, containers := [{ name := "app" }] } }

def cancelledCreation : List LifecycleStep :=
  [.createPod, .deletePod 0, .delete 0 true .error, .delete 0 true .error,
    .create 0 false false .error, .create 0 false false .error, .delete 0 true .error,
    .delete 0 true .error, .delete 0 true .error, .delete 0 true .error, .delete 0 true .error,
    .watch .pollBegin]

theorem no_runMachine_after_cancelled_creation :
  ((lifecycle oneContainerPod fun _ => false).run newLifecycle cancelledCreation).any
      (fun s => s.returned) = true
    ∧ (lifecycle oneContainerPod fun _ => false).Meets Lifecycle.StartsNothing newLifecycle
        cancelledCreation
  := by
  constructor
  · decide
  · apply Lifecycle.no_runMachine_after_deletePod
    · exact ⟨fun _ => rfl, fun _ => rfl, rfl, rfl⟩
    · refine ⟨.inr fun _ => rfl, ?_⟩
      rintro _ ⟨⟩
      refine ⟨trivial, ?_⟩
      rintro _ ⟨⟩
      refine ⟨nofun, ?_⟩
      rintro _ ⟨⟩
      refine ⟨nofun, ?_⟩
      rintro _ ⟨⟩
      refine ⟨trivial, ?_⟩
      rintro _ ⟨⟩
      refine ⟨trivial, ?_⟩
      rintro _ ⟨⟩
      refine ⟨nofun, ?_⟩
      rintro _ ⟨⟩
      refine ⟨nofun, ?_⟩
      rintro _ ⟨⟩
      refine ⟨nofun, ?_⟩
      rintro _ ⟨⟩
      refine ⟨nofun, ?_⟩
      rintro _ ⟨⟩
      refine ⟨?_, fun _ _ => ⟨trivial, fun _ _ => trivial⟩⟩
      intro _ name step hst
      rcases eq_or_ne name "app" with rfl | hna
      · cases hst
      · simp only [Lifecycle.proceed, containers_set, if_neg hna] at hst
        cases hst

def sleepingRestart : List LifecycleStep :=
  flatten
    [[.createPod],
      replicate 9 (.create 0 true false .error),
      [.watch (.start "app")],
      replicate 7 (.create 0 true false .error),
      [.watch (.exit "app" 1), .watch .pollBegin, .watch (.check false), .deletePod 0],
      replicate 6 (.delete 0 true (.stopped 0 true)),
      replicate 8 (.watch (.restart "app" true .error))]

theorem runMachine_after_deletePod :
  ((lifecycle oneContainerPod fun _ => false).run newLifecycle sleepingRestart).any
      (fun s => s.returned && !s.registered && (s.watch.containers "app").unit = some .creating)
      = true
    ∧ ¬ (lifecycle oneContainerPod fun _ => false).Meets Lifecycle.StartsNothing newLifecycle
        sleepingRestart
  := by
  decide

end Periapsis.Node
