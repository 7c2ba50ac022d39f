import Periapsis.Foci.Phase
import Periapsis.Foci.Representation

/-!
# A poll of a running pod

A poll of a pod reaches the reducer as one fact for each container, in the order of the containers.
-/

namespace Periapsis.Foci

open Corev1 Periapsis.Types Perigeos List PodState

structure Report where
  state : MachineState
  exitCode : Int32
  deriving DecidableEq

def Report.fact (r : Report) (uid name : String) : Fact :=
  .containerState ⟨uid, name, r.state, r.exitCode⟩

def Report.phase (r : Report) (policy : RestartPolicy) : ContainerPhase :=
  match r.state with
  | .running => .running
  | .creating => .creating
  | .failed => if shouldRestart policy r.exitCode then .crashLoopBackOff else .terminated
  | .exited => if policy = .always then .crashLoopBackOff else .terminated
  | _ => .terminated

def Report.code (r : Report) : Int32 :=
  match r.state with
  | .failed => r.exitCode
  | .exited => r.exitCode
  | _ => 0

def Report.Succeeds (r : Report) (policy : RestartPolicy) : Prop :=
  r.phase policy = .terminated ∧ r.code = 0

def pollInputs (uid : String) (report : String → Report) (clock : String → Clock)
    (names : List String) : List (Fact × Clock) :=
  names.map fun name => ((report name).fact uid name, clock name)

variable {policy : RestartPolicy}

theorem shouldRestart_iff {exitCode : Int32} :
  shouldRestart policy exitCode
    ↔ policy = .always ∨ policy = .onFailure ∧ exitCode ≠ 0
  := by
  cases policy with
  | onFailure =>
    have h : shouldRestart .onFailure exitCode ↔ exitCode ≠ 0 := decide_eq_true_iff
    simpa using h
  | _ => simp [shouldRestart]

variable {r : Report}

theorem Report.phase_eq_crashLoopBackOff :
  r.phase policy = .crashLoopBackOff
    ↔ r.state = .failed ∧ shouldRestart policy r.exitCode
      ∨ r.state = .exited ∧ policy = .always
  := by
  unfold Report.phase
  split <;> simp_all

theorem Report.phase_eq_terminated :
  r.phase policy = .terminated
    ↔ r.state ≠ .running ∧ r.state ≠ .creating ∧ ¬ r.phase policy = .crashLoopBackOff
  := by
  unfold Report.phase
  split <;> simp_all

structure ContainerState.Up (cv : ContainerState) : Prop where
  running : cv.phase = .running
  seen : cv.seenRunning = true
  quiet : cv.restarting = false

structure ContainerState.Reported (policy : RestartPolicy) (r : Report) (cv : ContainerState) :
    Prop where
  phase : cv.phase = r.phase policy
  code : cv.phase = .terminated → cv.exitCode = r.code

section Touches

variable {state : PodState} {cv : ContainerState} {clock : Clock}

theorem pollTouch_reported (hcv : cv.Up) (state : PodState) (clock : Clock) (r : Report)
    (uid : String) :
  (pollTouch state ⟨uid, cv.name, r.state, r.exitCode⟩ clock cv).container.Reported
    state.spec.restartPolicy r
  := by
  unfold pollTouch
  cases hs : r.state with
  | running =>
    dsimp only [Touch.settle]
    split
    all_goals exact ⟨by simp [Report.phase, hs], by simp⟩
  | creating => exact ⟨by simp [Report.phase, hs, Touch.settle], by simp [Touch.settle]⟩
  | unset | unknown =>
    rw [hcv.quiet, hcv.seen]
    constructor
    · simp [Report.phase, hs, Touch.settle]
    · simp [Report.code, hs, Touch.settle]
  | _ =>
    dsimp only [Touch.settle]
    split
    next hr =>
      constructor
      · simp [Report.phase, hs, hr, restartUnlessRestarting_phase]
      · simp [restartUnlessRestarting_phase]
    next hr =>
      exact ⟨by simp [Report.phase, hs, hr], by simp [Report.code, hs]⟩

variable {effects : List Effect}

theorem Events.restartsOf (h : Events state effects) (name : String) :
  restartsOf name effects = []
  := by
  rw [Foci.restartsOf, h.restarts]
  rfl

theorem restartsOf_restartUnlessRestarting (hq : cv.restarting = false) (name : String) :
  restartsOf name ((restartUnlessRestarting state name cv).2 ++ effects) ≠ []
  := by
  simp [restartUnlessRestarting, hq, restartsOf, restartEffect, Effect.restart]

theorem pollTouch_reported_restarts (hcv : cv.Up) (uid : String) :
  restartsOf cv.name (pollTouch state ⟨uid, cv.name, r.state, r.exitCode⟩ clock cv).effects ≠ []
    ↔ r.phase state.spec.restartPolicy = .crashLoopBackOff
  := by
  have hev : ∀ {events : List Effect}, Events state events →
      ¬ restartsOf cv.name events ≠ [] := fun h => not_not_intro (h.restartsOf _)
  unfold pollTouch Report.phase
  cases r.state with
  | failed =>
    dsimp only [Touch.settle]
    split
    · apply iff_of_true _ rfl
      apply restartsOf_restartUnlessRestarting
      apply hcv.quiet
    · apply iff_of_false _ (by simp)
      exact hev (.ite events_failedEvent events_nil)
  | exited =>
    dsimp only [Touch.settle]
    split
    · apply iff_of_true _ rfl
      apply restartsOf_restartUnlessRestarting
      apply hcv.quiet
    · apply iff_of_false _ (by simp)
      exact hev (.ite (.ite events_eventEffect events_failedEvent) events_nil)
  | unset | unknown =>
    rw [hcv.quiet, hcv.seen]
    exact iff_of_false (hev events_nil) (by simp)
  | _ => exact iff_of_false (hev events_nil) (by simp)

end Touches

/-- All containers of the pod were seen running, and none is being restarted. -/
structure AllRunning (pod : Pod) (state : PodState) : Prop where
  tracked : state.uid ≠ ""
  policy : state.spec.restartPolicy = pod.spec.restartPolicy
  names : state.containerNames = pod.containerNames
  phase : state.phase = .running
  containers : ∀ cv ∈ state.containers, cv.Up

structure Polling (policy : RestartPolicy) (report : String → Report) (todo : List String)
    (state : PodState) : Prop where
  tracked : state.uid ≠ ""
  policy_eq : state.spec.restartPolicy = policy
  coherent : Coherent state
  seen : ∀ cv ∈ state.containers, Seen cv
  waiting : ∀ name ∈ todo, ∃ cv, state.lookup name = some cv ∧ cv.Up
  reported : ∀ name cv, state.lookup name = some cv → name ∉ todo →
    cv.Reported policy (report name)

section Poll

variable {pod : Pod} {state : PodState} {report : String → Report}

theorem AllRunning.polling (h : AllRunning pod state) (hpo : pod.containerNames ≠ [])
    (report : String → Report) :
  Polling pod.spec.restartPolicy report pod.containerNames state
  := by
  refine ⟨h.tracked, h.policy, ?_, ?_, ?_, ?_⟩
  · have hso : state.containers ≠ [] := by
      intro hni
      apply hpo
      rw [← h.names, containerNames, hni]
      rfl
    obtain ⟨cv, hcv⟩ := exists_mem_of_ne_nil _ hso
    rw [Coherent, computedPhase_eq_phaseOf, phaseOf, choosePhase, if_pos, h.phase]
    rw [any_eq_true]
    use cv, hcv
    simpa using (h.containers cv hcv).running
  · intro cv hcv _
    apply (h.containers cv hcv).seen
  · intro name hn
    rw [← h.names] at hn
    obtain ⟨cv, hcv, -, hl⟩ := exists_lookup hn
    exact ⟨cv, hl, h.containers cv hcv⟩
  · intro name cv hl hn
    exfalso
    apply hn
    rw [← h.names]
    obtain ⟨idx, hf, rfl⟩ := find_of_lookup hl
    rw [← (container_of_find hf).2]
    apply mem_containerNames (container_mem_of_find hf)

theorem Polling.touched {name : String} {todo : List String}
    (h : Polling policy report (name :: todo) state) (uid : String) (clock : Clock) :
  ∃ idx, (state.container idx).name = name ∧ (state.container idx).Up
    ∧ touched state clock ((report name).fact uid name)
      = some (idx, pollTouch state ⟨uid, name, (report name).state, (report name).exitCode⟩ clock
          (state.container idx))
  := by
  obtain ⟨cv, hl, hup⟩ := h.waiting name mem_cons_self
  obtain ⟨idx, hf, rfl⟩ := find_of_lookup hl
  use idx, (container_of_find hf).2, hup
  simp [Foci.touched, Report.fact, handlerOf, hf]

variable {todo : List String} {name : String}

theorem Polling.step (hn : name ∉ todo) (h : Polling policy report (name :: todo) state)
    (uid : String) (clock : Clock) :
  Polling policy report todo (reduce state ((report name).fact uid name) clock).1
  := by
  have hse : ∀ cv ∈ (reduce state ((report name).fact uid name) clock).1.containers, Seen cv :=
    seen_step h.seen
  obtain ⟨idx, rfl, hup, ht⟩ := h.touched uid clock
  rw [reduce_touched h.tracked ht] at hse ⊢
  have hre := pollTouch_reported hup state clock (report (state.container idx).name) uid
  rw [h.policy_eq] at hre
  refine ⟨?_, ?_, ?_, hse, ?_, ?_⟩
  · rw [conclude_fst]
    apply h.tracked
  · rw [conclude_fst]
    apply h.policy_eq
  · apply (coherent_conclude ht h.coherent).2
    apply (touched_keepsPhase ht (fun _ => hup.seen) _).2
    intro code _ hte
    rw [hup.running] at hte
    cases hte
  · intro other ho
    obtain ⟨cv, hl, hcv⟩ := h.waiting other (mem_cons_of_mem _ ho)
    use cv
    rw [lookup_conclude ht, if_neg]
    · exact ⟨hl, hcv⟩
    · rintro rfl
      exact hn ho
  · intro other cv hl ho
    rw [lookup_conclude ht] at hl
    split at hl
    next heq =>
      cases hl
      rw [heq]
      exact hre
    next hne =>
      apply h.reported other cv hl
      simp [hne, ho]

theorem Polling.step_restarts (h : Polling policy report (name :: todo) state) (uid : String)
    (clock : Clock) (other : String) :
  restartsOf other (reduce state ((report name).fact uid name) clock).2 ≠ []
    ↔ other = name ∧ (report name).phase policy = .crashLoopBackOff
  := by
  obtain ⟨idx, rfl, hup, ht⟩ := h.touched uid clock
  rw [reduce_touched h.tracked ht, restartsOf, conclude_restarts, ← restartsOf]
  by_cases ho : other = (state.container idx).name
  · subst ho
    rw [pollTouch_reported_restarts hup, h.policy_eq]
    simp
  · rw [(touched_lawful ht).restartsOf_ne (Ne.symm ho)]
    simp [ho]

theorem Polling.step_names (h : Polling policy report (name :: todo) state) (uid : String)
    (clock : Clock) :
  (reduce state ((report name).fact uid name) clock).1.containerNames = state.containerNames
  := by
  obtain ⟨idx, rfl, hup, ht⟩ := h.touched uid clock
  rw [reduce_touched h.tracked ht, conclude_fst, ← names_of_touched ht]
  rfl

theorem Polling.run (hto : todo.Nodup) (h : Polling policy report todo state) (uid : String)
    (clock : String → Clock) :
  Polling policy report [] (reducer.final state (pollInputs uid report clock todo))
    ∧ (reducer.final state (pollInputs uid report clock todo)).containerNames
      = state.containerNames
    ∧ ∀ name, restartsOf name (reducer.outputs state (pollInputs uid report clock todo)) ≠ []
        ↔ name ∈ todo ∧ (report name).phase policy = .crashLoopBackOff
  := by
  induction todo generalizing state with
  | nil =>
    use h, rfl
    simp [pollInputs, restartsOf]
  | cons name todo ih =>
    obtain ⟨hn, hto⟩ := nodup_cons.1 hto
    obtain ⟨hp, hna, hrs⟩ := ih hto (h.step hn uid (clock name))
    use hp, hna.trans (h.step_names uid (clock name))
    intro other
    rw [pollInputs, map_cons, reducer.outputs_cons, restartsOf_append, ne_eq,
      append_eq_nil_iff, not_and_or]
    apply (or_congr (h.step_restarts uid (clock name) other) (hrs other)).trans
    rw [mem_cons, or_and_right]
    apply or_congr_left
    apply and_congr_right
    rintro rfl
    rfl

end Poll

section Ending

variable {containers : List ContainerState}

theorem all_terminated_iff :
  (∀ cv ∈ containers, cv.phase = .terminated)
    ↔ containers.any (·.phase = .running) = false ∧ containers.any (·.phase = .creating) = false
      ∧ containers.any (·.phase = .crashLoopBackOff) = false
  := by
  simp only [any_eq_false, decide_eq_true_eq]
  constructor
  · intro h
    refine ⟨?_, ?_, ?_⟩
    all_goals
      intro cv hcv
      rw [h cv hcv]
      simp
  · rintro ⟨hru, hc, hcr⟩ cv hcv
    apply phase_eq_terminated (hru cv hcv) (hc cv hcv) (hcr cv hcv)

theorem phaseOf_eq_succeeded :
  phaseOf containers = .succeeded
    ↔ ∀ cv ∈ containers, cv.phase = .terminated ∧ cv.exitCode = 0
  := by
  have hfl : ∀ running creating restarting succeeded : Bool,
      choosePhase running creating restarting succeeded = .succeeded
        ↔ (running = false ∧ creating = false ∧ restarting = false) ∧ succeeded := by
    decide
  rw [phaseOf, hfl, ← all_terminated_iff, all_eq_true]
  simp only [decide_eq_true_eq, ← forall_and]

theorem phaseOf_eq_failed :
  phaseOf containers = .failed
    ↔ (∀ cv ∈ containers, cv.phase = .terminated) ∧ phaseOf containers ≠ .succeeded
  := by
  have hfl : ∀ running creating restarting succeeded : Bool,
      choosePhase running creating restarting succeeded = .failed
        ↔ (running = false ∧ creating = false ∧ restarting = false)
          ∧ choosePhase running creating restarting succeeded ≠ .succeeded := by
    decide
  rw [phaseOf, hfl, ← all_terminated_iff]

end Ending

section Ended

variable {pod : Pod} {state : PodState} {report : String → Report}

theorem lookup_of_mem (hno : state.containerNames.Nodup) (hcv : cv ∈ state.containers) :
  state.lookup cv.name = some cv
  := by
  obtain ⟨cv', hc, hn, hl⟩ := exists_lookup (mem_containerNames hcv)
  rw [hl, inj_on_of_nodup_map hno hc hcv hn]

theorem Polling.forall_mem_iff (h : Polling policy report [] state)
    (hno : state.containerNames.Nodup) {P : ContainerState → Prop} {Q : Report → Prop}
    (hi : ∀ cv r, cv.Reported policy r → (P cv ↔ Q r)) :
  (∀ cv ∈ state.containers, P cv) ↔ ∀ name ∈ state.containerNames, Q (report name)
  := by
  constructor
  · intro ha name hn
    obtain ⟨cv, hcv, rfl, hl⟩ := exists_lookup hn
    apply (hi cv _ (h.reported _ cv hl not_mem_nil)).1
    apply ha cv hcv
  · intro ha cv hcv
    have hre := h.reported _ cv (lookup_of_mem hno hcv) not_mem_nil
    apply (hi cv _ hre).2
    apply ha _ (mem_containerNames hcv)

theorem poll_restarts (h : AllRunning pod state) (hna : pod.containerNames.Nodup)
    (uid : String) (clock : String → Clock) (name : String) :
  restartsOf name (reducer.outputs state (pollInputs uid report clock pod.containerNames)) ≠ []
    ↔ name ∈ pod.containerNames
      ∧ (report name).phase pod.spec.restartPolicy = .crashLoopBackOff
  := by
  by_cases hpo : pod.containerNames = []
  · simp [hpo, pollInputs, restartsOf]
  · apply ((h.polling hpo report).run hna uid clock).2.2

theorem poll_phase (h : AllRunning pod state) (hna : pod.containerNames.Nodup)
    (hpo : pod.containerNames ≠ []) (report : String → Report) (uid : String)
    (clock : String → Clock) :
  let final := reducer.final state (pollInputs uid report clock pod.containerNames)
  (final.phase = .succeeded
      ↔ ∀ name ∈ pod.containerNames, (report name).Succeeds pod.spec.restartPolicy)
    ∧ (final.phase = .failed
      ↔ (∀ name ∈ pod.containerNames,
          (report name).phase pod.spec.restartPolicy = .terminated)
        ∧ ¬ ∀ name ∈ pod.containerNames, (report name).Succeeds pod.spec.restartPolicy)
  := by
  obtain ⟨hp, hk, -⟩ := (h.polling hpo report).run hna uid clock
  intro final
  have hk : final.containerNames = pod.containerNames := hk.trans h.names
  have hno : final.containerNames.Nodup := by
    rw [hk]
    exact hna
  have hph : final.phase = phaseOf final.containers := by
    rw [← hp.coherent, computedPhase_eq_phaseOf]
  have hsu : phaseOf final.containers = .succeeded
      ↔ ∀ name ∈ pod.containerNames, (report name).Succeeds pod.spec.restartPolicy := by
    rw [phaseOf_eq_succeeded, ← hk]
    apply hp.forall_mem_iff hno (Q := fun r => r.Succeeds pod.spec.restartPolicy)
    intro cv r hcv
    rw [Report.Succeeds, ← hcv.phase]
    apply and_congr_right
    intro hte
    rw [hcv.code hte]
  have hen : (∀ cv ∈ final.containers, cv.phase = .terminated)
      ↔ ∀ name ∈ pod.containerNames,
        (report name).phase pod.spec.restartPolicy = .terminated := by
    rw [← hk]
    apply hp.forall_mem_iff hno
      (Q := fun r => r.phase pod.spec.restartPolicy = .terminated)
    intro cv r hcv
    rw [hcv.phase]
  constructor
  · rw [hph, hsu]
  · rw [hph, phaseOf_eq_failed, ne_eq, hsu, hen]

end Ended

end Periapsis.Foci
