import Periapsis.Foci.Step
import Mathlib.Data.List.Perm.Basic

/-!
# The phase of a pod

`phaseOf` is the phase of a pod as a function of its containers, and what `recomputePhase` computes.
-/

namespace Periapsis.Foci

open Corev1 Periapsis.Types List

variable {state : PodState} {clock : Clock} {fact : Fact}

/-- The phase as a function of what some container does. -/
def choosePhase (running creating restarting succeeded : Bool) : PodPhase :=
  if running then .running
  else if creating then .pending
  else if restarting then .running
  else if succeeded then .succeeded
  else .failed

def phaseOf (containers : List ContainerState) : PodPhase :=
  choosePhase (containers.any (·.phase = .running)) (containers.any (·.phase = .creating))
    (containers.any (·.phase = .crashLoopBackOff)) (containers.all (·.exitCode = 0))

theorem foldl_observe (flags : PhaseFlags) (containers : List ContainerState) :
  containers.foldl PhaseFlags.observe flags
    = { anyRunning := flags.anyRunning || containers.any (·.phase = .running)
        anyCreating := flags.anyCreating || containers.any (·.phase = .creating)
        anyRestarting := flags.anyRestarting || containers.any (·.phase = .crashLoopBackOff)
        allTerminated := flags.allTerminated && containers.all (·.phase = .terminated)
        allSucceeded := flags.allSucceeded
          && containers.all fun cv => cv.phase ≠ .crashLoopBackOff
            ∧ (cv.phase = .terminated → cv.exitCode = 0) }
  := by
  induction containers generalizing flags with
  | nil => simp
  | cons cv containers ih =>
    rw [foldl_cons, ih]
    cases hp : cv.phase with
    | terminated =>
      by_cases hco : cv.exitCode = 0
      all_goals simp [PhaseFlags.observe, hp, hco]
    | _ => simp [PhaseFlags.observe, hp]

theorem phase_eq_terminated {cv : ContainerState}
    (hr : cv.phase ≠ .running) (hcr : cv.phase ≠ .creating) (hca : cv.phase ≠ .crashLoopBackOff) :
  cv.phase = .terminated
  := by
  cases hp : cv.phase with
  | terminated => rfl
  | _ => contradiction

theorem computedPhase_eq_phaseOf :
  computedPhase state = phaseOf state.containers
  := by
  rw [computedPhase, foldl_observe, phaseOf, choosePhase, PhaseFlags.podPhase]
  simp only [Bool.false_or, Bool.true_and]
  refine ite_congr rfl (fun _ => rfl) fun hr => ?_
  refine ite_congr rfl (fun _ => rfl) fun hcr => ?_
  refine ite_congr rfl (fun _ => rfl) fun hca => ?_
  have hte : ∀ cv ∈ state.containers, cv.phase = .terminated := by
    simp only [any_eq_true, decide_eq_true_eq, not_exists, not_and]
      at hr hcr hca
    intro cv hcv
    apply phase_eq_terminated (hr cv hcv) (hcr cv hcv) (hca cv hcv)
  have ha : state.containers.all (·.phase = .terminated) := by
    simpa using hte
  have hsu : (state.containers.all fun cv => cv.phase ≠ .crashLoopBackOff
      ∧ (cv.phase = .terminated → cv.exitCode = 0)) = state.containers.all (·.exitCode = 0) := by
    rw [Bool.eq_iff_iff, all_eq_true, all_eq_true]
    apply forall₂_congr
    intro cv hcv
    simp [hte cv hcv]
  rw [if_pos ha, hsu]

def Coherent (state : PodState) : Prop :=
  computedPhase state = state.phase

theorem coherent_recomputePhase :
  Coherent (recomputePhase state clock).1
  := by
  rw [Coherent, recomputePhase_fst, computedPhase_eq_phaseOf, computedPhase_eq_phaseOf]

theorem coherent_newPodState (uid podNamespace name podIP : String) {pod : Pod} (clock : Clock)
    (hpo : pod.spec.containers ≠ []) :
  Coherent (newPodState uid podNamespace name podIP pod clock)
  := by
  have hcr : ∀ cv ∈ (newPodState uid podNamespace name podIP pod clock).containers,
      cv.phase = .creating := by
    intro cv hcv
    obtain ⟨cs, now, -, rfl⟩ := mem_newPodState hcv
    rfl
  have hso : (newPodState uid podNamespace name podIP pod clock).containers ≠ [] := by
    simpa [newPodState, newPodSpec] using hpo
  obtain ⟨cv, hcv⟩ := exists_mem_of_ne_nil _ hso
  rw [Coherent, computedPhase_eq_phaseOf, phaseOf, choosePhase, if_neg, if_pos]
  · rfl
  · rw [any_eq_true]
    use cv, hcv
    simpa using hcr cv hcv
  · rw [any_eq_true]
    rintro ⟨c, hc, hr⟩
    simp [hcr c hc] at hr

section Others

variable {cv cv' : ContainerState} {others : List ContainerState}

theorem phaseOf_perm {containers : List ContainerState} (h : containers.Perm containers') :
  phaseOf containers = phaseOf containers'
  := by
  simp only [phaseOf, h.any_eq, h.all_eq]

theorem phaseOf_cons :
  phaseOf (cv :: others)
    = choosePhase (cv.phase = .running || others.any (·.phase = .running))
        (cv.phase = .creating || others.any (·.phase = .creating))
        (cv.phase = .crashLoopBackOff || others.any (·.phase = .crashLoopBackOff))
        (cv.exitCode = 0 && others.all (·.exitCode = 0))
  := rfl

theorem phaseOf_cons_congr (hp : cv'.phase = cv.phase)
    (hco : cv.phase = .terminated → (cv'.exitCode = 0 ↔ cv.exitCode = 0)) :
  phaseOf (cv' :: others) = phaseOf (cv :: others)
  := by
  rw [phaseOf_cons, phaseOf_cons, hp]
  cases hcv : cv.phase with
  | terminated => rw [decide_eq_decide.2 (hco hcv)]
  | _ => simp [choosePhase]

def Masked (others : List ContainerState) : Prop :=
  ∃ other ∈ others, other.phase ≠ .terminated ∨ other.exitCode ≠ 0

theorem masked_iff :
  Masked others
    ↔ others.any (·.phase = .running) ∨ others.any (·.phase = .creating)
      ∨ others.any (·.phase = .crashLoopBackOff) ∨ others.all (·.exitCode = 0) = false
  := by
  simp only [Masked, any_eq_true, all_eq_false, decide_eq_true_eq, ← exists_or,
    ← and_or_left]
  apply exists_congr
  intro other
  apply and_congr_right
  intro _
  cases other.phase with
  | _ => simp

theorem phaseOf_cons_terminated (hp : cv.phase = .terminated) (hph : cv'.phase = .terminated) :
  phaseOf (cv' :: others) = phaseOf (cv :: others)
    ↔ (cv.exitCode = 0 ↔ cv'.exitCode = 0) ∨ Masked others
  := by
  have hf : ∀ running creating restarting succeeded zero zero' : Bool,
      choosePhase running creating restarting (zero' && succeeded)
        = choosePhase running creating restarting (zero && succeeded)
      ↔ (zero ↔ zero') ∨ running ∨ creating ∨ restarting
        ∨ succeeded = false := by decide
  rw [phaseOf_cons, phaseOf_cons, hp, hph, masked_iff]
  simpa using hf (others.any (·.phase = .running)) (others.any (·.phase = .creating))
    (others.any (·.phase = .crashLoopBackOff)) (others.all (·.exitCode = 0))
    (cv.exitCode = 0) (cv'.exitCode = 0)

theorem phaseOf_cons_creating (hp : cv.phase = .terminated ∨ cv.phase = .crashLoopBackOff)
    (hph : cv'.phase = .creating) :
  phaseOf (cv' :: others) = phaseOf (cv :: others)
    ↔ ∃ other ∈ others, other.phase = .running ∨ other.phase = .creating
  := by
  have hf : ∀ running creating restarting restarting' succeeded succeeded' : Bool,
      choosePhase running true restarting' succeeded'
        = choosePhase running creating restarting succeeded
      ↔ running ∨ creating := by decide
  have ho : (∃ other ∈ others, other.phase = .running ∨ other.phase = .creating)
      ↔ others.any (·.phase = .running) ∨ others.any (·.phase = .creating) := by
    simp only [any_eq_true, decide_eq_true_eq, ← exists_or, ← and_or_left]
  rw [phaseOf_cons, phaseOf_cons, hph, ho]
  rcases hp with hp | hp
  all_goals
    rw [hp]
    apply hf

end Others

/-- The exit code with which a poll ends the container. -/
def polledExit (state : PodState) (cv : ContainerState) (f : ContainerStateFact) : Option Int32 :=
  match f.state with
  | .running => none
  | .creating => none
  | .failed => if shouldRestart state.spec.restartPolicy f.exitCode then none else some f.exitCode
  | .exited => if state.spec.restartPolicy = .always then none else some f.exitCode
  | _ => if cv.restarting then none else if cv.seenRunning then some 0 else none

def LateExit (cv : ContainerState) (others : List ContainerState) (code : Int32) : Prop :=
  cv.phase = .terminated → (cv.exitCode = 0 ↔ code = 0) ∨ Masked others

def PhaseSafeAt (state : PodState) (cv : ContainerState) (others : List ContainerState) :
    Fact → Prop
  | .containerState f => ∀ code, polledExit state cv f = some code → LateExit cv others code
  | .exit f =>
    if cv.seenRunning then f.willRestart = false → LateExit cv others f.exitCode
    else cv.phase = .creating
      ∨ ∃ other ∈ others, other.phase = .running ∨ other.phase = .creating
  | _ => True

def PhaseSafe (state : PodState) (input : Fact × Clock) : Prop :=
  state.uid = "" ∨ ∀ idx touch, touched state input.2 input.1 = some (idx, touch) →
    PhaseSafeAt state (state.container idx) (state.containers.eraseIdx idx) input.1

def Touch.KeepsPhase (cv : ContainerState) (others : List ContainerState) (touch : Touch) : Prop :=
  touch.recompute = true ∨ phaseOf (touch.container :: others) = phaseOf (cv :: others)

section Handlers

variable {cv cv' : ContainerState} {others : List ContainerState} {effects : List Effect}

theorem keepsPhase_of_eq (hp : cv'.phase = cv.phase) (hco : cv'.exitCode = cv.exitCode) :
  Touch.KeepsPhase cv others ⟨cv', effects, recompute⟩
  := by
  right
  apply phaseOf_cons_congr hp
  intro _
  rw [hco]

theorem keepsPhase_settle (hp : cv'.phase ≠ .terminated) :
  Touch.KeepsPhase cv others (.settle cv.phase cv' effects)
  := by
  by_cases hsa : cv.phase = cv'.phase
  · right
    apply phaseOf_cons_congr hsa.symm
    intro hte
    rw [hsa] at hte
    contradiction
  · left
    simpa [Touch.settle] using hsa

theorem keepsPhase_settle_terminated (hp : cv'.phase = .terminated) :
  Touch.KeepsPhase cv others (.settle cv.phase cv' effects) ↔ LateExit cv others cv'.exitCode
  := by
  by_cases hsa : cv.phase = .terminated
  · have hq : (Touch.settle cv.phase cv' effects).recompute = false := by
      simp [Touch.settle, hsa, hp]
    rw [Touch.KeepsPhase, hq, LateExit, ← phaseOf_cons_terminated hsa hp]
    simp [hsa, Touch.settle]
  · have hre : (Touch.settle cv.phase cv' effects).recompute := by
      simp [Touch.settle, hsa, hp]
    simp [Touch.KeepsPhase, hre, LateExit, hsa]

theorem keepsPhase_settleUnit (hp : cv'.phase ≠ .terminated) :
  Touch.KeepsPhase cv others (.settleUnit cv.phase cv' effects)
  := by
  have hsl : Touch.KeepsPhase cv others (.settle cv.phase cv' effects) := keepsPhase_settle hp
  rcases hsl with hre | hk
  · left
    simp only [Touch.settle, decide_eq_true_eq] at hre
    simp [Touch.settleUnit, hre]
  · right
    exact hk

theorem unitTouch_keepsPhase :
  (unitTouch state f cv.name clock cv).KeepsPhase cv others
  := by
  unfold unitTouch
  split
  case h_2 =>
    dsimp only
    split
    · exact keepsPhase_settleUnit (by simp [ContainerState.bumpRestart])
    · exact keepsPhase_settleUnit (by simp)
  case h_1 | h_3 | h_4 | h_5 => exact keepsPhase_settleUnit (by simp)
  all_goals exact keepsPhase_of_eq rfl rfl

variable {P : Prop} {Q : Int32 → Prop}

theorem iff_forall_none (h : P) :
  P ↔ ∀ code, none = some code → Q code
  := by
  simp [h]

theorem iff_forall_some (h : P ↔ Q c) :
  P ↔ ∀ code, some c = some code → Q code
  := by
  simp [h]

theorem pollTouch_keepsPhase :
  (pollTouch state f clock cv).KeepsPhase cv others
    ↔ ∀ code, polledExit state cv f = some code → LateExit cv others code
  := by
  unfold pollTouch polledExit
  cases f.state with
  | running =>
    apply iff_forall_none
    apply keepsPhase_settle
    split
    all_goals simp
  | creating =>
    apply iff_forall_none
    apply keepsPhase_settle
    simp
  | unset | unknown =>
    dsimp only
    split
    · apply iff_forall_none
      exact keepsPhase_of_eq rfl rfl
    · split
      · apply iff_forall_some
        exact keepsPhase_settle_terminated rfl
      · apply iff_forall_none
        exact keepsPhase_of_eq rfl rfl
  | _ =>
    dsimp only
    split
    · apply iff_forall_none
      apply keepsPhase_settle
      simp [restartUnlessRestarting_phase]
    · apply iff_forall_some
      exact keepsPhase_settle_terminated rfl

theorem keepsPhase_leave_creating (hp : cv.phase ≠ .running) (hph : cv'.phase = .creating)
    (hco : cv'.exitCode = cv.exitCode) :
  Touch.KeepsPhase cv others (.leave cv' effects)
    ↔ cv.phase = .creating
      ∨ ∃ other ∈ others, other.phase = .running ∨ other.phase = .creating
  := by
  by_cases hcr : cv.phase = .creating
  · simp only [hcr, true_or, iff_true]
    exact keepsPhase_of_eq (hph.trans hcr.symm) hco
  · have hen : cv.phase = .terminated ∨ cv.phase = .crashLoopBackOff := by
      cases hcv : cv.phase with
      | terminated => exact .inl rfl
      | crashLoopBackOff => exact .inr rfl
      | _ => contradiction
    rw [← phaseOf_cons_creating hen hph]
    simp [Touch.KeepsPhase, Touch.leave, hcr]

/-- An exit shows in the phase only if it is recomputed, or if the container had ended with another
exit code, or was never seen running. -/
theorem exitTouch_keepsPhase (hs : cv.phase = .running → cv.seenRunning) :
  (exitTouch state f cv).KeepsPhase cv others ↔ PhaseSafeAt state cv others (.exit f)
  := by
  unfold exitTouch PhaseSafeAt
  cases hcv : cv.seenRunning with
  | true =>
    simp only [Bool.not_true, Bool.false_eq_true, if_false, if_true]
    cases f.willRestart with
    | true =>
      simp only [if_true, reduceCtorEq, false_implies, iff_true]
      apply keepsPhase_settle
      simp [ContainerState.bumpRestart]
    | false =>
      simp only [Bool.false_eq_true, if_false, forall_const]
      exact keepsPhase_settle_terminated rfl
  | false =>
    refine keepsPhase_leave_creating ?_ rfl rfl
    intro hr
    simp [hs hr] at hcv

def Seen (cv : ContainerState) : Prop :=
  cv.phase = .running → cv.seenRunning = true

theorem probeTouch_keepsPhase :
  (probeTouch state f cv).KeepsPhase cv others
  := by
  apply keepsPhase_of_eq
  all_goals split <;> rfl

end Handlers

variable {touch : Touch}

section

variable (h : touched state clock fact = some (idx, touch))
include h

theorem touched_seen (hcv : Seen (state.container idx)) :
  Seen touch.container
  := by
  cases touched_made h with
  | started => exact fun _ => rfl
  | restarted _ _ hc _ _ =>
    subst hc
    exact fun hp => nomatch hp
  | unmoved _ hc _ => exact fun hp => hc.seenRunning (hcv (hc.phase hp))
  | reset => exact hcv

theorem touched_keepsPhase (hcv : Seen (state.container idx)) (others : List ContainerState) :
  touch.KeepsPhase (state.container idx) others
    ↔ PhaseSafeAt state (state.container idx) others fact
  := by
  cases touched_handles h with
  | unit f => exact iff_of_true unitTouch_keepsPhase trivial
  | containerState f => apply pollTouch_keepsPhase
  | exit f => apply exitTouch_keepsPhase hcv
  | probe f => exact iff_of_true probeTouch_keepsPhase trivial
  | _ => exact iff_of_true (keepsPhase_of_eq rfl rfl) trivial

theorem coherent_conclude (hst : Coherent state) :
  Coherent (conclude state clock idx touch).1
    ↔ touch.KeepsPhase (state.container idx) (state.containers.eraseIdx idx)
  := by
  obtain ⟨hlt, hi⟩ := container_of_touched h
  have hol : phaseOf (state.container idx :: state.containers.eraseIdx idx) = state.phase := by
    rw [← hst, computedPhase_eq_phaseOf, hi]
    apply phaseOf_perm
    apply getElem_cons_eraseIdx_perm
  have hne : phaseOf (state.containers.set idx touch.container)
      = phaseOf (touch.container :: state.containers.eraseIdx idx) := by
    apply phaseOf_perm
    apply set_perm_cons_eraseIdx hlt
  rw [Touch.KeepsPhase, hol, ← hne, Coherent, computedPhase_eq_phaseOf, conclude_containers,
    conclude_fst]
  cases touch.recompute with
  | true => simp [computedPhase_eq_phaseOf]
  | false => simp

end

theorem coherent_step (hst : Coherent state) (hs : ∀ cv ∈ state.containers, Seen cv)
    (hei : fact.isEvict = false) :
  Coherent (reduce state fact clock).1 ↔ PhaseSafe state (fact, clock)
  := by
  by_cases hu : state.uid = ""
  · rw [reduce_untracked hu]
    exact iff_of_true hst (.inl hu)
  have hsf : PhaseSafe state (fact, clock) ↔ ∀ idx touch,
      touched state clock fact = some (idx, touch) →
        PhaseSafeAt state (state.container idx) (state.containers.eraseIdx idx) fact := by
    simp [PhaseSafe, hu]
  rw [hsf]
  have hse := reduce_step state fact clock
  generalize reduce state fact clock = next at hse ⊢
  cases hse with
  | ignored hn =>
    apply iff_of_true hst
    intro idx touch ht
    rw [(hn hu).1] at ht
    cases ht
  | @touched idx touch ht =>
    obtain ⟨hlt, hi⟩ := container_of_touched ht
    have hcv : Seen (state.container idx) := by
      rw [hi]
      apply hs _ (getElem_mem hlt)
    rw [coherent_conclude ht hst, touched_keepsPhase ht hcv]
    constructor
    · intro h idx' touch' hto
      rw [ht] at hto
      cases hto
      exact h
    · intro h
      apply h idx touch ht
  | synced hpo =>
    apply iff_of_true coherent_recomputePhase
    intro idx touch ht
    rw [touched_of_pod hpo] at ht
    cases ht
  | evicted hev => simp [hei] at hev

theorem seen_step (hs : ∀ cv ∈ state.containers, Seen cv) :
  ∀ cv ∈ (reduce state fact clock).1.containers, Seen cv
  := by
  have hse := reduce_step state fact clock
  generalize reduce state fact clock = next at hse ⊢
  cases hse with
  | ignored => apply hs
  | @touched idx touch ht =>
    obtain ⟨hlt, hi⟩ := container_of_touched ht
    rw [conclude_fst]
    apply PodState.forall_mem_setContainer hs
    apply touched_seen ht
    rw [hi]
    apply hs _ (getElem_mem hlt)
  | synced =>
    intro cv hcv
    rcases mem_syncSpec hcv with ⟨cs, now, -, rfl⟩ | ⟨old, hol, image, rfl⟩
    · exact fun h => nomatch h
    · apply hs old hol
  | evicted =>
    intro cv hcv
    cases hcv

/-- Before an eviction, a run from the state of a new pod with a container passes through
coherent states only exactly when all its facts are safe. -/
theorem coherent_iff_phaseSafe (uid podNamespace name podIP : String) (pod : Pod) (clock : Clock)
    (inputs : List (Fact × Clock)) (hpod : pod.spec.containers ≠ [])
    (hinputs : ∀ input ∈ inputs, input.1.isEvict = false) :
  (∀ pre, pre <+: inputs →
      Coherent (reducer.final (newPodState uid podNamespace name podIP pod clock) pre))
    ↔ reducer.Meets PhaseSafe (newPodState uid podNamespace name podIP pod clock) inputs
  := by
  apply reducer.forall_final_iff_meets (I := fun state => ∀ cv ∈ state.containers, Seen cv)
    (D := fun input => input.1.isEvict = false)
  · intro cv hcv
    obtain ⟨cs, now, -, rfl⟩ := mem_newPodState hcv
    exact fun h => nomatch h
  · apply coherent_newPodState uid podNamespace name podIP clock hpod
  · intro state input _ hs
    apply seen_step hs
  · intro state input hei hs hst
    apply coherent_step hst hs hei
  · apply hinputs

theorem coherent_iff_phaseSafe_failed :
  let s := newPodState "u" "default" "job" "" ⟨.never, [{ name := "a" }]⟩ {}
  let inputs : List (Fact × Clock) :=
    [(.containerState ⟨"u", "a", .running, 0⟩, {}), (.containerState ⟨"u", "a", .failed, 1⟩, {})]
  (∀ pre, pre <+: inputs → Coherent (reducer.final s pre)) ↔ reducer.Meets PhaseSafe s inputs
  := by
  apply coherent_iff_phaseSafe "u" "default" "job" "" _ {}
  · simp
  · simp [Fact.isEvict]

theorem not_coherent_collected :
  ¬ Coherent (reducer.final (newPodState "u" "default" "job" "" ⟨.never, [{ name := "a" }]⟩ {})
    [(.containerState ⟨"u", "a", .running, 0⟩, {}), (.containerState ⟨"u", "a", .failed, 1⟩, {}),
      (.containerState ⟨"u", "a", .unknown, 0⟩, {})])
  := by
  unfold Coherent
  decide

end Periapsis.Foci
