import Periapsis.Foci.Restart

/-!
# Containers that run stably

A container that has run for long enough should lose its delay before the next restart.
-/

namespace Periapsis.Foci

open Periapsis.Types List PodState

variable {state : PodState} {clock : Clock} {fact : Fact} {name : String} {cv cv' : ContainerState}

/-- The container keeps its start, or it is reported running and starts now; then a poll resets its
delay if enough time has passed. -/
inductive Proceeds (name : String) (clock : Clock) (fact : Fact) (cv cv' : ContainerState) : Prop
  | kept (hstarted : cv'.lastStarted = cv.lastStarted)
      (hphase : cv'.phase = .running → cv.phase = .running) (hreports : ¬ fact.ReportsRunning name)
  | reported (hstarted : cv'.lastStarted = clock.started) (hphase : cv'.phase = .running)
      (hreports : fact.ReportsRunning name)
      (hreset : ∀ f, fact = .containerState f → clock.started ≠ 0 →
        restartBackoffReset.toInt < clock.since - clock.started →
          cv'.backoff = restartBackoffInit)

theorem touched_proceeds (h : touched state clock fact = some (idx, touch)) :
  Proceeds (state.container idx).name clock fact (state.container idx) touch.container
  := by
  cases touched_made h with
  | started hr hre _ _ =>
    refine .reported rfl rfl hr ?_
    rintro f rfl hz hlo
    apply hre ⟨hz, hlo⟩
  | restarted hr _ hc _ _ =>
    subst hc
    exact .kept rfl nofun hr
  | unmoved hr hc _ => exact .kept hc.lastStarted_eq hc.phase hr
  | reset _ _ hf =>
    subst hf
    exact .kept rfl id id

theorem reduce_proceeds (hu : state.uid ≠ "")
    (hn : (reduce state fact clock).1.lookup name = some cv') :
  (∃ cv, state.lookup name = some cv ∧ Proceeds name clock fact cv cv')
    ∨ state.lookup name = none ∧ cv'.phase ≠ .running
  := by
  have hst := reduce_step state fact clock
  generalize reduce state fact clock = next at hst hn
  cases hst with
  | ignored hig =>
    refine .inl ⟨cv', hn, .kept rfl id fun hr => ?_⟩
    exact touched_of_running hr hn (hig hu).1
  | @touched idx touch ht =>
    rw [lookup_conclude ht] at hn
    split at hn
    next hna =>
      cases hn
      subst hna
      exact .inl ⟨_, lookup_of_touched ht, touched_proceeds ht⟩
    next hna =>
      refine .inl ⟨cv', hn, .kept rfl id fun hr => ?_⟩
      exact hna (name_of_running ht hr)
  | @synced pod hpo =>
    have hna : cv'.name = name := by
      simpa using find?_some hn
    obtain ⟨i, hi, rfl⟩ := mem_mapIdx.1 (mem_of_find?_eq_some hn)
    rw [syncContainer_name] at hna
    rw [syncContainer_eq, hna]
    cases ho : state.lookup name with
    | none => exact .inr ⟨rfl, by simp [newContainerState]⟩
    | some old =>
      refine .inl ⟨old, rfl, .kept rfl id fun hr => ?_⟩
      cases fact with
      | unit | containerState => cases hpo
      | _ => exact hr
  | evicted hev => cases hn

/-- The container is in the phase `Running`. -/
def PodState.runs (state : PodState) (name : String) : Bool :=
  (state.lookup name).any (·.phase = .running)

def lastEntered (name : String) (state : PodState) (entered : Option Time) :
    List (Fact × Clock) → Option Time
  | [] => entered
  | (fact, clock) :: inputs =>
    let next := (reduce state fact clock).1
    lastEntered name next
      (if state.runs name = false ∧ next.runs name = true then some clock.started else entered)
      inputs

def StartKept (state : PodState) (input : Fact × Clock) : Prop :=
  ∀ name, input.1.ReportsRunning name → ∀ cv, state.lookup name = some cv → cv.phase = .running →
    input.2.started = cv.lastStarted ∧ cv.lastStarted ≠ 0

structure Timed (name : String) (state : PodState) (entered : Option Time) : Prop where
  started : ∀ cv, state.lookup name = some cv → cv.phase = .running →
    ∀ time, entered = some time → cv.lastStarted = time
  tracked : state.uid = "" → state.containers = []

theorem Timed.uid_ne (h : Timed name state entered) (hl : state.lookup name = some cv) :
  state.uid ≠ ""
  := by
  intro hu
  simp [PodState.lookup, h.tracked hu] at hl

theorem tracked_reduce (h : state.uid = "" → state.containers = [])
    (hn : (reduce state fact clock).1.uid = "") :
  (reduce state fact clock).1.containers = []
  := by
  by_cases hu : state.uid = ""
  · rw [reduce_untracked hu]
    exact h hu
  · have hst := reduce_step state fact clock
    generalize reduce state fact clock = next at hst hn ⊢
    cases hst with
    | touched ht =>
      rw [conclude_fst] at hn
      exact absurd hn hu
    | evicted hev => rfl
    | _ => exact absurd hn hu

theorem Timed.step (h : Timed name state entered) (hk : StartKept state (fact, clock)) :
  Timed name (reduce state fact clock).1
    (if state.runs name = false ∧ (reduce state fact clock).1.runs name then
      some clock.started else entered)
  := by
  refine ⟨?_, tracked_reduce h.tracked⟩
  intro cv' hn hph time hti
  have hu : state.uid ≠ "" := by
    intro hu
    rw [reduce_untracked hu] at hn
    exact h.uid_ne hn hu
  obtain ⟨cv, hl, hpr⟩ | ⟨-, hp⟩ := reduce_proceeds hu hn
  · have hrs : state.runs name = decide (cv.phase = .running) := by
      simp [runs, hl]
    have hrn : (reduce state fact clock).1.runs name := by
      simp [runs, hn, hph]
    rw [hrs, hrn] at hti
    cases hpr with
    | kept hs hp hr =>
      rw [hs]
      simp only [hp hph, decide_true, reduceCtorEq, false_and, if_false] at hti
      exact h.started cv hl (hp hph) time hti
    | reported hs hp hr hre =>
      rw [hs]
      by_cases hru : cv.phase = .running
      · simp only [hru, decide_true, reduceCtorEq, false_and, if_false] at hti
        rw [(hk name hr cv hl hru).1]
        exact h.started cv hl hru time hti
      · simpa [hru] using hti
  · exact absurd hph hp

structure StartsKept (name : String) (entered : Option Time) (clock : Clock) (fact : Fact)
    (cv cv' : ContainerState) : Prop where
  started : cv'.lastStarted ≠ cv.lastStarted → cv.phase ≠ .running ∧ cv'.phase = .running
  reset : ∀ f, fact = .containerState f → f.container = name → f.state = .running →
    cv.phase = .running → ∀ time, entered = some time →
      restartBackoffReset.toInt < clock.since - time → cv'.backoff = restartBackoffInit

theorem Timed.startsKept (h : Timed name state entered) (hk : StartKept state (fact, clock))
    (hl : state.lookup name = some cv) (hn : (reduce state fact clock).1.lookup name = some cv') :
  StartsKept name entered clock fact cv cv'
  := by
  obtain ⟨cv₀, hlk, hpr⟩ | ⟨hno, -⟩ := reduce_proceeds (h.uid_ne hl) hn
  · cases hl.symm.trans hlk
    cases hpr with
    | kept hs hp hr =>
      refine ⟨fun hne => absurd hs hne, ?_⟩
      rintro f rfl rfl hru
      exact absurd ⟨hru, rfl⟩ hr
    | reported hs hp hr hre =>
      constructor
      · intro hne
        refine ⟨fun hru => hne ?_, hp⟩
        rw [hs, (hk name hr cv hl hru).1]
      · rintro f rfl - - hru time hti hlo
        obtain ⟨hsm, hz⟩ := hk name hr cv hl hru
        have htm := h.started cv hl hru time hti
        rw [← htm, ← hsm] at hlo
        exact hre f rfl (hsm ▸ hz) hlo
  · rw [hno] at hl
    cases hl

/-- While the clock stands still, the start of a container changes only as it enters `Running`, and
a poll over `restartBackoffReset` later resets its delay. -/
theorem starts_kept (state : PodState) (huid : state.uid ≠ "") (inputs : List (Fact × Clock))
    (hkept : reducer.Meets StartKept state inputs) (name : String) :
  ∀ pre fact clock post, inputs = pre ++ (fact, clock) :: post →
    ∀ cv cv', (reducer.final state pre).lookup name = some cv →
      (reduce (reducer.final state pre) fact clock).1.lookup name = some cv' →
        StartsKept name (lastEntered name state none pre) clock fact cv cv'
  := by
  have hsa : Timed name state none := ⟨by simp, fun h => absurd h huid⟩
  clear huid
  generalize none = entered at hsa ⊢
  intro pre
  induction pre generalizing state inputs entered with
  | nil =>
    rintro fact clock post rfl cv cv' hl hn
    exact hsa.startsKept hkept.1 hl hn
  | cons input pre ih =>
    rintro fact clock post rfl cv cv' hl hn
    exact ih _ _ hkept.2 _ (hsa.step hkept.1) fact clock post rfl cv cv' hl hn

def restartedPod : PodState where
  uid := "u"
  containers := [{ name := "a", phase := .crashLoopBackOff, backoff := 20 * second }]

def runningAt (started since : Time) : Fact × Clock :=
  (.containerState { uid := "u", container := "a", state := .running, exitCode := 0 },
    { started := started, since := since })

theorem starts_kept_slow :
  ∃ cv, (reducer.final restartedPod [runningAt 1 1, runningAt 1 hour.toInt]).lookup "a" = some cv
    ∧ cv.backoff = restartBackoffInit
  := by
  have hm : reducer.Meets StartKept restartedPod [runningAt 1 1, runningAt 1 hour.toInt] := by
    refine ⟨?_, ?_, trivial⟩
    · rintro name ⟨-, rfl⟩ cv hl hru
      cases hl
      cases hru
    · rintro name ⟨-, rfl⟩ cv hl hru
      cases hl
      exact ⟨rfl, by decide⟩
  have h := starts_kept restartedPod (by decide) _ hm "a" [runningAt 1 1] _ _ [] rfl _ _ rfl rfl
  exact ⟨_, rfl, h.reset _ rfl rfl rfl rfl 1 (by decide) (by decide)⟩

theorem start_moved :
  ((reducer.final restartedPod [runningAt 1 1]).lookup "a").map
        (fun cv => (cv.phase, cv.lastStarted)) = some (.running, 1)
    ∧ ((reducer.final restartedPod [runningAt 1 1, runningAt hour.toInt hour.toInt]).lookup "a").map
        (fun cv => (cv.lastStarted, cv.backoff)) = some (hour.toInt, 20 * second)
  := by decide

end Periapsis.Foci
