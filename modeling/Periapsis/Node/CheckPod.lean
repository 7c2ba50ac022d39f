import Periapsis.Foci.Poll
import Periapsis.Node.BatchWatcher

/-!
# The watcher and the reducer on one poll

`checkPod` is the pass of the watcher over a pod after a poll: the containers it restarts, and the
terminal phase it sets.
-/

namespace Periapsis.Node

open Corev1 Periapsis.Types Perigeos List

variable (policy : RestartPolicy)

def restartsState (unhealthy : Bool) (state : MachineState) : Bool :=
  match state with
  | .running => unhealthy
  | .failed => policy = .always ∨ policy = .onFailure
  | .exited => policy = .always
  | _ => false

def restartsContainer (unhealthy : Bool) (entry : Option PodMetadata) (m : Watched) : Bool :=
  let state := (entry.map PodMetadata.state).getD .exited
  let exitCode := (entry.map PodMetadata.exitCode).getD 0
  if m.restarting.isSome then false
  else if m.seenRunning = false ∧ (state = .exited ∨ state = .unknown) then
    if entry.isSome = true ∧ state = .exited ∧ exitCode = 0 then
      restartsState policy unhealthy state
    else false
  else restartsState policy unhealthy state

structure PodCheck where
  allExited : Bool := true
  allSucceeded : Bool := true
  restarted : List String := []
  deriving DecidableEq

def PodCheck.terminalPhase (check : PodCheck) : Option PodPhase :=
  if check.allExited then some (if check.allSucceeded then .succeeded else .failed) else none

def PodCheck.observe (deleting : Bool) (unhealthy : String → Bool)
    (listing : String → Option PodMetadata) (known : String → Watched) (check : PodCheck)
    (name : String) : PodCheck :=
  let verdict :=
    (checkContainer policy deleting (unhealthy name) (listing name) (known name)).2
  { allExited := check.allExited && verdict.exited
    allSucceeded := check.allSucceeded && verdict.succeeded
    restarted :=
      if restartsContainer policy (unhealthy name) (listing name) (known name) then
        check.restarted ++ [name]
      else check.restarted }

variable {policy}

/-- The pass over the containers of a pod, as the poll lists them and the watcher knows them; a
probe calls for a restart of the `unhealthy`. -/
def checkPod (pod : Pod) (deleting : Bool) (unhealthy : String → Bool)
    (listing : String → Option PodMetadata) (known : String → Watched) : PodCheck :=
  pod.containerNames.foldl
    (PodCheck.observe (effectivePolicy pod.spec.restartPolicy) deleting unhealthy listing known) {}

section Pass

variable (policy) (deleting : Bool) (unhealthy : String → Bool)
  (listing : String → Option PodMetadata) (known : String → Watched)

def verdictOn (name : String) : Verdict :=
  (checkContainer policy deleting (unhealthy name) (listing name) (known name)).2

theorem foldl_observe (check : PodCheck) (names : List String) :
  names.foldl (PodCheck.observe policy deleting unhealthy listing known) check
    = { allExited := check.allExited
          && names.all fun n => (verdictOn policy deleting unhealthy listing known n).exited
        allSucceeded := check.allSucceeded
          && names.all fun n => (verdictOn policy deleting unhealthy listing known n).succeeded
        restarted := check.restarted
          ++ names.filter fun n =>
            restartsContainer policy (unhealthy n) (listing n) (known n) }
  := by
  induction names generalizing check with
  | nil => simp
  | cons name names ih =>
    rw [foldl_cons, ih]
    cases hre : restartsContainer policy (unhealthy name) (listing name) (known name) with
    | _ => simp [PodCheck.observe, verdictOn, hre, Bool.and_assoc]

theorem checkPod_eq (pod : Pod) (hp : effectivePolicy pod.spec.restartPolicy = policy) :
  checkPod pod deleting unhealthy listing known
    = { allExited := pod.containerNames.all fun n =>
          (verdictOn policy deleting unhealthy listing known n).exited
        allSucceeded := pod.containerNames.all fun n =>
          (verdictOn policy deleting unhealthy listing known n).succeeded
        restarted := pod.containerNames.filter fun n =>
          restartsContainer policy (unhealthy n) (listing n) (known n) }
  := by
  subst hp
  apply foldl_observe

end Pass

/-- The restarts of the container are counted, and the count does not run over. -/
def Watched.Tracked (m : Watched) : Prop :=
  ∃ count, m.restartCount = some count ∧ count + 1 ≠ 0

theorem maybeRestart_restarting {m : Watched} (ht : m.Tracked) (hno : m.restarting = none) :
  (m.maybeRestart false).restarting = some .backoff
  := by
  obtain ⟨count, hcu, hne⟩ := ht
  simp [Watched.maybeRestart, hno, Watched.bumpBackoff, hcu, hne]

section Steps

variable {deleting unhealthy : Bool} {entry : Option PodMetadata} {m : Watched}

theorem checkContainer_seen (hse : m.seenRunning) (hno : m.restarting = none) :
  checkContainer policy deleting unhealthy entry m
    = checkState policy deleting unhealthy ((entry.map PodMetadata.state).getD .exited) m
  := by
  simp [checkContainer, hse, hno]

theorem restartsContainer_seen (hse : m.seenRunning) (hno : m.restarting = none) :
  restartsContainer policy unhealthy entry m
    = restartsState policy unhealthy ((entry.map PodMetadata.state).getD .exited)
  := by
  simp [restartsContainer, hse, hno]

theorem checkState_restarting (ht : m.Tracked) (hno : m.restarting = none) :
  ((checkState policy false unhealthy state m).1.restarting).isSome
    = restartsState policy unhealthy state
  := by
  have hse : ({ m with seenRunning := true }.maybeRestart false).restarting = some .backoff :=
    maybeRestart_restarting ht hno
  have hm := maybeRestart_restarting ht hno
  cases state with
  | running =>
    cases unhealthy with
    | true => simp [checkState, restartsState, hse]
    | false => simp [checkState, restartsState, hno]
  | failed =>
    by_cases hp : policy = .always ∨ policy = .onFailure
    · simp [checkState, restartsState, hp, hm]
    · simp [checkState, restartsState, hp, hno]
  | exited =>
    by_cases hp : policy = .always
    · simp [checkState, restartsState, hp, hm]
    · simp [checkState, restartsState, hp, hno]
  | _ => simp [checkState, restartsState, hno]

end Steps

def Watch.afterChecks (pod : Pod) (unhealthy : String → Bool) (names : List String) (p : Poll)
    (s : Watch) : Watch :=
  let policy := effectivePolicy pod.spec.restartPolicy
  let verdict := verdictOn policy s.deleting unhealthy p.listManagedMachines s.containers
  { s with
    containers := fun name =>
      if name ∈ names then
        (checkContainer policy s.deleting (unhealthy name) (p.listManagedMachines name)
          (s.containers name)).1
      else s.containers name
    poll := some
      { p with
        todo := []
        allExited := p.allExited && names.all fun name => (verdict name).exited
        allSucceeded := p.allSucceeded && names.all fun name => (verdict name).succeeded } }

variable {s : Watch} {p : Poll}

theorem run_checks (pod : Pod) (unhealthy : String → Bool) {names : List String}
    (hna : names.Nodup) (hpo : s.poll = some p) (hto : p.todo = names) :
  (batchWatcher pod).run s (names.map fun name => .check (unhealthy name))
    = some (s.afterChecks pod unhealthy names p)
  := by
  induction names generalizing s p with
  | nil =>
    obtain ⟨phase, deleting, containers, prevStateMap, shared, poll⟩ := s
    obtain ⟨units, checks, todo, allExited, allSucceeded⟩ := p
    obtain rfl := hpo
    obtain rfl := hto
    simp [Watch.afterChecks]
  | cons name names ih =>
    obtain ⟨hn, hna⟩ := nodup_cons.1 hna
    generalize hch : checkContainer (effectivePolicy pod.spec.restartPolicy) s.deleting
      (unhealthy name) (p.listManagedMachines name) (s.containers name) = result
    have hsp : (batchWatcher pod).step s (.check (unhealthy name))
        = some
          { s.set name result.1 with
            poll := some
              { p with
                todo := names
                allExited := p.allExited && result.2.exited
                allSucceeded := p.allSucceeded && result.2.succeeded } } := by
      simp [batchWatcher, Watch.check, hpo, hto, hch]
    have ho : ∀ other ∈ names,
        (s.set name result.1).containers other = s.containers other := by
      intro other hme
      rw [containers_set, if_neg]
      rintro rfl
      exact hn hme
    have hal : ∀ f : Verdict → Bool, (names.all fun other =>
        f (verdictOn (effectivePolicy pod.spec.restartPolicy) s.deleting unhealthy
          p.listManagedMachines (s.set name result.1).containers other))
        = names.all fun other =>
          f (verdictOn (effectivePolicy pod.spec.restartPolicy) s.deleting unhealthy
            p.listManagedMachines s.containers other) := by
      intro f
      rw [Bool.eq_iff_iff, all_eq_true, all_eq_true]
      apply forall₂_congr
      intro other hme
      rw [verdictOn, ho other hme, verdictOn]
    have hv : verdictOn (effectivePolicy pod.spec.restartPolicy) s.deleting unhealthy
        p.listManagedMachines s.containers name = result.2 := congrArg Prod.snd hch
    rw [map_cons, (batchWatcher pod).run_cons]
    refine ⟨_, hsp, ?_⟩
    rw [ih hna rfl rfl, Option.some.injEq]
    dsimp only [Watch.afterChecks]
    congr 1
    · funext other
      by_cases hme : other ∈ names
      · simp only [hme, if_true, mem_cons, or_true]
        rw [ho other hme]
        rfl
      · rw [if_neg hme, containers_set]
        by_cases heq : other = name
        · subst heq
          simp [hch]
        · simp [heq, hme]
    · simp only [all_cons, hv, ← Bool.and_assoc]
      congr 2
      · exact congrArg _ (hal Verdict.exited)
      · exact congrArg _ (hal Verdict.succeeded)

theorem pollEnd_afterChecks (pod : Pod) (unhealthy : String → Bool) (reset : String → Bool)
    (hpd : pod.containerNames ≠ []) (s : Watch) (hc : p.checks) (hex : p.allExited)
    (hs : p.allSucceeded) :
  ∃ t, (s.afterChecks pod unhealthy pod.containerNames p).pollEnd pod reset = some t
    ∧ t.phase
      = (checkPod pod s.deleting unhealthy p.listManagedMachines s.containers).terminalPhase.getD
          s.phase
    ∧ ∀ name, (t.containers name).restarting
      = ((s.afterChecks pod unhealthy pod.containerNames p).containers name).restarting
  := by
  have hne : pod.containerNames.isEmpty = false := by simpa using hpd
  rw [checkPod_eq _ _ _ _ _ pod rfl]
  simp only [Watch.pollEnd, Watch.afterChecks, PodCheck.terminalPhase, hc, hex,
    hs, hne, Bool.true_and, Bool.not_false]
  split
  · refine ⟨_, rfl, rfl, ?_⟩
    intro name
    dsimp only
    split
    · rw [(resetUnit_frame _ _).1]
    · rfl
  · exact ⟨_, rfl, rfl, fun _ => rfl⟩

/-- A poll of a running pod, container by container, sets the phase and begins the restarts that
`checkPod` decides on from the listing the poll began with. -/
theorem poll_eq_checkPod (hna : pod.containerNames.Nodup) (hpd : pod.containerNames ≠ [])
    (hpo : s.poll = none) (hph : s.phase = .running) (hd : s.deleting = false)
    (unhealthy reset : String → Bool) :
  let check := checkPod pod false unhealthy
    (fun name => (s.containers name).unit.map UnitState.listed) s.containers
  ∃ t, (batchWatcher pod).run s (.pollBegin
      :: pod.containerNames.map (fun name => .check (unhealthy name)) ++ [.pollEnd reset]) = some t
    ∧ t.phase = check.terminalPhase.getD .running
    ∧ ∀ name ∈ pod.containerNames, (s.containers name).Tracked →
        (s.containers name).seenRunning = true → (s.containers name).restarting = none →
          (name ∈ check.restarted ↔ ((t.containers name).restarting).isSome = true)
  := by
  let p : Poll := ⟨fun name => (s.containers name).unit, true, pod.containerNames, true, true⟩
  have hb : s.pollBegin pod = some { s with poll := some p } := by
    simp [Watch.pollBegin, hpo, hph, hd, PodPhase.terminal, p]
  obtain ⟨t, hed, hp, hco⟩ :=
    pollEnd_afterChecks (p := p) pod unhealthy reset hpd s rfl rfl rfl
  use t
  refine ⟨?_, ?_, ?_⟩
  · apply (batchWatcher pod).run_append.2
    refine ⟨_, (batchWatcher pod).run_cons.2 ⟨_, hb, run_checks pod unhealthy hna rfl rfl⟩, ?_⟩
    apply (batchWatcher pod).run_cons.2
    exact ⟨t, hed, rfl⟩
  · rw [hp, hd, hph]
    rfl
  · intro name hn ht hse hno
    rw [hco, checkPod_eq _ _ _ _ _ pod rfl, mem_filter, restartsContainer_seen hse hno]
    simp only [Watch.afterChecks, hn, if_true, true_and, hd,
      checkContainer_seen hse hno, checkState_restarting ht hno]
    rfl

/-- One container has failed, one has ended well, and one runs without passing its probe. -/
def threeContainers : Watch :=
  ⟨.running, false, fun name => ⟨some (if name = "a" then .ended 1 else if name = "b" then .ended 0
    else .running), some 1, true, none, some 0⟩, fun _ => none, true, none⟩

theorem poll_eq_checkPod_three :
  let pod : Pod := ⟨.onFailure, [{ name := "a" }, { name := "b" }, { name := "c" }]⟩
  ∃ t, (batchWatcher pod).run threeContainers
      [.pollBegin, .check false, .check false, .check true, .pollEnd fun _ => true] = some t
    ∧ t.phase = .running ∧ (t.containers "a").restarting.isSome = true
    ∧ ¬ (t.containers "b").restarting.isSome = true ∧ (t.containers "c").restarting.isSome = true
  := by
  intro pod
  obtain ⟨t, hr, hp, hre⟩ := @poll_eq_checkPod threeContainers pod (by decide) (by decide) rfl rfl
    rfl (· = "c") fun _ => true
  have ht (name : String) : (threeContainers.containers name).Tracked := ⟨0, rfl, by decide⟩
  exact ⟨t, hr, hp, (hre "a" (by decide) (ht _) rfl rfl).1 (by decide),
    fun h => absurd ((hre "b" (by decide) (ht _) rfl rfl).2 h) (by decide),
    (hre "c" (by decide) (ht _) rfl rfl).1 (by decide)⟩

def report : Option PodMetadata → Foci.Report
  | some entry => ⟨entry.state, entry.exitCode⟩
  | none => ⟨.unknown, 0⟩

def Listed (state : MachineState) (entry : Option PodMetadata) : Prop :=
  entry.map PodMetadata.state = some state

instance (state : MachineState) (entry : Option PodMetadata) : Decidable (Listed state entry) :=
  inferInstanceAs (Decidable (_ = _))

variable (policy)

def AgreeingOn (entry : Option PodMetadata) : Prop :=
  match policy with
  | .always => entry ≠ none
  | .unset => entry ≠ none ∧ ¬ Listed .failed entry ∧ ¬ Listed .exited entry
  | .onFailure => Listed .failed entry → (report entry).code ≠ 0
  | .never => True

def HasEnded (entry : Option PodMetadata) : Prop :=
  ¬ Listed .running entry ∧ ¬ Listed .creating entry
    ∧ ¬ (Listed .failed entry ∧ Foci.shouldRestart policy (report entry).code = true)
    ∧ ¬ (Listed .exited entry ∧ policy = .always)

def Agreeing (names : List String) (listing : String → Option PodMetadata) : Prop :=
  (∀ name ∈ names, AgreeingOn policy (listing name))
    ∧ ((∀ name ∈ names, HasEnded policy (listing name)) →
      ((∀ name ∈ names, ¬ Listed .failed (listing name))
        ↔ ∀ name ∈ names, (report (listing name)).code = 0))

variable {policy}

section Container

def stateVerdict (policy : RestartPolicy) (state : MachineState) : Verdict :=
  match state with
  | .running => ⟨false, false⟩
  | .creating => ⟨false, false⟩
  | .failed => if policy = .always ∨ policy = .onFailure then ⟨false, false⟩ else ⟨true, false⟩
  | .exited => if policy = .always then ⟨false, true⟩ else ⟨true, true⟩
  | _ => ⟨true, true⟩

theorem checkState_verdict (policy : RestartPolicy) (deleting unhealthy : Bool)
    (state : MachineState) (m : Watched) :
  (checkState policy deleting unhealthy state m).2 = stateVerdict policy state
  := by
  cases state with
  | failed | exited =>
    unfold checkState stateVerdict
    dsimp only
    split
    all_goals rfl
  | _ => rfl

variable {state : MachineState} {entry : Option PodMetadata}

theorem stateVerdict_exited (unhealthy : Bool) :
  (stateVerdict policy state).exited
    ↔ state ≠ .running ∧ state ≠ .creating ∧ ¬ restartsState policy unhealthy state
  := by
  cases state with
  | failed =>
    by_cases hp : policy = .always ∨ policy = .onFailure
    all_goals simp [stateVerdict, restartsState, hp]
  | exited =>
    by_cases hp : policy = .always
    all_goals simp [stateVerdict, restartsState, hp]
  | _ => simp [stateVerdict, restartsState]

theorem stateVerdict_succeeded :
  (stateVerdict policy state).succeeded
    ↔ state ≠ .running ∧ state ≠ .creating ∧ state ≠ .failed
  := by
  cases state with
  | failed =>
    by_cases hp : policy = .always ∨ policy = .onFailure
    all_goals simp [stateVerdict, hp]
  | exited =>
    by_cases hp : policy = .always
    all_goals simp [stateVerdict, hp]
  | _ => simp [stateVerdict]

def takenState (entry : Option PodMetadata) : MachineState :=
  (entry.map PodMetadata.state).getD .exited

theorem takenState_ne_iff (hst : state ≠ .exited) :
  takenState entry ≠ state ↔ ¬ Listed state entry
  := by
  cases entry with
  | none => simpa [takenState, Listed] using Ne.symm hst
  | some entry => simp [takenState, Listed]

theorem report_crashLoopBackOff :
  (report entry).phase policy = .crashLoopBackOff
    ↔ Listed .failed entry ∧ Foci.shouldRestart policy (report entry).code
      ∨ Listed .exited entry ∧ policy = .always
  := by
  rw [Foci.Report.phase_eq_crashLoopBackOff]
  cases entry with
  | none => simp [report, Listed]
  | some entry =>
    simp only [report, Listed, Option.map_some, Option.some.injEq]
    apply or_congr_left
    apply and_congr_right
    intro hf
    simp [Foci.Report.code, hf]

theorem report_terminated :
  (report entry).phase policy = .terminated ↔ HasEnded policy entry
  := by
  rw [Foci.Report.phase_eq_terminated, report_crashLoopBackOff, HasEnded, not_or]
  cases entry with
  | _ => simp [report, Listed]

def SameRestart (policy : RestartPolicy) (unhealthy : Bool) (entry : Option PodMetadata) : Prop :=
  restartsState (effectivePolicy policy) unhealthy (takenState entry) = true
    ↔ (report entry).phase policy = .crashLoopBackOff

variable {unhealthy : Bool}

theorem sameRestart_iff :
  SameRestart policy unhealthy entry
    ↔ (Listed .running entry → unhealthy = false) ∧ AgreeingOn policy entry
  := by
  unfold SameRestart
  rw [report_crashLoopBackOff, Foci.shouldRestart_iff]
  cases entry with
  | none =>
    cases policy <;> simp [AgreeingOn, Listed, takenState, restartsState, effectivePolicy]
  | some entry =>
    obtain ⟨state, code⟩ := entry
    cases state <;> cases policy <;>
      simp [AgreeingOn, Listed, takenState, restartsState, effectivePolicy]

theorem SameRestart.exited_iff (h : SameRestart policy unhealthy entry) :
  (stateVerdict (effectivePolicy policy) (takenState entry)).exited
    ↔ (report entry).phase policy = .terminated
  := by
  unfold SameRestart at h
  rw [stateVerdict_exited unhealthy, report_terminated, h, report_crashLoopBackOff, HasEnded,
    not_or, takenState_ne_iff (by decide), takenState_ne_iff (by decide)]

theorem succeeded_iff (h : HasEnded policy entry) :
  (stateVerdict (effectivePolicy policy) (takenState entry)).succeeded
    ↔ ¬ Listed .failed entry
  := by
  rw [stateVerdict_succeeded, takenState_ne_iff (by decide), takenState_ne_iff (by decide),
    takenState_ne_iff (by decide)]
  simp [h.1, h.2.1]

end Container

/-- The container was seen running and is not being restarted. -/
structure Watched.Up (m : Watched) : Prop where
  seen : m.seenRunning = true
  quiet : m.restarting = none

def SameDecisions (check : PodCheck) (outputs : List Effect) (final : Foci.PodState) : Prop :=
  (∀ name, name ∈ check.restarted ↔ Foci.restartsOf name outputs ≠ [])
    ∧ ∀ phase : PodPhase, phase.terminal = true →
      (check.terminalPhase = some phase ↔ final.phase = phase)

section Agreement

variable {pod : Pod} {deleting : Bool} {unhealthy : String → Bool}
  {listing : String → Option PodMetadata} {known : String → Watched}

theorem verdictOn_up (h : (known name).Up) :
  verdictOn policy deleting unhealthy listing known name
    = stateVerdict policy (takenState (listing name))
  := by
  rw [verdictOn, checkContainer_seen h.seen h.quiet, checkState_verdict, takenState]

section

variable (hk : ∀ name ∈ pod.containerNames, (known name).Up)
include hk

theorem checkPod_all :
  ((checkPod pod deleting unhealthy listing known).allExited ↔ ∀ name ∈ pod.containerNames,
      (stateVerdict (effectivePolicy pod.spec.restartPolicy) (takenState (listing name))).exited)
    ∧ ((checkPod pod deleting unhealthy listing known).allSucceeded ↔ ∀ name ∈ pod.containerNames,
      (stateVerdict (effectivePolicy pod.spec.restartPolicy)
        (takenState (listing name))).succeeded)
  := by
  rw [checkPod_eq _ _ _ _ _ pod rfl, all_eq_true, all_eq_true]
  constructor
  all_goals
    apply forall₂_congr
    intro name hn
    rw [verdictOn_up (hk name hn)]

theorem mem_checkPod_restarted :
  name ∈ (checkPod pod deleting unhealthy listing known).restarted
    ↔ name ∈ pod.containerNames
      ∧ restartsState (effectivePolicy pod.spec.restartPolicy) (unhealthy name)
          (takenState (listing name))
  := by
  rw [checkPod_eq _ _ _ _ _ pod rfl, mem_filter]
  apply and_congr_right
  intro hn
  rw [restartsContainer_seen (hk name hn).seen (hk name hn).quiet, takenState]

end

theorem terminalPhase_eq_some {check : PodCheck} {phase : PodPhase} :
  check.terminalPhase = some phase
    ↔ check.allExited
      ∧ phase = (if check.allSucceeded then .succeeded else .failed : PodPhase)
  := by
  unfold PodCheck.terminalPhase
  split
  next h =>
    rw [h, Option.some.injEq, eq_self, true_and]
    exact eq_comm
  next h =>
    simp [h]

theorem forall_terminal {P : PodPhase → Prop} :
  (∀ phase : PodPhase, phase.terminal → P phase) ↔ P .succeeded ∧ P .failed
  := by
  constructor
  · intro h
    exact ⟨h _ rfl, h _ rfl⟩
  · rintro ⟨hs, hf⟩ phase hph
    cases phase with
    | succeeded => exact hs
    | failed => exact hf
    | _ => cases hph

variable {state : Foci.PodState}

theorem same_restarts_iff (hna : pod.containerNames.Nodup)
    (hk : ∀ name ∈ pod.containerNames, (known name).Up) (hst : Foci.AllRunning pod state) :
  (∀ name, name ∈ (checkPod pod deleting unhealthy listing known).restarted
      ↔ Foci.restartsOf name (Foci.reducer.outputs state
        (Foci.pollInputs uid (fun name => report (listing name)) clock pod.containerNames)) ≠ [])
    ↔ ∀ name ∈ pod.containerNames,
      SameRestart pod.spec.restartPolicy (unhealthy name) (listing name)
  := by
  apply forall_congr'
  intro name
  rw [mem_checkPod_restarted hk, Foci.poll_restarts hst hna, SameRestart]
  exact and_congr_right_iff

/-- If they restart the same containers, both end the pod in the same phase if, when all
containers have ended, one has failed exactly when one has a non-zero exit code. -/
theorem same_phases_iff (hna : pod.containerNames.Nodup) (hpd : pod.containerNames ≠ [])
    (hk : ∀ name ∈ pod.containerNames, (known name).Up) (hst : Foci.AllRunning pod state)
    (hsa : ∀ name ∈ pod.containerNames,
      SameRestart pod.spec.restartPolicy (unhealthy name) (listing name))
    (uid : String) (clock : String → Foci.Clock) :
  (∀ phase : PodPhase, phase.terminal →
      ((checkPod pod deleting unhealthy listing known).terminalPhase = some phase
        ↔ (Foci.reducer.final state (Foci.pollInputs uid (fun name => report (listing name)) clock
          pod.containerNames)).phase = phase))
    ↔ ((∀ name ∈ pod.containerNames, HasEnded pod.spec.restartPolicy (listing name)) →
      ((∀ name ∈ pod.containerNames, ¬ Listed .failed (listing name))
        ↔ ∀ name ∈ pod.containerNames, (report (listing name)).code = 0))
  := by
  obtain ⟨hru, hrd⟩ :=
    Foci.poll_phase hst hna hpd (fun name => report (listing name)) uid clock
  have hex : (checkPod pod deleting unhealthy listing known).allExited
      ↔ ∀ name ∈ pod.containerNames, HasEnded pod.spec.restartPolicy (listing name) := by
    rw [(checkPod_all hk).1]
    apply forall₂_congr
    intro name hn
    rw [(hsa name hn).exited_iff, report_terminated]
  simp only [forall_terminal, terminalPhase_eq_some, hru, hrd, hex,
    report_terminated, Foci.Report.Succeeds]
  by_cases hen : ∀ name ∈ pod.containerNames, HasEnded pod.spec.restartPolicy (listing name)
  · have hs : (checkPod pod deleting unhealthy listing known).allSucceeded
        ↔ ∀ name ∈ pod.containerNames, ¬ Listed .failed (listing name) := by
      rw [(checkPod_all hk).2]
      apply forall₂_congr
      intro name hn
      rw [succeeded_iff (hen name hn)]
    have hcd : (∀ name ∈ pod.containerNames,
        HasEnded pod.spec.restartPolicy (listing name) ∧ (report (listing name)).code = 0)
        ↔ ∀ name ∈ pod.containerNames, (report (listing name)).code = 0 := by
      apply forall₂_congr
      intro name hn
      simp [hen name hn]
    rw [hcd, ← hs, eq_true hen]
    cases (checkPod pod deleting unhealthy listing known).allSucceeded with
    | _ => simp
  · have hno : ¬ ∀ name ∈ pod.containerNames,
        HasEnded pod.spec.restartPolicy (listing name) ∧ (report (listing name)).code = 0 :=
      fun hal => hen fun name hn => (hal name hn).1
    rw [eq_false hen, eq_false hno]
    simp

/-- With all containers seen running and none being restarted, the watcher and the reducer decide
the same exactly if there is a container, no probe of a running one fails, and they agree on the
listing. -/
theorem checkPod_agrees_iff
    (pod : Pod) (hnames : pod.containerNames.Nodup) {known : String → Watched}
    (hknown : ∀ name ∈ pod.containerNames, (known name).Up)
    {state : Foci.PodState} (hstate : Foci.AllRunning pod state)
    (deleting : Bool) (unhealthy : String → Bool) (listing : String → Option PodMetadata)
    (uid : String) (clock : String → Foci.Clock) :
  let inputs := Foci.pollInputs uid (fun name => report (listing name)) clock pod.containerNames
  SameDecisions (checkPod pod deleting unhealthy listing known)
      (Foci.reducer.outputs state inputs) (Foci.reducer.final state inputs)
    ↔ pod.containerNames ≠ []
      ∧ (∀ name ∈ pod.containerNames, Listed .running (listing name) → unhealthy name = false)
      ∧ Agreeing pod.spec.restartPolicy pod.containerNames listing
  := by
  intro inputs
  rw [SameDecisions, same_restarts_iff hnames hknown hstate]
  by_cases hpd : pod.containerNames = []
  · simp only [hpd, ne_eq, not_true_eq_false, false_and, iff_false, not_and]
    intro _ hpa
    have hph := (hpa .succeeded rfl).mp (by simp [checkPod, hpd, PodCheck.terminalPhase])
    simp [inputs, hpd, Foci.pollInputs, hstate.phase] at hph
  · have hr : (∀ name ∈ pod.containerNames,
          SameRestart pod.spec.restartPolicy (unhealthy name) (listing name))
        ↔ (∀ name ∈ pod.containerNames, Listed .running (listing name) → unhealthy name = false)
          ∧ ∀ name ∈ pod.containerNames, AgreeingOn pod.spec.restartPolicy (listing name) := by
      simp only [sameRestart_iff, forall_and]
    constructor
    · rintro ⟨hsa, hpa⟩
      obtain ⟨hh, ha⟩ := hr.mp hsa
      use hpd, hh, ha
      apply (same_phases_iff hnames hpd hknown hstate hsa uid clock).mp hpa
    · rintro ⟨-, hh, ha, hcd⟩
      have hsa := hr.mpr ⟨hh, ha⟩
      use hsa
      apply (same_phases_iff hnames hpd hknown hstate hsa uid clock).mpr hcd

end Agreement

def runningContainers (_ : String) : Watched where
  unit := some .running
  lastExit := none
  seenRunning := true
  restarting := none
  restartCount := some 0

def runningState (pod : Pod) : Foci.PodState :=
  Foci.reducer.final (Foci.newPodState "u" "default" "web" "" pod {})
    (Foci.pollInputs "u" (fun _ => ⟨.running, 0⟩) (fun _ => {}) pod.containerNames)

def crashOfA : String → Option PodMetadata
  | "a" => some ⟨.failed, 1⟩
  | _ => some ⟨.running, 0⟩

theorem checkPod_agrees_crash :
  let pod : Pod := ⟨.always, [{ name := "a" }, { name := "b" }]⟩
  let inputs := Foci.pollInputs "u" (fun name => report (crashOfA name)) (fun _ => {}) ["a", "b"]
  SameDecisions (checkPod pod false (fun _ => false) crashOfA runningContainers)
    (Foci.reducer.outputs (runningState pod) inputs) (Foci.reducer.final (runningState pod) inputs)
  := by
  intro pod inputs
  have hup : ∀ cv ∈ (runningState pod).containers,
      cv.phase = .running ∧ cv.seenRunning = true ∧ cv.restarting = false := by
    decide
  have hst : Foci.AllRunning pod (runningState pod) := by
    refine ⟨by decide, rfl, rfl, rfl, ?_⟩
    intro cv hcv
    exact ⟨(hup cv hcv).1, (hup cv hcv).2.1, (hup cv hcv).2.2⟩
  apply (checkPod_agrees_iff pod (by decide) (fun _ _ => ⟨rfl, rfl⟩) hst false _ crashOfA "u"
    _).mpr
  refine ⟨by decide, fun _ _ _ => rfl, ?_, ?_⟩
  · intro name _
    unfold crashOfA
    split
    all_goals exact nofun
  · intro hen
    exact absurd rfl (hen "b" (by decide)).1

theorem checkPod_disagrees :
  let pod : Pod := ⟨.unset, [{ name := "a" }]⟩
  let inputs := Foci.pollInputs "u" (fun name => report (crashOfA name)) (fun _ => {}) ["a"]
  ¬ SameDecisions (checkPod pod false (fun _ => false) crashOfA runningContainers)
    (Foci.reducer.outputs (runningState pod) inputs) (Foci.reducer.final (runningState pod) inputs)
  := by
  rintro pod inputs ⟨hr, -⟩
  apply (hr "a").mp (by decide)
  decide

end Periapsis.Node
