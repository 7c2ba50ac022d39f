import Periapsis.Node.Records
import Periapsis.Node.Watcher

/-!
# What a step of the watcher does

The steps of the watcher in terms of what they do to the store, the marks and the threads.
-/

namespace Periapsis.Node

open Corev1 Periapsis.Types Perigeos List Option Function

/-- The record without the times of its probes. -/
def ContainerProbeState.unscheduled (state : ContainerProbeState) : ContainerProbeState :=
  { state with lastProbeTime := fun _ => none }

structure SameRecords (s s' : PodStore) : Prop where
  restartState : ∀ uid name, s'.restartState uid name = s.restartState uid name
  probeState : ∀ uid name, (s'.probeState uid name).map ContainerProbeState.unscheduled
    = (s.probeState uid name).map ContainerProbeState.unscheduled

namespace SameRecords

variable {s s' s'' : PodStore}

theorem refl (s : PodStore) :
  SameRecords s s
  := ⟨fun _ _ => rfl, fun _ _ => rfl⟩

theorem trans (h : SameRecords s s') (h' : SameRecords s' s'') :
  SameRecords s s''
  := by
  constructor
  · intro uid name
    rw [h'.restartState, h.restartState]
  · intro uid name
    rw [h'.probeState, h.probeState]

end SameRecords

variable {probeType : ProbeType}

theorem isDue_unscheduled :
  (isDue state probeType periodSeconds initialDelaySeconds r).1.unscheduled = state.unscheduled
  := by
  have hsd : (state.seed probeType periodSeconds initialDelaySeconds r).unscheduled
      = state.unscheduled := by
    unfold ContainerProbeState.seed
    split
    all_goals rfl
  unfold isDue
  dsimp only
  split
  all_goals exact hsd

theorem PodStore.sameRecords_due (s : PodStore) (uid : String) (c : Container)
    (probeType : ProbeType) (r : DueReadings) :
  SameRecords s (s.due uid c probeType r).1
  := by
  unfold due
  split
  next probe state _ hse =>
    constructor
    · intro uid' name'
      apply restartState_update_of_restarts
      intro ps
      rfl
    · intro uid' name'
      rw [probeState_updateProbeState]
      split
      next heq =>
        obtain ⟨rfl, rfl⟩ := heq
        rw [hse, map_some, map_some, map_some, isDue_unscheduled]
      · rfl
  · apply SameRecords.refl

theorem PodStore.due_eq_some {s : PodStore} {uid : String} {probe : Probe}
    (h : (s.due uid c probeType r).2 = some probe) :
  probeOf c probeType = some probe
  := by
  unfold due at h
  split at h
  next hpr _ =>
    dsimp only at h
    split at h
    · rw [hpr, ← h]
    · cases h
  · cases h

theorem PodStore.sameRecords_anyDue (s : PodStore) (t : Target) (due : ProbeType → DueReadings) :
  SameRecords s (s.anyDue t due).1
  := by
  have hs := s.sameRecords_due t.uid t.container .startup (due .startup)
  unfold anyDue
  split
  next heq =>
    rw [heq] at hs
    exact hs
  next s₁ heq =>
    rw [heq] at hs
    have hl := s₁.sameRecords_due t.uid t.container .liveness (due .liveness)
    split
    next heq' =>
      rw [heq'] at hl
      exact hs.trans hl
    next s₂ heq' =>
      rw [heq'] at hl
      exact (hs.trans hl).trans (s₂.sameRecords_due _ _ _ _)

def WatcherAction.isCall : WatcherAction → Bool
  | .call _ _ => true
  | _ => false

namespace Watcher

def PastStartup (w : Watcher) (t : Target) : Prop :=
  ∃ state, w.store.probeState t.uid t.container.name = some state
    ∧ (t.container.startupProbe.isSome = true → state.startupPassed = true)

inductive CallStep (w : Watcher) (c : WatcherCall) (r : CallReadings) :
    Watcher × List Thread → Prop
  | notDue {store : PodStore} (hpoint : c.point = .runProbes)
      (hstore : SameRecords w.store store) :
      CallStep w c r ({ w with store := store }, [])
  | startupDue {store : PodStore} {probe : Probe} (hpoint : c.point = .runProbes)
      (hstore : SameRecords w.store store) :
      CallStep w c r ({ w with store := store }, [.call (c.next (.startup probe))])
  | livenessDue {store : PodStore} {probe : Probe} (hpoint : c.point = .runProbes)
      (hstore : SameRecords w.store store) (hstartup : w.PastStartup c.toTarget) :
      CallStep w c r ({ w with store := store }, [.call (c.next (.liveness probe))])
  | readinessDue {store : PodStore} {probe : Probe} (hpoint : c.point = .runProbes)
      (hprobe : c.container.readinessProbe = some probe) (hstore : SameRecords w.store store)
      (hstartup : w.PastStartup c.toTarget) :
      CallStep w c r ({ w with store := store }, [.call (c.next (.readiness probe))])
  | startup {probe : Probe} {ts : List Thread} (hpoint : c.point = .startup probe)
      (hts : ts = if (w.evalProbe c (startupResult probe r)).2 then [.call (c.next .maybeRestart)]
        else []) :
      CallStep w c r ((w.evalProbe c (startupResult probe r)).1, ts)
  | livenessFailed {probe : Probe} (hpoint : c.point = .liveness probe)
      (hrestart : (w.evalProbe c (livenessResult probe r)).2 = true) :
      CallStep w c r
        ((w.evalProbe c (livenessResult probe r)).1, [.call (c.next .resetProbeState)])
  | livenessPassed {probe : Probe} {store : PodStore} {ts : List Thread}
      (hpoint : c.point = .liveness probe)
      (hstore : SameRecords (w.evalProbe c (livenessResult probe r)).1.store store)
      (hts : ts = [] ∨ ∃ next, c.container.readinessProbe = some next
        ∧ ts = [.call (c.next (.readiness next))]) :
      CallStep w c r ({ (w.evalProbe c (livenessResult probe r)).1 with store := store }, ts)
  | readiness {probe : Probe} (hpoint : c.point = .readiness probe) :
      CallStep w c r ((w.evalProbe c (readinessResult probe r)).1, [])
  | resetProbeState (hpoint : c.point = .resetProbeState) :
      CallStep w c r
        ({ w with store := w.store.resetProbeState c.uid c.container.name r.now },
          [.call (c.next .maybeRestart)])
  | maybeRestart {ts : List Thread} (hpoint : c.point = .maybeRestart)
      (hts : ts = [] ∨ ts = [.call (c.next .acquire)]) :
      CallStep w c r (w, ts)
  | marked (hpoint : c.point = .acquire) : CallStep w c r (w, [])
  | acquire (hpoint : c.point = .acquire) (hfree : w.restarting c.key = false) :
      CallStep w c r
        ({ w with restarting := update w.restarting c.key true },
          [.call (c.next .bumpBackoff)])
  | notCounted (hpoint : c.point = .bumpBackoff)
      (hcount : (w.store.bumpBackoff c.uid c.container.name).2.1 = 0) :
      CallStep w c r
        ({ w with store := (w.store.bumpBackoff c.uid c.container.name).1 },
          [.call (c.next .release)])
  | counted (hpoint : c.point = .bumpBackoff)
      (hcount : (w.store.bumpBackoff c.uid c.container.name).2.1 ≠ 0) :
      CallStep w c r
        ({ w with store := (w.store.bumpBackoff c.uid c.container.name).1 },
          [.call (c.next (.launch (w.store.bumpBackoff c.uid c.container.name).2.1
            (w.store.bumpBackoff c.uid c.container.name).2.2))])
  | release (hpoint : c.point = .release) :
      CallStep w c r ({ w with restarting := update w.restarting c.key false }, [])
  | launch {count : Int32} {backoff : Duration} (hpoint : c.point = .launch count backoff) :
      CallStep w c r
        ({ w with
            events := w.events
              ++ [.launched ⟨c.uid, c.pod, c.container.name, count, backoff, false⟩] },
          [.restart ⟨c.uid, c.pod, c.container.name, count, backoff, false⟩])

variable (w : Watcher) (c : WatcherCall) (r : CallReadings)

theorem readinessDue_eq :
  ∃ store ts, w.readinessDue c r = ({ w with store := store }, ts) ∧ SameRecords w.store store
    ∧ (ts = [] ∨ ∃ probe, c.container.readinessProbe = some probe
      ∧ ts = [.call (c.next (.readiness probe))])
  := by
  refine ⟨_, ((w.store.due c.uid c.container .readiness (r.due .readiness)).2.map
    fun probe => .call (c.next (.readiness probe))).toList, rfl,
    w.store.sameRecords_due c.uid c.container .readiness (r.due .readiness), ?_⟩
  cases hd : (w.store.due c.uid c.container .readiness (r.due .readiness)).2 with
  | none => exact .inl rfl
  | some probe => exact .inr ⟨probe, PodStore.due_eq_some hd, rfl⟩

theorem runProbes_step (hp : c.point = .runProbes) :
  CallStep w c r (w.runProbes c r)
  := by
  unfold runProbes
  split
  · exact .notDue hp (SameRecords.refl _)
  next state hse =>
    split
    · have hsa := w.store.sameRecords_due c.uid c.container .startup (r.due .startup)
      dsimp only
      cases (w.store.due c.uid c.container .startup (r.due .startup)).2 with
      | none => exact .notDue hp hsa
      | some probe => exact .startupDue hp hsa
    next hg =>
      have hs : w.PastStartup c.toTarget := by
        refine ⟨state, hse, ?_⟩
        intro hpr
        simpa [hpr] using hg
      have hsa := w.store.sameRecords_due c.uid c.container .liveness (r.due .liveness)
      split
      next heq =>
        rw [heq] at hsa
        exact .livenessDue hp hsa hs
      next store heq =>
        rw [heq] at hsa
        obtain ⟨store', ts, heq', hsm, rfl | ⟨probe, hpr, rfl⟩⟩ :=
          readinessDue_eq { w with store := store } c r
        · rw [heq']
          exact .notDue hp (hsa.trans hsm)
        · rw [heq']
          exact .readinessDue hp hpr (hsa.trans hsm) hs

theorem callStep_step :
  CallStep w c r (w.callStep c r)
  := by
  unfold callStep
  split
  next hp =>
    apply runProbes_step w c r hp
  next probe hp =>
    exact .startup hp rfl
  next probe hp =>
    dsimp only
    split
    next hr =>
      exact .livenessFailed hp hr
    · obtain ⟨store, ts, heq, hsa, hts⟩ :=
        readinessDue_eq (w.evalProbe c (livenessResult probe r)).1 c r
      rw [heq]
      exact .livenessPassed hp hsa hts
  next probe hp =>
    exact .readiness hp
  next hp =>
    exact .resetProbeState hp
  next hp =>
    apply CallStep.maybeRestart hp
    split
    · exact .inl rfl
    · exact .inr rfl
  next hp =>
    split
    · exact .marked hp
    next hfr =>
      exact .acquire hp (by simpa using hfr)
  next hp =>
    dsimp only
    split
    next hco =>
      exact .notCounted hp hco
    next hco =>
      exact .counted hp hco
  next hp =>
    exact .release hp
  next count backoff hp =>
    exact .launch hp

variable {result : Watcher × List Thread} {a : WatcherAction} {w}

theorem CallStep.threads_eq (h : CallStep w c r result) :
  result.1.threads = w.threads
  := by
  cases h with
  | _ => rfl

theorem CallStep.poll_eq (h : CallStep w c r result) :
  result.1.poll = w.poll
  := by
  cases h with
  | _ => rfl

inductive RunStep (w : Watcher) (run : RestartRun) (now : Time) :
    Bool → Watcher × List Thread → Prop
  | released {ok : Bool} (hended : run.ended = true) :
      RunStep w run now ok
        ({ w with restarting := update w.restarting run.key false }, [])
  | completed (hended : run.ended = false) :
      RunStep w run now true
        ({ w with
            store := w.store.markRestarted run.uid run.containerName now
            unprobed := w.unprobed ++ [run] },
          [.restart { run with ended := true }])
  | failed (hended : run.ended = false) :
      RunStep w run now false (w, [.restart { run with ended := true }])

theorem restartStep_step (w : Watcher) (run : RestartRun) (ok : Bool) (now : Time) :
  RunStep w run now ok (w.restartStep run ok now)
  := by
  unfold restartStep
  split
  next hen =>
    exact .released hen
  next hen =>
    rw [Bool.not_eq_true] at hen
    cases ok with
    | true => exact .completed hen
    | false => exact .failed hen

variable {run : RestartRun} {now : Time}

theorem RunStep.threads_eq {ok : Bool} (h : RunStep w run now ok result) :
  result.1.threads = w.threads
  := by
  cases h with
  | _ => rfl

/-- The containers that a poll has still to look at. -/
def pollTargets : Option BatchPoll → List Target
  | none => []
  | some p => p.fanOut ++ p.checking ++ p.todo.flatMap PodEntry.targets

/-- A container listed in the state is restarted under the policy. -/
def restartsEnded (policy : RestartPolicy) : MachineState → Bool
  | .failed => policy = .always ∨ policy = .onFailure
  | .exited => policy = .always
  | _ => false

/-- The container that the action finds ended, if it may have it restarted. -/
def findsEnded (w : Watcher) : WatcherAction → Option Target
  | .check _ =>
    w.poll.bind fun p => p.checking.head?.filter fun t =>
      !w.restarting t.key && restartsEnded (effectivePolicy t.pod.spec.restartPolicy)
        (((p.listing t.key).map PodMetadata.state).getD .exited)
  | _ => none

/-- What an action of the watcher makes of it, as far as threads and records are concerned. -/
inductive WatcherStep (w : Watcher) : WatcherAction → Watcher → Prop
  | pollBegin {listing : String → Option PodMetadata} {entries : List PodEntry} {p : BatchPoll}
      (htargets : ∀ t ∈ pollTargets (some p), t ∈ entries.flatMap PodEntry.targets) :
      WatcherStep w (.pollBegin listing entries) { w with poll := some p }
  | quiet {action : WatcherAction} {poll : Option BatchPoll} {seenRunning : String → Bool}
      (hcall : action.isCall = false)
      (htargets : ∀ t ∈ pollTargets poll, t ∈ pollTargets w.poll) :
      WatcherStep w action { w with poll := poll, seenRunning := seenRunning }
  | fanOut {due : ProbeType → DueReadings} {store : PodStore} {p : BatchPoll} {t : Target}
      {threads : List Thread} (ht : t ∈ pollTargets w.poll) (hstore : SameRecords w.store store)
      (htargets : ∀ t ∈ pollTargets (some p), t ∈ pollTargets w.poll)
      (hthreads : threads = w.threads
        ∨ threads = w.threads ++ [.call { t with point := .runProbes }]) :
      WatcherStep w (.fanOut due)
        { w with store := store, poll := some p, threads := threads }
  | running {now : Time} {p : BatchPoll} {t : Target} {seenRunning : String → Bool}
      (hidle : w.idle = true) (ht : t ∈ pollTargets w.poll)
      (htargets : ∀ t ∈ pollTargets (some p), t ∈ pollTargets w.poll) :
      WatcherStep w (.check now)
        { w with
          poll := some p
          seenRunning := seenRunning
          threads := w.threads ++ [.call { t with point := .runProbes }] }
  | stable {now : Time} {p : BatchPoll} {t : Target} {seenRunning : String → Bool}
      (hidle : w.idle = true) (ht : t ∈ pollTargets w.poll)
      (htargets : ∀ t ∈ pollTargets (some p), t ∈ pollTargets w.poll) :
      WatcherStep w (.check now)
        { w with
          store := w.store.resetBackoff t.uid t.container.name
          poll := some p
          seenRunning := seenRunning
          threads := w.threads ++ [.call { t with point := .runProbes }]
          events := w.events ++ [.backoffReset t.uid t.container.name] }
  | ended {now : Time} {p : BatchPoll} {t : Target} {seenRunning : String → Bool}
      {threads : List Thread} (hidle : w.idle = true) (ht : t ∈ pollTargets w.poll)
      (htargets : ∀ t ∈ pollTargets (some p), t ∈ pollTargets w.poll)
      (hthreads : threads = w.threads
        ∨ w.findsEnded (.check now) = some t
          ∧ threads = w.threads ++ [.call { t with point := .maybeRestart }]) :
      WatcherStep w (.check now)
        { w with
          store := w.store.setContainerState t.uid t.container.name waiting false now
          poll := some p
          seenRunning := seenRunning
          threads := threads }
  | call {i : Nat} {r : CallReadings} {c : WatcherCall} {result : Watcher × List Thread}
      (hc : w.threads[i]? = some (.call c)) (hresult : CallStep w c r result) :
      WatcherStep w (.call i r) (replace i result)
  | restart {i : Nat} {ok : Bool} {now : Time} {run : RestartRun}
      {result : Watcher × List Thread} (hrun : w.threads[i]? = some (.restart run))
      (hresult : RunStep w run now ok result) :
      WatcherStep w (.restart i ok now) (replace i result)
  | store {op : StoreOp} (hop : op.byOthers = true) :
      WatcherStep w (.store op) { w with store := w.store.apply op }

variable {w' : Watcher} {c r}

theorem mem_pollTargets_of_subset {p p' : BatchPoll}
    (hf : p'.fanOut ⊆ p.fanOut) (hch : p'.checking ⊆ p.checking) (hto : p'.todo ⊆ p.todo) :
  ∀ t ∈ pollTargets (some p'), t ∈ pollTargets (some p)
  := by
  intro t ht
  simp only [pollTargets, mem_append, mem_flatMap] at ht ⊢
  rcases ht with (ht | ht) | ⟨e, he, ht⟩
  · exact .inl (.inl (hf ht))
  · exact .inl (.inr (hch ht))
  · exact .inr ⟨e, hto he, ht⟩

theorem pollBegin_step {listing : String → Option PodMetadata} {entries : List PodEntry}
    (h : w.pollBegin listing entries = some w') :
  WatcherStep w (.pollBegin listing entries) w'
  := by
  unfold pollBegin at h
  split at h
  · cases h
  · cases h
    apply WatcherStep.pollBegin
    intro t ht
    simp only [pollTargets, append_nil, mem_append, mem_flatMap] at ht
    rw [mem_flatMap]
    rcases ht with ⟨e, he, ht⟩ | ht
    · use e, he
      split at ht
      · cases ht
      · exact (mem_filter.1 ht).1
    · exact ht

theorem fanOut_step {due : ProbeType → DueReadings} (h : w.fanOut due = some w') :
  WatcherStep w (.fanOut due) w'
  := by
  unfold fanOut at h
  split at h
  · cases h
  next p hpo =>
    split at h
    · cases h
    next t fanOut hf =>
      have ht : t ∈ pollTargets w.poll := by
        rw [hpo, pollTargets, hf]
        simp
      have hta : ∀ t ∈ pollTargets (some { p with fanOut := fanOut }),
          t ∈ pollTargets w.poll := by
        rw [hpo]
        apply mem_pollTargets_of_subset
        · rw [hf]
          apply subset_cons_self
        all_goals apply List.Subset.refl
      have hsa := w.store.sameRecords_anyDue t due
      generalize w.store.anyDue t due = asked at hsa h
      cases h
      split
      · exact .fanOut ht hsa hta (.inr rfl)
      · exact .fanOut ht hsa hta (.inl rfl)

theorem nextPod_step {needsReeval : Bool} (h : w.nextPod needsReeval = some w') :
  WatcherStep w (.nextPod needsReeval) w'
  := by
  unfold nextPod at h
  split at h
  · cases h
  next p hpo =>
    split at h
    next e todo _ _ hto =>
      split at h
      · cases h
        apply WatcherStep.quiet rfl
        intro t ht
        rw [hpo, pollTargets, hto]
        simp only [pollTargets, mem_append, mem_flatMap, flatMap_cons] at ht ⊢
        rcases ht with (ht | ht) | ht
        · exact .inl (.inl ht)
        · split at ht
          · cases ht
          · exact .inr (.inl ht)
        · exact .inr (.inr ht)
      · cases h
    · cases h

theorem pollEnd_step (h : w.pollEnd = some w') :
  WatcherStep w .pollEnd w'
  := by
  unfold pollEnd at h
  split at h
  · cases h
  · split at h
    · split at h
      · cases h
        apply WatcherStep.quiet rfl
        intro t ht
        cases ht
      · cases h
    · cases h

theorem checkState_step (hi : w.idle) (ht : t ∈ pollTargets w.poll)
    (hta : ∀ t ∈ pollTargets (some p), t ∈ pollTargets w.poll) (seenRunning : String → Bool)
    {state : MachineState} (hen : restartsEnded (effectivePolicy t.pod.spec.restartPolicy) state →
      w.findsEnded (.check now) = some t) :
  WatcherStep w (.check now)
    ({ w with poll := some p, seenRunning := seenRunning }.checkState t state now)
  := by
  unfold checkState
  cases state with
  | running =>
    dsimp only
    split
    · exact .stable hi ht hta
    · exact .running hi ht hta
  | failed | exited =>
    dsimp only
    split
    next hpl => exact .ended hi ht hta (.inr ⟨hen (decide_eq_true hpl), rfl⟩)
    · exact .ended hi ht hta (.inl rfl)
  | _ => exact .quiet rfl hta

theorem check_step (h : w.check now = some w') :
  WatcherStep w (.check now) w'
  := by
  unfold check at h
  split at h
  · cases h
  next p hpo =>
    split at h
    next t checking _ hch =>
      split at h
      next hi =>
        have ht : t ∈ pollTargets w.poll := by
          rw [hpo, pollTargets, hch]
          simp
        have hta : ∀ t ∈ pollTargets (some { p with checking := checking }),
            t ∈ pollTargets w.poll := by
          rw [hpo]
          apply mem_pollTargets_of_subset
          · apply List.Subset.refl
          · rw [hch]
            apply subset_cons_self
          · apply List.Subset.refl
        cases h
        unfold checkContainer
        dsimp only
        split
        · exact .quiet rfl hta
        next hre =>
          have hen (h : restartsEnded (effectivePolicy t.pod.spec.restartPolicy)
              (((p.listing t.key).map PodMetadata.state).getD .exited)) :
              w.findsEnded (.check now) = some t := by
            rw [findsEnded, hpo, Option.bind_some, hch, head?_cons]
            simpa [h] using hre
          split
          · split
            · apply checkState_step hi ht hta _ hen
            · exact .quiet rfl hta
          · apply checkState_step hi ht hta _ hen
      · cases h
    · cases h

theorem step_step (h : watcher.step w a = some w') :
  WatcherStep w a w'
  := by
  cases a with
  | pollBegin listing entries => apply pollBegin_step h
  | fanOut due => apply fanOut_step h
  | nextPod needsReeval => apply nextPod_step h
  | check now => apply check_step h
  | pollEnd => apply pollEnd_step h
  | call i r =>
    change w.step (.call i r) = some w' at h
    rw [step] at h
    split at h
    next c hc =>
      cases h
      exact .call hc (callStep_step w c r)
    · cases h
  | restart i ok now =>
    change w.step (.restart i ok now) = some w' at h
    rw [step] at h
    split at h
    next run hru =>
      cases h
      exact .restart hru (restartStep_step w run ok now)
    · cases h
  | markRunning uid containerName =>
    change w.markRunning uid containerName = some w' at h
    unfold markRunning at h
    split at h
    · cases h
    · cases h
      exact .quiet rfl fun t ht => ht
  | store op =>
    change (if op.byOthers then some { w with store := w.store.apply op } else none)
      = some w' at h
    split at h
    next hop =>
      cases h
      exact .store hop
    · cases h

theorem step_call (hc : w.threads[i]? = some (.call c)) :
  watcher.step w (.call i r) = some (replace i (w.callStep c r))
  := by
  change w.step (.call i r) = _
  rw [step, hc]

def OnCall (w : Watcher) (p : WatcherCall → CallReadings → Prop) : WatcherAction → Prop
  | .call i r =>
    match w.threads[i]? with
    | some (.call c) => p c r
    | _ => True
  | _ => True

instance decidableOnCall {p : WatcherCall → CallReadings → Prop} [∀ c r, Decidable (p c r)]
    (w : Watcher) (a : WatcherAction) : Decidable (w.OnCall p a) :=
  match a with
  | .call i r =>
    show Decidable (match w.threads[i]? with
      | some (.call c) => p c r
      | _ => True) from
    match w.threads[i]? with
    | some (.call c) => inferInstanceAs (Decidable (p c r))
    | some (.restart _) => isTrue trivial
    | none => isTrue trivial
  | .pollBegin _ _ | .fanOut _ | .nextPod _ | .check _ | .pollEnd | .restart _ _ _
  | .markRunning _ _ | .store _ => isTrue trivial

theorem onCall_of_isCall (h : a.isCall = false) :
  w.OnCall p a
  := by
  cases a with
  | call i r => cases h
  | _ => trivial

theorem onCall_iff :
  w.OnCall p a ↔ ∀ i r c, a = .call i r → w.threads[i]? = some (.call c) → p c r
  := by
  constructor
  · rintro h i r c rfl hc
    rw [OnCall, hc] at h
    exact h
  · intro h
    cases a with
    | call i r =>
      unfold OnCall
      dsimp only
      split
      next c hc =>
        apply h i r c rfl hc
      · trivial
    | _ => trivial

end Watcher

end Periapsis.Node
