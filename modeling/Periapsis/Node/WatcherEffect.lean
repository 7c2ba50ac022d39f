import Periapsis.Node.WatcherStep

/-!
# What a step of the watcher does to a container

Where the calls, the containers looked at, and the restarts of a watcher come from.
-/

namespace Periapsis.Node

open Corev1 Transition List PodStore

def CallPoint.gated : CallPoint → Bool
  | .liveness _ | .readiness _ => true
  | _ => false

def CallPoint.probes : CallPoint → Bool
  | .startup _ | .liveness _ | .readiness _ => true
  | _ => false

def CallPoint.restarts : CallPoint → Bool
  | .runProbes | .startup _ | .liveness _ | .readiness _ => false
  | _ => true

def CallPoint.launches : CallPoint → Bool
  | .launch _ _ => true
  | _ => false

theorem CallPoint.restarts_of_launches {point : CallPoint} (h : point.launches) :
  point.restarts
  := by
  cases point with
  | launch => rfl
  | _ => cases h

namespace Watcher

variable {w w' : Watcher} {c : WatcherCall} {r : CallReadings}

theorem policy_of_findsEnded (h : w.findsEnded a = some t) :
  t.pod.spec.restartPolicy ≠ .never
  := by
  unfold findsEnded at h
  split at h
  · obtain ⟨p, -, h⟩ := Option.bind_eq_some_iff.1 h
    have hen := (Option.filter_eq_some_iff.1 h).2
    intro hn
    simp only [hn, effectivePolicy, Bool.and_eq_true] at hen
    revert hen
    cases ((p.listing t.key).map PodMetadata.state).getD .exited with
    | _ => simp [restartsEnded]
  · cases h

structure GoesTo (w : Watcher) (c : WatcherCall) (r : CallReadings) (point : CallPoint) : Prop where
  resetProbeState : point = .resetProbeState → w.livenessFails c r = true
  readiness : ∀ probe, point = .readiness probe → c.container.readinessProbe = some probe
  gated : point.gated = true → c.point.gated = true ∨ w.PastStartup c.toTarget
  restarts : point.restarts = true → c.point.restarts = true ∨ w.startupFails c r = true
    ∨ w.livenessFails c r = true ∧ point = .resetProbeState

variable {result : Watcher × List Thread} {run : RestartRun} {a : WatcherAction}

theorem CallStep.of_mem (h : CallStep w c r result) (hc' : .call c' ∈ result.2) :
  ∃ point, c' = c.next point ∧ w.GoesTo c r point
  := by
  have hg {point : CallPoint} (hm : .call c' ∈ [Thread.call (c.next point)])
      (hp : w.GoesTo c r point) :
      ∃ point, c' = c.next point ∧ w.GoesTo c r point := by
    refine ⟨point, ?_, hp⟩
    cases mem_singleton.1 hm
    rfl
  have hpr {probe : Probe} (hpr : c.container.readinessProbe = some probe)
      (hga : c.point.gated ∨ w.PastStartup c.toTarget) :
      w.GoesTo c r (.readiness probe) := by
    refine ⟨nofun, ?_, fun _ => hga, nofun⟩
    rintro _ ⟨⟩
    exact hpr
  have hrs {before after : CallPoint} (hp : c.point = before)
      (ha : after ≠ .resetProbeState ∧ (∀ probe, after ≠ .readiness probe)
        ∧ after.gated = false ∧ before.restarts) :
      w.GoesTo c r after := by
    obtain ⟨hrt, hra, hga, hb⟩ := ha
    refine ⟨fun heq => absurd heq hrt, fun probe heq => absurd heq (hra probe), ?_, ?_⟩
    · intro heq
      cases hga.symm.trans heq
    · intro _
      rw [hp]
      exact .inl hb
  cases h with
  | notDue | readiness | marked | release => cases hc'
  | startupDue => exact hg hc' ⟨nofun, nofun, nofun, nofun⟩
  | livenessDue _ _ hst => exact hg hc' ⟨nofun, nofun, fun _ => .inr hst, nofun⟩
  | readinessDue _ hn _ hst => exact hg hc' (hpr hn (.inr hst))
  | startup hp hts =>
    subst hts
    split at hc'
    next hfa =>
      refine hg hc' ⟨nofun, nofun, nofun, ?_⟩
      intro _
      rw [startupFails, hp]
      exact .inr (.inl hfa)
    · cases hc'
  | livenessFailed hp hfa =>
    have hfa : w.livenessFails c r := by
      rw [livenessFails, hp]
      exact hfa
    exact hg hc' ⟨fun _ => hfa, nofun, nofun, fun _ => .inr (.inr ⟨hfa, rfl⟩)⟩
  | livenessPassed hp _ hts =>
    rcases hts with rfl | ⟨probe, hn, rfl⟩
    · cases hc'
    · apply hg hc' (hpr hn (.inl _))
      rw [hp]
      rfl
  | maybeRestart hp hts =>
    rcases hts with rfl | rfl
    · cases hc'
    · exact hg hc' (hrs hp ⟨nofun, nofun, rfl, rfl⟩)
  | resetProbeState hp | acquire hp | notCounted hp | counted hp =>
    exact hg hc' (hrs hp ⟨nofun, nofun, rfl, rfl⟩)
  | launch => cases mem_singleton.1 hc'

theorem CallStep.of_restart_mem (h : CallStep w c r result) (hru : .restart run ∈ result.2) :
  c.point.launches ∧ run.uid = c.uid ∧ run.pod = c.pod
    ∧ run.containerName = c.container.name
  := by
  cases h with
  | launch hp =>
    cases mem_singleton.1 hru
    rw [hp]
    exact ⟨rfl, rfl, rfl, rfl⟩
  | startup _ hts =>
    subst hts
    split at hru
    · cases mem_singleton.1 hru
    · cases hru
  | livenessPassed _ _ hts =>
    rcases hts with rfl | ⟨probe, -, rfl⟩
    · cases hru
    · cases mem_singleton.1 hru
  | maybeRestart _ hts =>
    rcases hts with rfl | rfl
    · cases hru
    · cases mem_singleton.1 hru
  | notDue | readiness | marked | release => cases hru
  | _ => cases mem_singleton.1 hru

theorem CallStep.of_unprobed_mem (h : CallStep w c r result) (hru : run ∈ result.1.unprobed) :
  run ∈ w.unprobed ∧ (c.uid = run.uid → c.container.name = run.containerName →
    c.point.probes = false)
  := by
  have hpb (hm : run ∈ (w.probed c.toTarget).unprobed) :
      run ∈ w.unprobed ∧ (c.uid = run.uid → c.container.name = run.containerName →
        c.point.probes = false) := by
    obtain ⟨hol, ho⟩ := mem_filter.1 hm
    refine ⟨hol, ?_⟩
    intro hui hna
    simp [hui, hna] at ho
  cases h with
  | startup | livenessFailed | livenessPassed | readiness => exact hpb hru
  | notDue hp | startupDue hp | livenessDue hp | readinessDue hp
  | resetProbeState hp | maybeRestart hp | marked hp | acquire hp
  | notCounted hp | counted hp | release hp | launch hp =>
    refine ⟨hru, ?_⟩
    rw [hp]
    exact fun _ _ => rfl

section

variable (h : WatcherStep w a w')
include h

theorem WatcherStep.thread_cases (ht : t ∈ w'.threads) :
  t ∈ w.threads
    ∨ (∃ target ∈ pollTargets w.poll, t = .call { target with point := .runProbes }
      ∨ w.findsEnded a = some target ∧ t = .call { target with point := .maybeRestart })
    ∨ (∃ i r c result, a = .call i r ∧ w.threads[i]? = some (.call c) ∧ CallStep w c r result
      ∧ t ∈ result.2)
    ∨ ∃ (i : Nat) (run : RestartRun), w.threads[i]? = some (.restart run)
      ∧ t = .restart { run with ended := true }
  := by
  cases h with
  | pollBegin | quiet | store => exact .inl ht
  | @fanOut _ _ _ target _ hta _ _ hth =>
    rcases hth with rfl | rfl
    · exact .inl ht
    · apply (mem_append.1 ht).imp_right
      intro hne
      exact .inl ⟨target, hta, .inl (mem_singleton.1 hne)⟩
  | @running _ _ target _ _ hta | @stable _ _ target _ _ hta =>
    apply (mem_append.1 ht).imp_right
    intro hne
    exact .inl ⟨target, hta, .inl (mem_singleton.1 hne)⟩
  | @ended _ _ target _ _ _ hta _ hth =>
    rcases hth with rfl | ⟨hpo, rfl⟩
    · exact .inl ht
    · apply (mem_append.1 ht).imp_right
      intro hne
      exact .inl ⟨target, hta, .inr ⟨hpo, mem_singleton.1 hne⟩⟩
  | @call i r c result hc hr =>
    apply (mem_splice ht).imp
    · rw [hr.threads_eq]
      exact id
    · intro hne
      exact .inr (.inl ⟨i, r, c, result, rfl, hc, hr, hne⟩)
  | @restart i ok now run result hru hr =>
    apply (mem_splice ht).imp
    · rw [hr.threads_eq]
      exact id
    · intro hne
      cases hr with
      | released => cases hne
      | completed | failed =>
        exact .inr (.inr ⟨i, run, hru, mem_singleton.1 hne⟩)

theorem WatcherStep.call_cases (hc' : .call c' ∈ w'.threads) :
  .call c' ∈ w.threads
    ∨ c'.toTarget ∈ pollTargets w.poll ∧ (c'.point = .runProbes
      ∨ w.findsEnded a = some c'.toTarget ∧ c'.point = .maybeRestart)
    ∨ ∃ i r c, a = .call i r ∧ w.threads[i]? = some (.call c)
      ∧ ∃ point, c' = c.next point ∧ w.GoesTo c r point
  := by
  rcases h.thread_cases hc' with
    hol | ⟨target, hta, heq | ⟨hpo, heq⟩⟩ | ⟨i, r, c, result, rfl, hc, hr, hne⟩
      | ⟨i, run, -, heq⟩
  · exact .inl hol
  · cases heq
    exact .inr (.inl ⟨hta, .inl rfl⟩)
  · cases heq
    exact .inr (.inl ⟨hta, .inr ⟨hpo, rfl⟩⟩)
  · exact .inr (.inr ⟨i, r, c, rfl, hc, hr.of_mem hne⟩)
  · cases heq

theorem WatcherStep.restart_cases (hru : .restart run ∈ w'.threads) :
  (∃ old, .restart old ∈ w.threads ∧ (run = old ∨ run = { old with ended := true }))
    ∨ ∃ i r c, a = .call i r ∧ w.threads[i]? = some (.call c) ∧ c.point.launches
      ∧ run.uid = c.uid ∧ run.pod = c.pod ∧ run.containerName = c.container.name
  := by
  rcases h.thread_cases hru with
    hol | ⟨target, -, heq | ⟨-, heq⟩⟩ | ⟨i, r, c, result, rfl, hc, hr, hne⟩
      | ⟨i, old, hol, heq⟩
  · exact .inl ⟨run, hol, .inl rfl⟩
  · cases heq
  · cases heq
  · exact .inr ⟨i, r, c, rfl, hc, hr.of_restart_mem hne⟩
  · obtain rfl := Thread.restart.inj heq
    exact .inl ⟨old, mem_of_getElem? hol, .inr rfl⟩

theorem WatcherStep.launched_cases (hru : .launched run ∈ w'.events) :
  .launched run ∈ w.events
    ∨ ∃ i r c, a = .call i r ∧ w.threads[i]? = some (.call c) ∧ c.point.launches
      ∧ run.pod = c.pod
  := by
  cases h with
  | stable =>
    rcases mem_append.1 hru with hol | hne
    · exact .inl hol
    · cases mem_singleton.1 hne
  | @call i r c result hc hr =>
    cases hr with
    | launch hp =>
      rcases mem_append.1 hru with hol | hne
      · exact .inl hol
      · cases mem_singleton.1 hne
        refine .inr ⟨i, r, c, rfl, hc, ?_, rfl⟩
        rw [hp]
        rfl
    | _ => exact .inl hru
  | restart _ hr =>
    cases hr with
    | _ => exact .inl hru
  | _ => exact .inl hru

theorem WatcherStep.target_cases (ht : t ∈ pollTargets w'.poll) :
  t ∈ pollTargets w.poll
    ∨ ∃ listing entries, a = .pollBegin listing entries ∧ t ∈ entries.flatMap PodEntry.targets
  := by
  cases h with
  | pollBegin htr => exact .inr ⟨_, _, rfl, htr t ht⟩
  | quiet _ htr | fanOut _ _ htr | running _ _ htr | stable _ _ htr
  | ended _ _ htr => exact .inl (htr t ht)
  | call _ hr =>
    left
    rw [← hr.poll_eq]
    exact ht
  | restart _ hr =>
    left
    cases hr with
    | _ => exact ht
  | store => exact .inl ht

end

def NotProbed (uid name : String) (w : Watcher) : WatcherAction → Prop :=
  w.OnCall fun c _ => c.uid = uid → c.container.name = name → c.point.probes = false

theorem WatcherStep.unprobed_cases (h : WatcherStep w a w') (hru : run ∈ w'.unprobed) :
  run ∈ w.unprobed ∧ w.NotProbed run.uid run.containerName a
    ∨ ∃ i now, a = .restart i true now ∧ w.threads[i]? = some (.restart run) ∧ run.ended = false
  := by
  cases h with
  | call hc hr =>
    left
    obtain ⟨hol, hp⟩ := hr.of_unprobed_mem hru
    refine ⟨hol, ?_⟩
    rw [NotProbed, OnCall, hc]
    exact hp
  | @restart i ok now run' result hte hr =>
    cases hr with
    | released | failed => exact .inl ⟨hru, trivial⟩
    | completed hen =>
      rcases mem_append.1 hru with hol | hne
      · exact .inl ⟨hol, trivial⟩
      · obtain rfl := mem_singleton.1 hne
        exact .inr ⟨i, now, rfl, hte, hen⟩
  | pollBegin | fanOut | running | stable | ended | store => exact .inl ⟨hru, trivial⟩
  | quiet hca => exact .inl ⟨hru, onCall_of_isCall hca⟩

end Watcher

def WatcherCall.Evaluates (c : WatcherCall) (r : CallReadings)
    (f : ContainerProbeState → ContainerProbeState × Bool) : Prop :=
  (∃ probe, c.point = .startup probe ∧ f = Watcher.startupResult probe r)
    ∨ (∃ probe, c.point = .liveness probe ∧ f = Watcher.livenessResult probe r)
    ∨ ∃ probe, c.point = .readiness probe ∧ f = Watcher.readinessResult probe r

namespace Watcher

inductive RecordStep (uid name : String) (w : Watcher) : WatcherAction → Watcher → Prop
  | kept {a : WatcherAction} {w' : Watcher}
      (hrecord : (w'.store.probeState uid name).map ContainerProbeState.unscheduled
        = (w.store.probeState uid name).map ContainerProbeState.unscheduled) :
      RecordStep uid name w a w'
  | evaluated {i : Nat} {r : CallReadings} {c : WatcherCall} {w' : Watcher}
      {f : ContainerProbeState → ContainerProbeState × Bool}
      (hc : w.threads[i]? = some (.call c)) (hcontainer : c.uid = uid ∧ c.container.name = name)
      (hf : c.Evaluates r f)
      (hrecord : (w'.store.probeState uid name).map ContainerProbeState.unscheduled
        = (w.store.probeState uid name).map fun state => (f state).1.unscheduled)
      (hunprobed : w'.unprobed = (w.probed c.toTarget).unprobed) :
      RecordStep uid name w (.call i r) w'
  | reset {i : Nat} {r : CallReadings} {c : WatcherCall} {w' : Watcher}
      (hc : w.threads[i]? = some (.call c)) (hcontainer : c.uid = uid ∧ c.container.name = name)
      (hpoint : c.point = .resetProbeState)
      (hrecord : w'.store.probeState uid name
        = ((w.store.pods.lookup uid).bind PodState.probes).map fun _ => { startedAt := r.now }) :
      RecordStep uid name w (.call i r) w'
  | others {op : StoreOp} {w' : Watcher} (hop : op.byOthers = true)
      (hrecord : w'.store = w.store.apply op) :
      RecordStep uid name w (.store op) w'

variable {uid name : String}

theorem RecordStep.of_evalProbe (hc : w.threads[i]? = some (.call c)) (hf : c.Evaluates r f)
    (hs : SameRecords (w.evalProbe c f).1.store w'.store)
    (hu : w'.unprobed = (w.probed c.toTarget).unprobed) :
  RecordStep uid name w (.call i r) w'
  := by
  have hre := hs.probeState uid name
  have hev : (w.evalProbe c f).1.store
      = w.store.updateProbeState c.uid c.container.name fun state => (f state).1 := rfl
  rw [hev, probeState_updateProbeState] at hre
  split at hre
  next heq =>
    obtain ⟨rfl, rfl⟩ := heq
    rw [Option.map_map] at hre
    exact .evaluated hc ⟨rfl, rfl⟩ hf hre hu
  · exact .kept hre

theorem RecordStep.of_probeState (h : w'.store.probeState uid name = w.store.probeState uid name) :
  RecordStep uid name w a w'
  := by
  apply RecordStep.kept
  rw [h]

theorem CallStep.record {result : Watcher × List Thread} (h : CallStep w c r result)
    (hc : w.threads[i]? = some (.call c)) :
  RecordStep uid name w (.call i r) (replace i result)
  := by
  cases h with
  | notDue _ hs | startupDue _ hs | livenessDue _ hs | readinessDue _ _ hs =>
    exact .kept (hs.probeState uid name)
  | startup hp =>
    exact .of_evalProbe hc (.inl ⟨_, hp, rfl⟩) (SameRecords.refl _) rfl
  | livenessFailed hp =>
    exact .of_evalProbe hc (.inr (.inl ⟨_, hp, rfl⟩)) (SameRecords.refl _) rfl
  | livenessPassed hp hs =>
    exact .of_evalProbe hc (.inr (.inl ⟨_, hp, rfl⟩)) hs rfl
  | readiness hp =>
    exact .of_evalProbe hc (.inr (.inr ⟨_, hp, rfl⟩)) (SameRecords.refl _) rfl
  | resetProbeState hp =>
    by_cases heq : uid = c.uid ∧ name = c.container.name
    · obtain ⟨rfl, rfl⟩ := heq
      apply RecordStep.reset hc ⟨rfl, rfl⟩ hp
      apply (probeState_resetProbeState _ _ _ _).trans
      exact if_pos ⟨rfl, rfl⟩
    · apply RecordStep.of_probeState
      apply (probeState_resetProbeState _ _ _ _).trans
      exact if_neg heq
  | notCounted | counted =>
    apply RecordStep.of_probeState
    apply probeState_bumpBackoff
  | maybeRestart | marked | acquire | release | launch => exact .of_probeState rfl

theorem WatcherStep.record (h : WatcherStep w a w') :
  RecordStep uid name w a w'
  := by
  cases h with
  | pollBegin | quiet | running => exact .of_probeState rfl
  | fanOut _ hs => exact .kept (hs.probeState uid name)
  | stable => exact .of_probeState (probeState_update_of_probes _ _ fun _ => rfl)
  | ended =>
    apply RecordStep.of_probeState
    apply probeState_update_of_probes
    intro ps
    obtain ⟨status, heq⟩ := ps.setContainerState_eq _ _ _ _
    rw [heq]
  | call hc hr => apply hr.record hc
  | restart _ hr =>
    cases hr with
    | released | failed => exact .of_probeState rfl
    | completed =>
      exact .of_probeState (probeState_update_of_probes _ _ fun _ => rfl)
  | store hop => exact .others hop rfl

end Watcher

end Periapsis.Node
