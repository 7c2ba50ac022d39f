import Periapsis.Node.WatcherEffect

/-!
# Records of probes and readiness

A new record of the probes of a container tells that it is ready unless it has a readiness probe.
-/

namespace Periapsis.Node

open Corev1 List Option PodStore ContainerProbeState

namespace PodStore

variable {s s' : PodStore} {uid name : String}

theorem probeState_apply (s : PodStore) (uid name : String) {op : StoreOp}
    (hop : op.byOthers) :
  (s.apply op).probeState uid name = s.probeState uid name
    ∨ (s.apply op).probeState uid name = none
    ∨ ∃ containers now, op.initPayload = some (uid, containers, now)
      ∧ (s.apply op).probeState uid name = initProbes containers now name
  := by
  cases s.apply_records op uid with
  | changed _ _ _ hpr => exact .inl (hpr name)
  | replaced _ hpr => exact (hpr name).imp_right .inl
  | begun _ hi hpr =>
    right
    exact (hpr name).imp_right fun heq => ⟨_, _, hi, heq⟩
  | probed hpo =>
    cases op with
    | updateProbeState | resetProbeState => cases hop
    | _ => cases hpo

theorem isContainerReady_of_record (h : (s'.probeState uid name).map unscheduled
      = (s.probeState uid name).map unscheduled) :
  s'.isContainerReady uid name = s.isContainerReady uid name
  := by
  have hre := congrArg (fun record => (record.map ready).getD true) h
  simpa [Option.map_map, Function.comp_def, ContainerProbeState.unscheduled, isContainerReady]
    using hre

end PodStore

namespace Watcher

def Specified (uid name : String) (hasReadinessProbe : Bool) (_ : Watcher) : WatcherAction → Prop
  | .pollBegin _ entries =>
    ∀ e ∈ entries, e.uid = uid → ∀ c ∈ e.pod.spec.containers, c.name = name →
      c.readinessProbe.isSome = hasReadinessProbe
  | .store op =>
    ∀ containers now, op.initPayload = some (uid, containers, now) →
      ∀ c ∈ containers, c.name = name → c.hasReadinessProbe = hasReadinessProbe
  | _ => True

def KeepsReady (uid name : String) (w : Watcher) : WatcherAction → Prop :=
  w.OnCall fun c _ =>
    c.point = .resetProbeState → c.uid = uid → c.container.name = name →
      ((w.store.pods.lookup uid).bind PodState.probes).isNone = true

def StaysAlive (uid name : String) (w : Watcher) : WatcherAction → Prop :=
  w.OnCall fun c r => c.uid = uid → c.container.name = name → w.livenessFails c r = false

instance decidableStaysAlive (uid name : String) (w : Watcher) (a : WatcherAction) :
    Decidable (w.StaysAlive uid name a) :=
  inferInstanceAs (Decidable (w.OnCall _ a))

structure NoReadiness (uid name : String) (w : Watcher) : Prop where
  targets : ∀ t ∈ pollTargets w.poll, t.uid = uid → t.container.name = name →
    t.container.readinessProbe = none
  calls : ∀ c, .call c ∈ w.threads → c.uid = uid → c.container.name = name →
    c.container.readinessProbe = none ∧ ∀ probe, c.point ≠ .readiness probe

variable {w w' : Watcher} {a : WatcherAction} {uid name : String}

theorem WatcherStep.noReadiness (h : WatcherStep w a w') (hw : w.NoReadiness uid name)
    (ha : w.Specified uid name false a) :
  w'.NoReadiness uid name
  := by
  constructor
  · intro t ht hui hn
    rcases h.target_cases ht with ho | ⟨listing, entries, rfl, hne⟩
    · apply hw.targets t ho hui hn
    · obtain ⟨e, he, ht⟩ := mem_flatMap.1 hne
      obtain ⟨c, hc, rfl⟩ := mem_map.1 ht
      have hno := ha e he hui c hc hn
      simpa using hno
  · intro c' hc' hui hn
    rcases h.call_cases hc' with ho | ⟨hta, hp⟩ | ⟨i, r, c, -, hc, point, rfl, hg⟩
    · apply hw.calls c' ho hui hn
    · refine ⟨hw.targets _ hta hui hn, ?_⟩
      intro probe heq
      rw [heq] at hp
      rcases hp with hp | ⟨-, hp⟩
      all_goals cases hp
    · have hno := (hw.calls c (mem_of_getElem? hc) hui hn).1
      refine ⟨hno, ?_⟩
      intro probe heq
      cases hno.symm.trans (hg.readiness probe heq)

theorem ready_evaluated {c : WatcherCall} (hf : c.Evaluates r f)
    (hp : ∀ probe, c.point ≠ .readiness probe) (state : ContainerProbeState) :
  (f state).1.ready = state.ready
  := by
  rcases hf with ⟨probe, -, rfl⟩ | ⟨probe, -, rfl⟩ | ⟨probe, heq, -⟩
  · unfold startupResult evalStartup
    split
    all_goals rfl
  · unfold livenessResult evalLiveness
    split
    all_goals rfl
  · exact absurd heq (hp probe)

theorem isContainerReady_apply {s : PodStore} {op : StoreOp} (hop : op.byOthers)
    (hs : s.isContainerReady uid name)
    (hsp : ∀ containers now, op.initPayload = some (uid, containers, now) →
      ∀ c ∈ containers, c.name = name → c.hasReadinessProbe = false) :
  (s.apply op).isContainerReady uid name
  := by
  rw [isContainerReady]
  rcases s.probeState_apply uid name hop with heq | hno | ⟨containers, now, hi, heq⟩
  · rw [heq]
    exact hs
  · rw [hno]
    rfl
  · rw [heq]
    cases hr : initProbes containers now name with
    | none => rfl
    | some state =>
      obtain ⟨c, hc, hn, t, rfl⟩ := initProbes_eq_some hr
      simp [hsp containers now hi c hc hn]

theorem WatcherStep.isContainerReady (h : WatcherStep w a w')
    (hre : w.store.isContainerReady uid name) (hw : w.NoReadiness uid name)
    (ha : w.Specified uid name false a) (hk : w.KeepsReady uid name a) :
  w'.store.isContainerReady uid name
  := by
  have hr : RecordStep uid name w a w' := h.record
  cases hr with
  | kept hr => rw [isContainerReady_of_record hr, hre]
  | @evaluated i r c w' f hc hco hf hr =>
    have hp := (hw.calls c (mem_of_getElem? hc) hco.1 hco.2).2
    have hsa := ready_evaluated hf hp
    have heq := congrArg (fun record => (record.map ready).getD true) hr
    simp only [Option.map_map, Function.comp_def, ContainerProbeState.unscheduled, hsa] at heq
    rw [PodStore.isContainerReady, heq]
    exact hre
  | @reset i r c w' hc hco hp hr =>
    have hno := onCall_iff.1 hk i r c rfl hc hp hco.1 hco.2
    rw [isContainerReady, hr, isNone_iff_eq_none.1 hno]
    rfl
  | others hop hr =>
    rw [hr]
    apply isContainerReady_apply hop hre ha

theorem keepsReady_of_step (h : ∀ w', watcher.step w a = some w' →
    w'.store.isContainerReady uid name) :
  w.KeepsReady uid name a
  := by
  apply onCall_iff.2
  rintro i r c rfl hc hp hui hn
  have hre := h _ (step_call hc)
  have hso : (replace i (w.callStep c r)).store = w.store.resetProbeState uid name r.now := by
    rw [replace, callStep, hp, hui, hn]
  rw [hso, isContainerReady, probeState_resetProbeState, if_pos ⟨rfl, rfl⟩] at hre
  cases hpr : (w.store.pods.lookup uid).bind PodState.probes with
  | none => rfl
  | some probes =>
    rw [hpr] at hre
    cases hre

theorem keepsReady_of_staysAlive {store : PodStore}
    (h : watcher.Meets (StaysAlive uid name) (newWatcher store) as) :
  watcher.Meets (KeepsReady uid name) (newWatcher store) as
  := by
  let P (w : Watcher) : Prop :=
    ∀ c, .call c ∈ w.threads → c.uid = uid → c.container.name = name → c.point ≠ .resetProbeState
  apply watcher.meets_of_invariant (P := P) _ _ _ h
  · intro c hc
    cases hc
  · intro u a v hu ha hv c' hc' hui hn hp
    rcases (step_step hv).call_cases hc' with
      ho | ⟨-, hst⟩ | ⟨i, r, c, rfl, hc, point, rfl, hg⟩
    · exact hu c' ho hui hn hp
    · rw [hp] at hst
      rcases hst with hst | ⟨-, hst⟩
      all_goals cases hst
    · have hal := onCall_iff.1 ha i r c rfl hc hui hn
      cases hal.symm.trans (hg.resetProbeState hp)
  · intro u a hu _
    apply onCall_iff.2
    intro i r c _ hc hp hui hn
    exact absurd hp (hu c (mem_of_getElem? hc) hui hn)

theorem isContainerReady_initRestartState (store : PodStore) {pod : ApiPod}
    (started probed : Nat → Time)
    (hpd : ∀ c ∈ pod.spec.containers, c.name = name → c.readinessProbe = none) :
  (store.initRestartState pod started probed).isContainerReady pod.uid name
  := by
  rw [isContainerReady, initRestartState, initRestartStateFrom,
    probeState, lookup_update, if_pos rfl]
  cases store.pods.lookup pod.uid with
  | none => rfl
  | some ps =>
    rw [map_some, bind_some, bind_some]
    cases hr : initProbes
        (pod.spec.containers.map fun c => ⟨c.name, c.readinessProbe.isSome⟩) probed name with
    | none => rfl
    | some state =>
      obtain ⟨c, hc, hn, t, rfl⟩ := initProbes_eq_some hr
      obtain ⟨container, hco, rfl⟩ := mem_map.1 hc
      simp [hpd container hco hn]

/-- Once its record is begun, a container without a readiness probe is ready at every moment of a
run if and only if no step begins its record anew. -/
theorem isContainerReady_iff (store : PodStore) (pod : ApiPod) (started probed : Nat → Time)
    (name : String) (as : List WatcherAction)
    (hpod : ∀ c ∈ pod.spec.containers, c.name = name → c.readinessProbe = none)
    (has : watcher.Meets (Specified pod.uid name false)
      (newWatcher (store.initRestartState pod started probed)) as) :
  ((∀ bs, bs <+: as → ∀ w,
        watcher.run (newWatcher (store.initRestartState pod started probed)) bs = some w →
          w.store.isContainerReady pod.uid name = true)
      ↔ watcher.Meets (KeepsReady pod.uid name)
        (newWatcher (store.initRestartState pod started probed)) as)
    ∧ (watcher.Meets (StaysAlive pod.uid name)
        (newWatcher (store.initRestartState pod started probed)) as →
      ∀ bs, bs <+: as → ∀ w,
        watcher.run (newWatcher (store.initRestartState pod started probed)) bs = some w →
          w.store.isContainerReady pod.uid name = true)
  := by
  have hst : NoReadiness pod.uid name
      (newWatcher (store.initRestartState pod started probed)) := by
    constructor
    · intro t ht
      cases ht
    · intro c hc
      cases hc
  have hif := watcher.forall_run_iff_meets_of_invariant
    (P := fun w : Watcher => w.store.isContainerReady pod.uid name = true)
    (C := KeepsReady pod.uid name)
    (isContainerReady_initRestartState store started probed hpod) hst
    (fun u a v _ hu ha hv => (step_step hv).noReadiness hu ha)
    (fun u a hre hu ha => ⟨keepsReady_of_step, fun hk v hv =>
      (step_step hv).isContainerReady hre hu ha hk⟩) has
  refine ⟨hif, ?_⟩
  intro hal
  exact hif.mpr (keepsReady_of_staysAlive hal)

end Watcher

def WatcherAction.bringsOnly (pod : ApiPod) : WatcherAction → Bool
  | .pollBegin _ entries => entries.all fun e => e.pod = pod
  | .store _ => false
  | _ => true

theorem specified_of_bringsOnly (pod : ApiPod) {name : String} {hasReadinessProbe : Bool}
    (w : Watcher)
    (hpd : ∀ c ∈ pod.spec.containers, c.name = name → c.readinessProbe.isSome = hasReadinessProbe)
    (has : ∀ a ∈ as, a.bringsOnly pod) :
  watcher.Meets (Watcher.Specified pod.uid name hasReadinessProbe) w as
  := by
  apply watcher.meets_of_forall
  intro a ha w
  have hb := has a ha
  cases a with
  | pollBegin listing entries =>
    intro e he _ c hc hn
    have heq : e.pod = pod := by
      simpa using all_eq_true.1 hb e he
    rw [heq] at hc
    apply hpd c hc hn
  | store op => cases hb
  | _ => trivial

def livenessRun (pod : ApiPod) (n : Nat) : List WatcherAction :=
  [pollOf pod .running 0, .fanOut fun _ => { sinceLast := 10 }] ++ failingCall n

/-- The liveness probe is evaluated, and passes. -/
def passingRun : List WatcherAction :=
  livenessRun (livenessPod .always) 1 ++ [.call 0 {}, .nextPod false, .check 0]

theorem isContainerReady_iff_passing :
  ∃ w, watcher.run (newWatcher (runningStore (livenessPod .always))) passingRun = some w
    ∧ w.store.isContainerReady "u" "c" = true
  := by
  have hru : watcher.run (newWatcher (runningStore (livenessPod .always))) passingRun = some _ :=
    rfl
  have hsp : watcher.Meets (Watcher.Specified "u" "c" false)
      (newWatcher (runningStore (livenessPod .always))) passingRun :=
    specified_of_bringsOnly (livenessPod .always) _ (by decide) (by decide)
  have hre := (Watcher.isContainerReady_iff
    (newPodStore.registerHydrated "u" (livenessPod .always) "10.0.0.2") (livenessPod .always)
    (fun _ => 1) (fun _ => 1) "c" passingRun (by decide) hsp).2
  have hal : watcher.Meets (Watcher.StaysAlive "u" "c")
      (newWatcher (runningStore (livenessPod .always))) passingRun := by
    decide
  exact ⟨_, hru, hre hal _ (prefix_refl _) _ hru⟩

theorem not_isContainerReady_liveness :
  ∃ w, watcher.run (newWatcher (runningStore (livenessPod .always)))
      (livenessRun (livenessPod .always) 3) = some w
    ∧ (livenessPod .always).spec.containers.all (fun c => c.readinessProbe.isNone) = true
    ∧ w.store.isContainerReady "u" "c" = false
  := ⟨_, rfl, rfl, by decide⟩

end Periapsis.Node
