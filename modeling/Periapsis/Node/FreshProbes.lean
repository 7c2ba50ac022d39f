import Periapsis.Node.ProbeRecords

/-!
# Probes after a restart

A restarted container should be probed like a new one: with a fresh record, and with its other
probes waiting for the startup probe.
-/

namespace Periapsis.Node

open Corev1 Transition List Option PodStore ContainerProbeState

/-- The record is as it is begun. -/
structure ContainerProbeState.Fresh (hasReadinessProbe : Bool) (state : ContainerProbeState) :
    Prop where
  startupPassed : state.startupPassed = false
  startupFailCount : state.startupFailCount = 0
  liveFailCount : state.liveFailCount = 0
  readyFailCount : state.readyFailCount = 0
  readySuccessCount : state.readySuccessCount = 0
  ready : hasReadinessProbe = true → state.ready = false

namespace ContainerProbeState

variable {hasReadinessProbe : Bool} {state : ContainerProbeState}

theorem fresh_iff :
  state.Fresh hasReadinessProbe ↔ state.startupPassed = false ∧ state.startupFailCount = 0
    ∧ state.liveFailCount = 0 ∧ state.readyFailCount = 0 ∧ state.readySuccessCount = 0
    ∧ (hasReadinessProbe → state.ready = false)
  := by
  constructor
  all_goals
    rintro ⟨h₁, h₂, h₃, h₄, h₅, h₆⟩
    exact ⟨h₁, h₂, h₃, h₄, h₅, h₆⟩

theorem fresh_unscheduled :
  state.unscheduled.Fresh hasReadinessProbe ↔ state.Fresh hasReadinessProbe
  := by
  rw [fresh_iff, fresh_iff]
  rfl

theorem fresh_begun (startedAt : Time) {ready : Bool}
    (h : hasReadinessProbe → ready = false) :
  ContainerProbeState.Fresh hasReadinessProbe { startedAt := startedAt, ready := ready }
  := ⟨rfl, rfl, rfl, rfl, rfl, h⟩

end ContainerProbeState

/-- The thread is on the way to a restart of the container: it has asked for one and
is past the reset of its record, or carries one out. -/
def Thread.restartsFor (uid name : String) : Thread → Bool
  | .call c =>
    c.uid = uid ∧ c.container.name = name ∧ c.point.restarts = true ∧ c.point ≠ .resetProbeState
  | .restart run => run.uid = uid ∧ run.containerName = name ∧ run.ended = false

/-- The thread evaluates no probe of the container that waits for its startup probe. -/
def Thread.Waits (uid name : String) : Thread → Prop
  | .call c =>
    c.uid = uid → c.container.name = name → c.container.startupProbe.isSome = true →
      c.point.gated = false
  | .restart _ => True

instance decidableWaits (uid name : String) : (t : Thread) → Decidable (t.Waits uid name)
  | .call c =>
    inferInstanceAs (Decidable (c.uid = uid → c.container.name = name →
      c.container.startupProbe.isSome = true → c.point.gated = false))
  | .restart _ => isTrue trivial

namespace Watcher

structure Fresh (uid name : String) (hasReadinessProbe : Bool) (w : Watcher) : Prop where
  record : ∀ state, w.store.probeState uid name = some state → state.Fresh hasReadinessProbe
  threads : ∀ t ∈ w.threads, t.Waits uid name

def BeginsFresh (uid name : String) (hasReadinessProbe : Bool) (w : Watcher) : Prop :=
  ∀ run ∈ w.unprobed, run.uid = uid → run.containerName = name →
    w.Fresh uid name hasReadinessProbe

/-- Only the liveness probe asks for restarts, no other probe that waits for the startup probe is
under way when the record is begun anew, and no result is recorded until the restart. -/
def ResetsFirst (uid name : String) (w : Watcher) (a : WatcherAction) : Prop :=
  (∀ t ∈ w.findsEnded a, ¬ (t.uid = uid ∧ t.container.name = name))
    ∧ w.OnCall (fun c r => c.uid = uid → c.container.name = name →
      w.startupFails c r = false
        ∧ (c.point = .resetProbeState → ∀ t ∈ w.threads, t.Waits uid name)
        ∧ (c.point.probes = true → ∀ t ∈ w.threads, t.restartsFor uid name = false)) a

variable {w w' : Watcher} {a : WatcherAction} {uid name : String} {hasReadinessProbe : Bool}

instance decidableResetsFirst (uid name : String) (w : Watcher) (a : WatcherAction) :
    Decidable (w.ResetsFirst uid name a) :=
  inferInstanceAs (Decidable (_ ∧ w.OnCall _ a))

theorem fresh_apply {s : PodStore} {op : StoreOp} (hop : op.byOthers)
    (hs : ∀ state, s.probeState uid name = some state → state.Fresh hasReadinessProbe)
    (hsp : ∀ containers now, op.initPayload = some (uid, containers, now) →
      ∀ c ∈ containers, c.name = name → c.hasReadinessProbe = hasReadinessProbe) :
  ∀ state, (s.apply op).probeState uid name = some state → state.Fresh hasReadinessProbe
  := by
  intro state hst
  rcases s.probeState_apply uid name hop with heq | hno | ⟨containers, now, hi, heq⟩
  · apply hs state (heq.symm.trans hst)
  · cases hno.symm.trans hst
  · obtain ⟨c, hc, hn, t, rfl⟩ := initProbes_eq_some (heq.symm.trans hst)
    apply fresh_begun
    intro hra
    rw [hsp containers now hi c hc hn, hra]
    rfl

theorem probes_of_evaluates {c : WatcherCall} (h : c.Evaluates r f) :
  c.point.probes
  := by
  rcases h with ⟨probe, hp, -⟩ | ⟨probe, hp, -⟩ | ⟨probe, hp, -⟩
  all_goals
    rw [hp]
    rfl

theorem WatcherStep.fresh_record (h : WatcherStep w a w')
    (hw : ∀ state, w.store.probeState uid name = some state → state.Fresh hasReadinessProbe)
    (ha : w.Specified uid name hasReadinessProbe a) (hpr : w.NotProbed uid name a) :
  ∀ state, w'.store.probeState uid name = some state → state.Fresh hasReadinessProbe
  := by
  have hre : RecordStep uid name w a w' := h.record
  intro state hst
  cases hre with
  | kept hre =>
    rw [hst, map_some] at hre
    obtain ⟨old, ho, heq⟩ := map_eq_some_iff.1 hre.symm
    rw [← fresh_unscheduled, ← heq, fresh_unscheduled]
    apply hw old ho
  | @evaluated i r c w' f hc hco hf =>
    have hnt := onCall_iff.1 hpr i r c rfl hc hco.1 hco.2
    cases hnt.symm.trans (probes_of_evaluates hf)
  | reset _ _ _ hre =>
    obtain ⟨_, -, rfl⟩ := map_eq_some_iff.1 (hre.symm.trans hst)
    apply fresh_begun
    intro _
    rfl
  | others hop hso =>
    rw [hso] at hst
    apply fresh_apply hop hw ha state hst

theorem WatcherStep.waits (h : WatcherStep w a w') (hw : w.Fresh uid name hasReadinessProbe) :
  ∀ t ∈ w'.threads, t.Waits uid name
  := by
  intro t ht
  cases t with
  | restart run => trivial
  | call c' =>
    intro hui hn hpo
    rcases h.call_cases ht with ho | ⟨-, hp⟩ | ⟨i, r, c, -, hc, point, rfl, hgo⟩
    · apply hw.threads _ ho hui hn hpo
    · rcases hp with hp | ⟨-, hp⟩
      all_goals
        rw [hp]
        rfl
    · rw [← Bool.not_eq_true]
      intro hg
      rcases hgo.gated hg with hb | ⟨state, hst, hpa⟩
      · have hwa := hw.threads _ (mem_of_getElem? hc) hui hn hpo
        cases hwa.symm.trans hb
      · obtain rfl : c.uid = uid := hui
        obtain rfl : c.container.name = name := hn
        have hfr := (hw.record state hst).startupPassed
        cases hfr.symm.trans (hpa hpo)

theorem WatcherStep.fresh (h : WatcherStep w a w') (hw : w.Fresh uid name hasReadinessProbe)
    (ha : w.Specified uid name hasReadinessProbe a) (hpr : w.NotProbed uid name a) :
  w'.Fresh uid name hasReadinessProbe
  := ⟨h.fresh_record hw.record ha hpr, h.waits hw⟩

/-- What holds along a run: as long as a restart of the container is under way, and after it until
the container is probed, its record is fresh. -/
structure StaysFresh (uid name : String) (hasReadinessProbe : Bool) (w : Watcher) : Prop where
  restarting : ∀ t ∈ w.threads, t.restartsFor uid name = true → w.Fresh uid name hasReadinessProbe
  unprobed : w.BeginsFresh uid name hasReadinessProbe

theorem notProbed_of_restarts (ht : t ∈ w.threads) (hr : t.restartsFor uid name)
    (ha : w.ResetsFirst uid name a) :
  w.NotProbed uid name a
  := by
  apply onCall_iff.2
  intro i r c heq hc hui hn
  rw [← Bool.not_eq_true]
  intro hp
  have hno := (onCall_iff.1 ha.2 i r c heq hc hui hn).2.2 hp t ht
  cases hno.symm.trans hr

theorem WatcherStep.fresh_of_reset {c : WatcherCall} (h : WatcherStep w (.call i r) w')
    (hc : w.threads[i]? = some (.call c)) (hp : c.point = .resetProbeState)
    (hth : ∀ t ∈ w.threads, t.Waits c.uid c.container.name) :
  w'.Fresh c.uid c.container.name hasReadinessProbe
  := by
  cases h with
  | quiet hca => cases hca
  | call hc' hr =>
    cases hc.symm.trans hc'
    cases hr with
    | resetProbeState =>
      constructor
      · intro state hst
        change (w.store.resetProbeState c.uid c.container.name r.now).probeState _ _ = _ at hst
        rw [probeState_resetProbeState, if_pos ⟨rfl, rfl⟩] at hst
        obtain ⟨_, -, rfl⟩ := map_eq_some_iff.1 hst
        exact fresh_begun _ fun _ => rfl
      · intro t ht
        rcases mem_splice ht with ho | hne
        · exact hth t ho
        · cases mem_singleton.1 hne
          exact fun _ _ _ => rfl
    | _ hp' => cases hp.symm.trans hp'

theorem WatcherStep.fresh_of_restarts (h : WatcherStep w a w')
    (hw : ∀ t ∈ w.threads, t.restartsFor uid name → w.Fresh uid name hasReadinessProbe)
    (hsp : w.Specified uid name hasReadinessProbe a) (ha : w.ResetsFirst uid name a)
    (ht : t ∈ w'.threads) (hr : t.restartsFor uid name) :
  w'.Fresh uid name hasReadinessProbe
  := by
  -- a thread that was on the way to the restart before the step
  have hol {t : Thread} (ht : t ∈ w.threads) (hr : t.restartsFor uid name) :
      w'.Fresh uid name hasReadinessProbe :=
    h.fresh (hw t ht hr) hsp (notProbed_of_restarts ht hr ha)
  cases t with
  | call c' =>
    simp only [Thread.restartsFor, decide_eq_true_eq] at hr
    obtain ⟨rfl, rfl, hrs, hne⟩ := hr
    rcases h.call_cases ht with ho | ⟨-, hp | ⟨hen, -⟩⟩ | ⟨i, r, c, rfl, hc, point, rfl, hgo⟩
    · exact hol ho (by simp [Thread.restartsFor, hrs, hne])
    · rw [hp] at hrs
      cases hrs
    · exact absurd ⟨rfl, rfl⟩ (ha.1 _ hen)
    · obtain ⟨hsu, hwa, -⟩ := onCall_iff.1 ha.2 i r c rfl hc rfl rfl
      rcases hgo.restarts hrs with hb | hfa | ⟨-, heq⟩
      · by_cases hp : c.point = .resetProbeState
        · exact h.fresh_of_reset (c := c) hc hp (hwa hp)
        · exact hol (mem_of_getElem? hc) (by simp [Thread.restartsFor, hb, hp, WatcherCall.next])
      · cases hsu.symm.trans hfa
      · exact absurd heq hne
  | restart run =>
    simp only [Thread.restartsFor, decide_eq_true_eq] at hr
    obtain ⟨rfl, rfl, hen⟩ := hr
    rcases h.restart_cases ht with ⟨old, ho, rfl | rfl⟩ | ⟨i, r, c, rfl, hc, hl, hui, -, hn⟩
    · exact hol ho (by simp [Thread.restartsFor, hen])
    · cases hen
    · have hp : c.point ≠ .resetProbeState := by
        intro heq
        rw [heq] at hl
        cases hl
      exact hol (mem_of_getElem? hc)
        (by simp [Thread.restartsFor, hui, hn, hp, CallPoint.restarts_of_launches hl])

theorem WatcherStep.staysFresh (h : WatcherStep w a w')
    (hw : w.StaysFresh uid name hasReadinessProbe)
    (hsp : w.Specified uid name hasReadinessProbe a) (ha : w.ResetsFirst uid name a) :
  w'.StaysFresh uid name hasReadinessProbe
  := by
  constructor
  · intro t
    exact h.fresh_of_restarts hw.restarting hsp ha
  · rintro run hru rfl rfl
    rcases h.unprobed_cases hru with ⟨ho, hpr⟩ | ⟨i, now, rfl, hth, hen⟩
    · exact h.fresh (hw.unprobed run ho rfl rfl) hsp hpr
    · have hfr := hw.restarting _ (mem_of_getElem? hth) (by simp [Thread.restartsFor, hen])
      exact h.fresh hfr hsp trivial

/-- In a run that meets `ResetsFirst`, the record of the container is fresh after every restart and
before the next probe, and its other probes wait for the startup probe. -/
theorem beginsFresh_of_resetsFirst (store : PodStore) {uid name : String}
    {hasReadinessProbe : Bool} {as : List WatcherAction}
    (has : watcher.Meets (Specified uid name hasReadinessProbe) (newWatcher store) as)
    (hresets : watcher.Meets (ResetsFirst uid name) (newWatcher store) as) {w : Watcher}
    (hrun : watcher.run (newWatcher store) as = some w) :
  w.BeginsFresh uid name hasReadinessProbe
  := by
  have hfi := watcher.run_induction (P := StaysFresh uid name hasReadinessProbe) ?_ ?_
    (watcher.meets_and has hresets) hrun
  · exact hfi.unprobed
  · constructor
    · intro t ht
      cases ht
    · intro run hru
      cases hru
  · intro u a v hu ha hv
    exact (step_step hv).staysFresh hu ha.1 ha.2

end Watcher

def probedPod : ApiPod where
  spec :=
    { containers :=
        [{ name := "c"
           startupProbe := some { failureThreshold := 1 }
           livenessProbe := some { failureThreshold := 1 }
           readinessProbe := some {} }] }
  uid := "u"
  podNamespace := "default"
  name := "web"

def livenessRestart : List WatcherAction :=
  livenessRun probedPod 1 ++ [.call 0 {}, .nextPod false, .check 0] ++ failingCall 7
    ++ [.restart 0 true 0]

theorem beginsFresh_of_resetsFirst_liveness :
  ∃ w, watcher.run (newWatcher (runningStore probedPod)) livenessRestart = some w
    ∧ w.unprobed.length = 1 ∧ w.BeginsFresh "u" "c" true
  := by
  have hcm : (watcher.run (newWatcher (runningStore probedPod)) livenessRestart).map
      (fun w => w.unprobed.length) = some 1 := by
    decide
  obtain ⟨w, hru, hle⟩ := map_eq_some_iff.mp hcm
  have hsp : watcher.Meets (Watcher.Specified "u" "c" true)
      (newWatcher (runningStore probedPod)) livenessRestart :=
    specified_of_bringsOnly probedPod _ (by decide) (by decide)
  have hk : watcher.Meets (Watcher.ResetsFirst "u" "c")
      (newWatcher (runningStore probedPod)) livenessRestart := by
    decide
  exact ⟨w, hru, hle, Watcher.beginsFresh_of_resetsFirst _ hsp hk hru⟩

theorem not_beginsFresh_startup :
  ∃ w run, watcher.run (newWatcher (runningStore probedPod))
      (livenessRun probedPod 6 ++ [.restart 0 true 0]) = some w
    ∧ w.unprobed = [run] ∧ run.uid = "u" ∧ run.containerName = "c"
    ∧ (w.store.probeState "u" "c").map ContainerProbeState.startupFailCount = some 1
  := ⟨_, _, rfl, rfl, rfl, rfl, by decide⟩

end Periapsis.Node
