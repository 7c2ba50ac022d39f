import Periapsis.Node.WatcherEffect

/-!
# Restart policies and probes

When a container has ended, the watcher restarts it only if the restart policy of its pod says so.
-/

namespace Periapsis.Node

open List

namespace Watcher

def RespectsNever (w : Watcher) : WatcherAction → Prop :=
  w.OnCall fun c r =>
    c.pod.spec.restartPolicy = .never →
      w.startupFails c r = false ∧ w.livenessFails c r = false

instance decidableRespectsNever (w : Watcher) (a : WatcherAction) :
    Decidable (w.RespectsNever a) :=
  inferInstanceAs (Decidable (w.OnCall _ a))

end Watcher

def Thread.Permitted : Thread → Prop
  | .call c => c.point.restarts = true → c.pod.spec.restartPolicy ≠ .never
  | .restart r => r.pod.spec.restartPolicy ≠ .never

namespace Watcher

structure Permitted (w : Watcher) : Prop where
  threads : ∀ t ∈ w.threads, t.Permitted
  launched : ∀ r, .launched r ∈ w.events → r.pod.spec.restartPolicy ≠ .never

variable {w w' : Watcher} {a : WatcherAction}

theorem Permitted.of_launches (hw : w.Permitted) {i : Nat} {c : WatcherCall}
    (hc : w.threads[i]? = some (.call c)) (hl : c.point.launches) :
  c.pod.spec.restartPolicy ≠ .never
  := hw.threads _ (mem_of_getElem? hc) (CallPoint.restarts_of_launches hl)

theorem WatcherStep.permitted_call (h : WatcherStep w a w') (hw : w.Permitted)
    (ha : w.RespectsNever a) {c' : WatcherCall} (hc' : .call c' ∈ w'.threads) :
  Thread.Permitted (.call c')
  := by
  intro hr
  rcases h.call_cases hc' with ho | ⟨-, hpo⟩ | ⟨i, r, c, rfl, hc, point, rfl, hg⟩
  · apply hw.threads _ ho hr
  · rcases hpo with hpo | ⟨hpl, -⟩
    · rw [hpo] at hr
      cases hr
    · exact policy_of_findsEnded hpl
  · rcases hg.restarts hr with hb | hf | ⟨hf, -⟩
    · apply hw.threads _ (mem_of_getElem? hc) hb
    · intro hn
      cases hf.symm.trans (onCall_iff.1 ha i r c rfl hc hn).1
    · intro hn
      cases hf.symm.trans (onCall_iff.1 ha i r c rfl hc hn).2

theorem WatcherStep.permitted (h : WatcherStep w a w') (hw : w.Permitted) (ha : w.RespectsNever a) :
  w'.Permitted
  := by
  constructor
  · intro t ht
    cases t with
    | call c' => apply h.permitted_call hw ha ht
    | restart run =>
      rcases h.restart_cases ht with
        ⟨old, ho, rfl | rfl⟩ | ⟨i, r, c, -, hc, hl, -, hpd, -⟩
      · apply hw.threads _ ho
      · apply hw.threads _ ho
      · rw [Thread.Permitted, hpd]
        apply hw.of_launches hc hl
  · intro run hru
    rcases h.launched_cases hru with ho | ⟨i, r, c, -, hc, hl, hpd⟩
    · apply hw.launched run ho
    · rw [hpd]
      apply hw.of_launches hc hl

/-- Along every run in which no probe of a pod that is never to be restarted fails often enough for
a restart, no container of such a pod is restarted. -/
theorem never_not_restarted (store : PodStore) {as : List WatcherAction} {w : Watcher}
    (hmeets : watcher.Meets RespectsNever (newWatcher store) as)
    (hrun : watcher.run (newWatcher store) as = some w) :
  ∀ run, .launched run ∈ w.events → run.pod.spec.restartPolicy ≠ .never
  := by
  have hp : w.Permitted := by
    apply watcher.run_induction _ _ hmeets hrun
    · constructor
      · intro t ht
        cases ht
      · intro run hrun
        cases hrun
    · intro u a v hu ha hv
      apply (step_step hv).permitted hu ha
  exact hp.launched

end Watcher

def otherPod : Corev1.ApiPod :=
  { livenessPod .onFailure with uid := "v", name := "api" }

/-- Of two pods, one that is never to be restarted passes its probe, and the other has failed and is
restarted. -/
def mixedRun : List WatcherAction :=
  [.pollBegin (fun key => some (if key = containerKey "v" "c" then ⟨.failed, 1⟩ else ⟨.running, 0⟩))
      [⟨"u", livenessPod .never, .running⟩, ⟨"v", otherPod, .running⟩],
    .fanOut fun _ => { sinceLast := 10 }, .call 0 { due := fun _ => { sinceLast := 10 } },
    .call 0 {}, .nextPod false, .check 0, .call 0 {}, .nextPod false, .check 0] ++ failingCall 4

theorem never_not_restarted_mixed :
  let store := ((runningStore (livenessPod .never)).registerHydrated "v" otherPod
    "10.0.0.3").initRestartState otherPod (fun _ => 1) (fun _ => 1)
  ∃ w, watcher.run (newWatcher store) mixedRun = some w
    ∧ w.events.length = 1
    ∧ ∀ run, .launched run ∈ w.events → run.pod.spec.restartPolicy ≠ .never
  := by
  intro store
  have hs : (watcher.run (newWatcher store) mixedRun).map (·.events.length) = some 1 := by
    decide +kernel
  have hm : watcher.Meets Watcher.RespectsNever (newWatcher store) mixedRun := by
    decide +kernel
  obtain ⟨w, hru, hl⟩ := Option.map_eq_some_iff.1 hs
  exact ⟨w, hru, hl, Watcher.never_not_restarted _ hm hru⟩

theorem never_restarted_liveness :
  ∃ w run, watcher.run (newWatcher (runningStore (livenessPod .never)))
      ([pollOf (livenessPod .never) .running 0, .fanOut fun _ => { sinceLast := 10 }]
        ++ failingCall 7) = some w
    ∧ .launched run ∈ w.events ∧ run.pod.spec.restartPolicy = .never
  := by
  refine ⟨_, _, rfl, mem_singleton.mpr rfl, rfl⟩

end Periapsis.Node
