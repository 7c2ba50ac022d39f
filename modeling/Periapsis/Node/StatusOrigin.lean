import Periapsis.Node.Release

/-!
# Where a written status comes from

`Succeeded` should be written for a pod only if the provider has reported it (`SucceededReported`).
-/

namespace Periapsis.Node

open Corev1 List Function PodController

namespace PodController

variable {cfg : PawnConfig} {r : Readings} {s t : PodController} {key : PodKey}
  {pod report : ApiPod}

/-- The status that the provider reported last. -/
def lastReport (s : PodController) (key : PodKey) : Option ApiPod :=
  (s.knownPods key).bind KnownPod.lastPodStatusReceivedFromProvider

variable {kPod : KnownPod}

theorem lastReport_setKnownPod :
  (s.setKnownPod key kPod).lastReport key'
    = if key' = key then kPod.lastPodStatusReceivedFromProvider else s.lastReport key'
  := by
  unfold lastReport setKnownPod
  dsimp only
  rw [update_apply]
  split
  all_goals rfl

theorem lastReport_setKnownPod_of_eq {kPod' : KnownPod} (hkn : s.knownPods key = some kPod)
    (heq : kPod'.lastPodStatusReceivedFromProvider = kPod.lastPodStatusReceivedFromProvider) :
  (s.setKnownPod key kPod').lastReport = s.lastReport
  := by
  funext key'
  rw [lastReport_setKnownPod]
  split
  next hke =>
    rw [heq, hke, lastReport, hkn]
    rfl
  · rfl

theorem lastReport_setLastPodUsed :
  (s.setLastPodUsed key pod).lastReport = s.lastReport
  := by
  unfold setLastPodUsed
  split
  · rfl
  next kPod hkn =>
    exact lastReport_setKnownPod_of_eq hkn rfl

theorem lastReport_enqueuePodStatusUpdate
    (h : (s.enqueuePodStatusUpdate pod).lastReport key = some report) :
  report = pod ∨ s.lastReport key = some report
  := by
  unfold enqueuePodStatusUpdate at h
  split at h
  · right
    apply h
  rename_i kPod hkn
  split at h
  · right
    rw [lastReport_setKnownPod_of_eq hkn] at h
    · apply h
    · rfl
  · change (s.setKnownPod _ _).lastReport key = some report at h
    rw [lastReport_setKnownPod] at h
    split at h
    · left
      apply (Option.some.inj h).symm
    · right
      apply h

theorem knownPods_updateStatus :
  (s.updateStatus ok reported pod).1.knownPods = s.knownPods
  := by
  unfold updateStatus
  split
  · rfl
  · split_ifs
    all_goals rfl

theorem knownPods_deleteObject :
  (s.deleteObject r key uid gracePeriodSeconds).1.knownPods = s.knownPods
  := by
  unfold deleteObject
  split
  · rfl
  · split_ifs
    all_goals rfl

theorem knownPods_deletePodsFromKubernetesHandler :
  (s.deletePodsFromKubernetesHandler r key uid).1.knownPods = s.knownPods
  := by
  unfold deletePodsFromKubernetesHandler
  split
  · rfl
  · split
    · rfl
    · apply knownPods_deleteObject

theorem knownPods_updatePodStatus :
  (s.updatePodStatus r pod key).1.knownPods = s.knownPods
  := by
  have hde (report : ApiPod) :
      (s.deleteReported r pod report).1.knownPods = s.knownPods := by
    unfold deleteReported
    split
    · rfl
    · split
      · rfl
      · apply knownPods_deleteObject
  unfold updatePodStatus
  split
  · rfl
  split
  · rfl
  split
  · rfl
  dsimp only
  split
  · apply hde
  · rw [knownPods_updateStatus]
    apply hde

theorem knownPods_syncPodStatusFromProviderHandler :
  (s.syncPodStatusFromProviderHandler r key).1.knownPods = s.knownPods
  := by
  unfold syncPodStatusFromProviderHandler
  split
  · rfl
  · apply knownPods_updatePodStatus

theorem lastReport_handle (h : s.handle n = some t) (hr : t.lastReport key = some report) :
  s.lastReport key = some report
  := by
  cases n with
  | add pod =>
    cases h
    change (s.setKnownPod _ _).lastReport key = some report at hr
    rw [lastReport_setKnownPod] at hr
    split at hr
    · cases hr
    · apply hr
  | update oldPod newPod =>
    simp only [handle] at h
    split at h
    · cases h
    rename_i kPod hkn
    cases h
    have hk :
        (s.setKnownPod (podKey newPod)
          { kPod with lastPodStatusUpdateSkipped := false }).lastReport key = some report
        ∨ s.lastReport key = some report := by
      split_ifs at hr
      · left
        apply hr
      · right
        apply hr
      · left
        apply hr
      · right
        apply hr
    rcases hk with hse | hk
    · rw [lastReport_setKnownPod_of_eq hkn] at hse
      · apply hse
      · rfl
    · apply hk
  | delete pod finalStateUnknown =>
    simp only [handle] at h
    split at h
    · cases h
      apply hr
    · cases h
      simp only [lastReport] at hr ⊢
      rw [update_apply] at hr
      split at hr
      · cases hr
      · apply hr

structure Deleted (events : List ControllerEvent) (pod : ApiPod) : Prop where
  marked : pod.deletionTimestamp.isSome = true
  unfinished : pod.status.phase.terminal = false
  deleted : .deletePod pod.uid ∈ events
  released : ∃ registered, .enqueueDelete pod registered ∈ events

inductive Originates (steps : List ControllerStep) (events : List ControllerEvent) :
    ApiPod → Prop
  | reported {report : ApiPod} (hmem : .notify report ∈ steps) : Originates steps events report
  | deleted {pod : ApiPod} (now : Time) (hdeleted : Deleted events pod) :
      Originates steps events { pod with status := terminatedStatus now pod.status }

variable {steps : List ControllerStep} {events events' : List ControllerEvent}

theorem Originates.mono (h : Originates steps events report) (a : ControllerStep)
    (hsb : events ⊆ events') :
  Originates (steps ++ [a]) events' report
  := by
  cases h with
  | reported hme =>
    apply Originates.reported
    apply mem_append_left _ hme
  | deleted now hd =>
    obtain ⟨registered, hre⟩ := hd.released
    apply Originates.deleted
    exact ⟨hd.marked, hd.unfinished, hsb hd.deleted, registered, hsb hre⟩

variable {result : PodController × Option String}

theorem Syncs.lastReport (h : Syncs cfg r s key result)
    (hr : result.1.lastReport key' = some report) :
  s.lastReport key' = some report
    ∨ ∃ pod now, Deleted result.1.events pod
      ∧ report = { pod with status := terminatedStatus now pod.status }
  := by
  cases h with
  | missing | unchanged | orphan | release =>
    left
    apply hr
  | kept | create =>
    left
    rw [lastReport_setLastPodUsed] at hr
    apply hr
  | fail =>
    left
    unfold lastReport handleProviderError at hr
    rw [knownPods_updateStatus] at hr
    apply hr
  | @delete pod _ hm =>
    rw [lastReport_setLastPodUsed] at hr
    unfold deletePod at hr
    split at hr
    · left
      apply hr
    next hte =>
      rcases lastReport_enqueuePodStatusUpdate hr with heq | hb
      · right
        use pod, r.now
        refine ⟨⟨hm, Bool.eq_false_of_not_eq_true hte, ?_, ?_⟩, heq⟩
        · rw [events_setLastPodUsed, enqueueDelete, events_deletePod]
          simp
        · rw [events_setLastPodUsed, enqueueDelete]
          exact ⟨_, mem_cons_self⟩
      · left
        apply hb

theorem originates_step (h : (podController cfg).step s a = some t)
    (hs : ∀ key report, s.lastReport key = some report → Originates steps s.events report)
    (hsb : s.events ⊆ t.events) (hr : t.lastReport key = some report) :
  Originates (steps ++ [a]) t.events report
  := by
  have hk (hb : s.lastReport key = some report) :
      Originates (steps ++ [a]) t.events report := (hs key report hb).mono a hsb
  cases a with
  | list key finalStateUnknown =>
    cases h
    apply hk
    unfold list at hr
    split at hr
    all_goals apply hr
  | handle =>
    simp only [podController] at h
    split at h
    · cases h
    · have hb := lastReport_handle h hr
      apply hk hb
  | sync key' r retry =>
    simp only [podController] at h
    split at h
    · cases h
      rcases (syncs cfg r _ key').lastReport hr with hb | ⟨pod, now, hd, rfl⟩
      · apply hk hb
      · apply Originates.deleted now hd
    · cases h
  | syncStatus key' r retry =>
    simp only [podController] at h
    split at h
    · cases h
      apply hk
      rw [knownPods_syncPodStatusFromProviderHandler] at hr
      apply hr
    · cases h
  | deleteFromKubernetes key' uid r retry =>
    simp only [podController] at h
    split at h
    · cases h
      apply hk
      rw [knownPods_deletePodsFromKubernetesHandler] at hr
      apply hr
    · cases h
  | notify pod =>
    cases h
    rcases lastReport_enqueuePodStatusUpdate hr with rfl | hb
    · apply Originates.reported
      simp
    · apply hk hb
  | deletePod uid r =>
    simp only [podController] at h
    split at h
    · cases h
    · cases h
      apply hk hr
  | requestSync | persist | cleanStaleDirs =>
    cases h
    apply hk hr
  | restart =>
    cases h
    cases hr
  | _ =>
    simp only [podController] at h
    split at h
    · cases h
      apply hk hr
    · cases h

theorem Syncs.recorded (h : Syncs cfg r s key result) :
  ∃ recorded, result.1.events = recorded ++ s.events
    ∧ ∀ uid oldPhase reported, .updateStatus uid oldPhase .succeeded reported ∉ recorded
  := by
  cases h with
  | missing | unchanged => exact ⟨[], rfl, by simp⟩
  | kept => exact ⟨[], events_setLastPodUsed s _ _, by simp⟩
  | create => exact ⟨[_], events_setLastPodUsed _ _ _, by simp⟩
  | @delete pod =>
    rw [events_setLastPodUsed, enqueueDelete, events_deletePod]
    exact ⟨[_, _], rfl, by simp⟩
  | @fail pod provider message =>
    unfold handleProviderError
    rcases events_updateStatus (s.created provider pod) r.ok false (failedPod message pod)
      with ⟨heq, -⟩ | ⟨current, -, -, -, heq⟩
    · rw [heq]
      exact ⟨[_], rfl, by simp⟩
    · rw [heq]
      refine ⟨[_, _], rfl, ?_⟩
      intro uid oldPhase reported hme
      obtain ⟨-, -, hp, -⟩ : _ ∧ _ ∧ PodPhase.succeeded = errorPhase pod ∧ _ := by
        simpa [failedPod] using hme
      unfold errorPhase at hp
      split at hp
      all_goals cases hp
  | _ => exact ⟨[_], rfl, by simp⟩

theorem recorded_step (h : (podController cfg).step s a = some t) :
  ∃ recorded, t.events = recorded ++ s.events
    ∧ ∀ uid oldPhase reported, .updateStatus uid oldPhase .succeeded reported ∈ recorded
      → recorded = [.updateStatus uid oldPhase .succeeded reported]
        ∧ ∃ key report, s.lastReport key = some report ∧ report.uid = uid
          ∧ report.status.phase = .succeeded
  := by
  cases a with
  | sync key r retry =>
    simp only [podController] at h
    split at h
    · cases h
      obtain ⟨recorded, heq, hn⟩ := (syncs cfg r _ key).recorded
      exact ⟨recorded, heq, fun uid oldPhase reported hme =>
        absurd hme (hn uid oldPhase reported)⟩
    · cases h
  | syncStatus key r retry =>
    simp only [podController] at h
    split at h
    · cases h
      rcases events_syncPodStatusFromProviderHandler r
          { s with syncPodStatusFromProvider := s.syncPodStatusFromProvider.erase key } key
        with ⟨heq, -⟩ | ⟨report, current, hro, heq⟩
      · exact ⟨[], heq, by simp⟩
      · refine ⟨[_], heq, ?_⟩
        intro uid oldPhase reported hme
        have hwr := mem_singleton.1 hme
        obtain ⟨hui, -, hp, -⟩ := ControllerEvent.updateStatus.inj hwr
        exact ⟨congrArg (fun e => [e]) hwr.symm, key, report, hro.known, hui.symm, hp.symm⟩
    · cases h
  | deletePod uid r =>
    obtain ⟨uid', heq⟩ := events_providerDeletePod h
    exact ⟨[_], heq, by simp⟩
  | _ => exact ⟨[], events_of_isQuiet rfl h, by simp⟩

theorem suffix_of_not_mem {recorded : List ControllerEvent} (hn : e ∉ recorded)
    (h : e :: earlier <:+ recorded ++ events) :
  e :: earlier <:+ events
  := by
  induction recorded with
  | nil => exact h
  | cons e' recorded ih =>
    rw [mem_cons, not_or] at hn
    rcases suffix_cons_iff.1 h with heq | h
    · exact absurd (cons.inj heq).1 hn.1
    · apply ih hn.2 h

theorem originates_of_run (hru : (podController cfg).run newPodController steps = some t)
    (hr : t.lastReport key = some report) :
  Originates steps t.events report
  := by
  apply (podController cfg).run_history
    (P := fun steps s => ∀ key report, s.lastReport key = some report
      → Originates steps s.events report) _ _ hru key report hr
  · rintro key report ⟨⟩
  · intro steps u a v hu hst key report hr
    obtain ⟨recorded, heq, -⟩ := recorded_step hst
    apply originates_step hst hu _ hr
    rw [heq]
    apply subset_append_right

def SucceededReported (steps : List ControllerStep) (events : List ControllerEvent) : Prop :=
  ∀ uid oldPhase reported, .updateStatus uid oldPhase .succeeded reported ∈ events
    → ∃ report, .notify report ∈ steps ∧ report.uid = uid
      ∧ ∀ cs ∈ report.status.containerStatuses,
        ∃ ended, cs.state.terminated = some ended ∧ ended.exitCode = 0

/-- When `Succeeded` is written for a pod, the provider has reported it before, or has deleted the
pod at the request of the controller. -/
theorem succeeded_reported_or_deleted {uid : String} {oldPhase : PodPhase} {reported : Bool}
    {earlier : List ControllerEvent}
    (hrun : (podController cfg).run newPodController steps = some t)
    (hwritten : .updateStatus uid oldPhase .succeeded reported :: earlier <:+ t.events) :
  ∃ before s, before <+: steps ∧ (podController cfg).run newPodController before = some s
    ∧ s.events = earlier
    ∧ ((∃ report, .notify report ∈ before ∧ report.uid = uid ∧ report.status.phase = .succeeded)
      ∨ ∃ pod, pod.uid = uid ∧ Deleted earlier pod)
  := by
  induction steps using reverseRecOn generalizing t with
  | nil =>
    cases hrun
    cases suffix_nil.mp hwritten
  | append_singleton steps a ih =>
    obtain ⟨s, hs, hl⟩ := (podController cfg).run_append.mp hrun
    obtain ⟨t', hst, hni⟩ := (podController cfg).run_cons.mp hl
    cases hni
    have hea (h : .updateStatus uid oldPhase .succeeded reported :: earlier <:+ s.events) :
        ∃ before s, before <+: steps ++ [a]
          ∧ (podController cfg).run newPodController before = some s ∧ s.events = earlier
          ∧ ((∃ report, .notify report ∈ before ∧ report.uid = uid
              ∧ report.status.phase = .succeeded)
            ∨ ∃ pod, pod.uid = uid ∧ Deleted earlier pod) := by
      obtain ⟨before, s', hi, hrs⟩ := ih hs h
      exact ⟨before, s', hi.trans (prefix_append _ _), hrs⟩
    obtain ⟨recorded, heq, hsu⟩ := recorded_step hst
    rw [heq] at hwritten
    by_cases hme : .updateStatus uid oldPhase .succeeded reported ∈ recorded
    · obtain ⟨rfl, key, report, hr, hui, hp⟩ := hsu uid oldPhase reported hme
      rcases suffix_cons_iff.mp hwritten with hne | hb
      · obtain ⟨-, rfl⟩ := cons.inj hne
        use steps, s, prefix_append _ _, hs, rfl
        cases originates_of_run hs hr with
        | reported hme => exact .inl ⟨report, hme, hui, hp⟩
        | @deleted pod now hd => exact .inr ⟨pod, hui, hd⟩
      · apply hea hb
    · apply hea (suffix_of_not_mem hme hwritten)

end PodController

def deletedWhileRunning : List ControllerStep :=
  markedWhileRunning ++ [.syncStatus taskKey {} true]

theorem report_eq_of_mem {report : ApiPod} (h : .notify report ∈ deletedWhileRunning) :
  report = runningTaskPod
  := by
  simpa [deletedWhileRunning, markedWhileRunning, told] using h

theorem events_deletedWhileRunning :
  ∃ t, (podController fourCores).run newPodController deletedWhileRunning = some t
    ∧ t.events =
      [.updateStatus "u" .running .succeeded true,
        .enqueueDelete (markedTaskPod runningTaskPod.status) false, .deletePod "u",
        .updateStatus "u" .pending .running true, .createPod "u"]
  := ⟨_, rfl, rfl⟩

theorem succeeded_after_deletePod :
  ∃ t earlier, (podController fourCores).run newPodController deletedWhileRunning = some t
    ∧ .updateStatus "u" .running .succeeded true :: earlier <:+ t.events
    ∧ ∃ pod, pod.uid = "u" ∧ PodController.Deleted earlier pod
  := by
  obtain ⟨t, hru, hev⟩ := events_deletedWhileRunning
  have hw : _ <:+ t.events := ⟨[], hev.symm⟩
  obtain ⟨before, s, hi, -, -, ⟨report, hme, -, hp⟩ | hd⟩ :=
    succeeded_reported_or_deleted hru hw
  · rw [report_eq_of_mem (hi.subset hme)] at hp
    cases hp
  · exact ⟨t, _, hru, hw, hd⟩

theorem succeeded_without_report :
  ∃ t, (podController fourCores).run newPodController deletedWhileRunning = some t
    ∧ ¬ PodController.SucceededReported deletedWhileRunning t.events
  := by
  obtain ⟨t, hru, hev⟩ := events_deletedWhileRunning
  use t, hru
  intro hrp
  obtain ⟨report, hme, -, hen⟩ := hrp "u" .running true (hev ▸ mem_cons_self)
  rw [report_eq_of_mem hme] at hen
  obtain ⟨ended, ht, -⟩ := hen _ mem_cons_self
  cases ht

end Periapsis.Node
