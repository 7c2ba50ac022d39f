import Periapsis.Node.PodController

/-!
# Pods that have ended

A pod that the provider has reported as ended should stay so.
-/

namespace Periapsis.Node

open Corev1 List

namespace PodController

variable {s : PodController} {key : PodKey} {pod : ApiPod}

structure Creates (s : PodController) (key : PodKey) (pod : ApiPod) : Prop where
  changed : s.Changed key pod
  unmarked : pod.deletionTimestamp = none
  unnamed : s.provider.getPod pod.podNamespace pod.name = none

theorem Creates.eq_of_listed (h : s.Creates key pod) (hl : s.podsLister.lookup key = some pod') :
  pod' = pod
  := Option.some.inj (hl.symm.trans h.changed.listed)

theorem not_creates_of_none (hl : s.podsLister.lookup key = none) (pod : ApiPod) :
  ¬ s.Creates key pod
  := by
  intro hc
  cases hl.symm.trans hc.changed.listed

theorem not_creates_of_marked (hl : s.podsLister.lookup key = some pod')
    (hm : pod'.deletionTimestamp.isSome) (pod : ApiPod) :
  ¬ s.Creates key pod
  := by
  intro hc
  rw [hc.eq_of_listed hl, hc.unmarked] at hm
  cases hm

theorem creates_iff {queue : List PodKey} :
  Creates { s with syncPodsFromKubernetes := queue } key pod ↔ s.Creates key pod
  := by
  constructor
  all_goals
    rintro ⟨⟨hl, hk⟩, hm, hp⟩
    exact ⟨⟨hl, hk⟩, hm, hp⟩

end PodController

def ControllerEvent.isDeletion : ControllerEvent → Bool
  | .deletePod _ | .enqueueDelete _ _ => true
  | _ => false

namespace PodController

variable {cfg : PawnConfig} {r : Readings} {s t : PodController} {key : PodKey} {pod : ApiPod}
  {events : List ControllerEvent} {uid : String} {result : PodController × Option String}

theorem Syncs.creates_or (h : Syncs cfg r s key result) :
  (∃ pod provider, s.Creates key pod ∧ s.provider.createPod cfg r pod = (provider, none)
      ∧ result.1.events = .createPod pod.uid :: s.events)
    ∨ (∃ pod provider message, s.Creates key pod
      ∧ s.provider.createPod cfg r pod = (provider, some message)
      ∧ result.1 = (s.created provider pod).handleProviderError r message pod)
    ∨ (∀ pod, ¬ s.Creates key pod)
      ∧ ∃ added, result.1.events = added ++ s.events ∧ ∀ e ∈ added, e.isDeletion
  := by
  cases h with
  | create hch hm hp hcr =>
    left
    exact ⟨_, _, ⟨hch, hm, hp⟩, hcr, events_setLastPodUsed _ _ _⟩
  | fail hch hm hp hcr =>
    right
    left
    exact ⟨_, _, _, ⟨hch, hm, hp⟩, hcr, rfl⟩
  | missing hl =>
    right
    right
    exact ⟨not_creates_of_none hl, [], rfl, forall_mem_nil _⟩
  | orphan hl =>
    right
    right
    refine ⟨not_creates_of_none hl, [_], rfl, ?_⟩
    simp [ControllerEvent.isDeletion]
  | release hl hm =>
    right
    right
    refine ⟨not_creates_of_marked hl hm, [_], rfl, ?_⟩
    simp [ControllerEvent.isDeletion]
  | @delete pod hch hm =>
    right
    right
    use not_creates_of_marked hch.listed hm,
      [.enqueueDelete pod ((s.deletePod r pod).provider.store.hasPod pod.uid), .deletePod pod.uid]
    constructor
    · rw [events_setLastPodUsed, enqueueDelete, events_deletePod]
      rfl
    · simp [ControllerEvent.isDeletion]
  | unchanged hl hun =>
    right
    right
    refine ⟨?_, [], rfl, forall_mem_nil _⟩
    intro pod hc
    apply hun
    rw [hc.eq_of_listed hl]
    apply hc.changed
  | kept hch _ hp =>
    right
    right
    refine ⟨?_, [], events_setLastPodUsed _ _ _, forall_mem_nil _⟩
    intro pod hc
    rw [hc.eq_of_listed hch.listed, hc.unnamed] at hp
    cases hp

/-- It was written that the pod has ended, as the provider has reported it. -/
def Completed (events : List ControllerEvent) (uid : String) : Prop :=
  ∃ oldPhase newPhase, .updateStatus uid oldPhase newPhase true ∈ events
    ∧ newPhase.terminal = true

def NeverAgain (events : List ControllerEvent) : Prop :=
  events.Pairwise fun later earlier => ∀ uid oldPhase newPhase, later = .createPod uid
    → earlier = .updateStatus uid oldPhase newPhase true → newPhase.terminal = false

theorem neverAgain_createPod_iff :
  NeverAgain (.createPod uid :: events) ↔ ¬ Completed events uid ∧ NeverAgain events
  := by
  unfold NeverAgain
  rw [pairwise_cons]
  apply and_congr_left
  intro _
  constructor
  · rintro hne ⟨oldPhase, newPhase, hme, hte⟩
    have hno := hne _ hme uid oldPhase newPhase rfl rfl
    rw [hte] at hno
    cases hno
  · rintro hno earlier hme uid' oldPhase newPhase ⟨⟩ rfl
    by_contra hte
    apply hno
    exact ⟨oldPhase, newPhase, hme, Bool.eq_true_of_not_eq_false hte⟩

theorem neverAgain_cons_iff (he : ∀ uid, e ≠ .createPod uid) :
  NeverAgain (e :: events) ↔ NeverAgain events
  := by
  unfold NeverAgain
  rw [pairwise_cons]
  apply and_iff_right
  intro _ _ uid _ _ hcr
  exact absurd hcr (he uid)

theorem neverAgain_updateStatus_iff {reported : Bool} :
  NeverAgain (.updateStatus uid oldPhase newPhase reported :: events) ↔ NeverAgain events
  := by
  apply neverAgain_cons_iff
  rintro uid' ⟨⟩

theorem neverAgain_append_iff {added : List ControllerEvent}
    (ha : ∀ e ∈ added, e.isDeletion) :
  NeverAgain (added ++ events) ↔ NeverAgain events
  := by
  induction added with
  | nil => rfl
  | cons e added ih =>
    rw [forall_mem_cons] at ha
    rw [cons_append, neverAgain_cons_iff, ih ha.2]
    rintro uid rfl
    cases ha.1

theorem neverAgain_handleProviderError_iff {message : String} :
  NeverAgain (s.handleProviderError r message pod).events ↔ NeverAgain s.events
  := by
  unfold handleProviderError
  rcases events_updateStatus s r.ok false (failedPod message pod)
    with ⟨heq, -⟩ | ⟨current, -, -, -, heq⟩
  · rw [heq]
  · rw [heq, neverAgain_updateStatus_iff]

theorem Syncs.neverAgain_events_iff (h : Syncs cfg r s key result) (hs : NeverAgain s.events) :
  NeverAgain result.1.events ↔ ∀ pod, s.Creates key pod → ¬ Completed s.events pod.uid
  := by
  have hc {pod : ApiPod} (hpd : s.Creates key pod) :
      NeverAgain (.createPod pod.uid :: s.events)
        ↔ ∀ pod, s.Creates key pod → ¬ Completed s.events pod.uid := by
    rw [neverAgain_createPod_iff, and_iff_left hs]
    constructor
    · intro hno pod' hpo
      rw [hpd.eq_of_listed hpo.changed.listed]
      apply hno
    · intro hno
      apply hno pod hpd
  obtain ⟨pod, provider, hpd, -, heq⟩ | ⟨pod, provider, message, hpd, -, heq⟩
    | ⟨hn, added, heq, ha⟩ := h.creates_or
  · rw [heq, hc hpd]
  · rw [heq, neverAgain_handleProviderError_iff]
    apply hc hpd
  · rw [heq, neverAgain_append_iff ha]
    apply iff_of_true hs
    intro pod hpd
    exact absurd hpd (hn pod)

def KeepsRecord (s : PodController) : ControllerStep → Prop
  | .sync key _ _ =>
    key ∈ s.syncPodsFromKubernetes → ∀ pod, s.Changed key pod → pod.deletionTimestamp = none
      → Completed s.events pod.uid
      → (s.provider.getPod pod.podNamespace pod.name).isSome = true
  | _ => True

/-- No pod is created again after it was written that it has ended, if and only if the provider has
a pod of its name whenever such a pod is synced. -/
theorem neverAgain_iff (cfg : PawnConfig) (s : PodController) (steps : List ControllerStep) :
  (∀ before, before <+: steps → ∀ t,
      (podController cfg).run { s with events := [] } before = some t → NeverAgain t.events)
    ↔ (podController cfg).Meets KeepsRecord { s with events := [] } steps
  := by
  apply (podController cfg).forall_run_iff_meets (D := fun _ _ => True) List.Pairwise.nil _
    ((podController cfg).meets_true _ _)
  intro u a hu _
  have hke (h : ∀ t, (podController cfg).step u a = some t → NeverAgain t.events)
      (hst : u.KeepsRecord a) :
      (∀ t, (podController cfg).step u a = some t → NeverAgain t.events) ↔ u.KeepsRecord a :=
    iff_of_true h hst
  cases a with
  | sync key r retry =>
    rw [forall_sync_iff (Q := NeverAgain)]
    apply imp_congr_right
    intro _
    refine Iff.trans ((syncs cfg r _ key).neverAgain_events_iff hu) ?_
    constructor
    · intro h pod hch hm hcm
      rw [Option.isSome_iff_ne_none]
      intro hp
      apply h pod (creates_iff.mpr ⟨hch, hm, hp⟩) hcm
    · intro h pod hc hcm
      obtain ⟨hch, hm, hp⟩ := creates_iff.mp hc
      have hso := h pod hch hm hcm
      rw [hp] at hso
      cases hso
  | syncStatus key r retry =>
    apply hke _ trivial
    rw [forall_syncStatus_iff (Q := NeverAgain)]
    intro _
    rcases events_syncPodStatusFromProviderHandler r _ key with ⟨heq, -⟩ | ⟨_, _, -, heq⟩
    · rw [heq]
      apply hu
    · rw [heq, neverAgain_updateStatus_iff]
      apply hu
  | deletePod uid r =>
    apply hke _ trivial
    intro t ht
    obtain ⟨uid', heq⟩ := events_providerDeletePod ht
    rw [heq, ← singleton_append, neverAgain_append_iff]
    · apply hu
    · simp [ControllerEvent.isDeletion]
  | _ =>
    apply hke _ trivial
    intro t ht
    rw [events_of_isQuiet rfl ht]
    apply hu

end PodController

def taskPod (phase : PodPhase) : ApiPod :=
  { spec :=
      { restartPolicy := .onFailure
        containers := [{ name := "app", requests := { cpu := some 2000 } }] }
    uid := "u"
    podNamespace := "default"
    name := "task"
    status := { phase := phase } }

def taskKey : PodKey :=
  ⟨"default", "task"⟩

def restartAfterEnd : List ControllerStep :=
  told (taskPod .pending) ++ [.sync taskKey {} true, .notify (taskPod .succeeded),
    .syncStatus taskKey {} true, .restart [] {}, .list taskKey false, .handle]

theorem created_again :
  ∃ t, (podController fourCores).run newPodController
      (restartAfterEnd ++ [.sync taskKey {} true]) = some t
    ∧ t.events = [.createPod "u", .updateStatus "u" .pending .succeeded true, .createPod "u"]
    ∧ ¬ PodController.NeverAgain t.events
  := by
  refine ⟨_, rfl, rfl, ?_⟩
  intro hne
  apply (PodController.neverAgain_createPod_iff.mp hne).1
  exact ⟨.pending, .succeeded, mem_cons_self, rfl⟩

theorem Gambit.createPod_isSome_iff {g : Gambit} {pod : ApiPod} :
  (g.createPod cfg r pod).2.isSome
    ↔ pod.spec.containers ≠ [] ∧ g.store.admitPod pod cfg.cpu cfg.memory r.pressure ≠ ""
  := by
  have hc := Gambit.createsPod cfg r g pod
  generalize g.createPod cfg r pod = result at hc
  cases hc with
  | empty hco => simp [hco]
  | rejected hco hra => simp [hco, hra]
  | inFlight _ hra | running _ hra | stub _ hra | registered _ hra =>
    simp [hra]

namespace PodController

variable {cfg : PawnConfig} {r : Readings} {s t : PodController} {key : PodKey} {pod : ApiPod}
  {events : List ControllerEvent} {uid : String}

def PhasesKept (events : List ControllerEvent) : Prop :=
  ∀ uid oldPhase newPhase reported, .updateStatus uid oldPhase newPhase reported ∈ events
    → oldPhase.terminal = true → newPhase = oldPhase

theorem phasesKept_updateStatus_iff {reported : Bool} :
  PhasesKept (.updateStatus uid oldPhase newPhase reported :: events)
    ↔ (oldPhase.terminal → newPhase = oldPhase) ∧ PhasesKept events
  := by
  constructor
  · intro h
    constructor
    · apply h uid oldPhase newPhase reported mem_cons_self
    · intro uid' oldPhase' newPhase' reported' hme
      apply h uid' oldPhase' newPhase' reported' (mem_cons_of_mem _ hme)
  · rintro ⟨hw, h⟩ uid' oldPhase' newPhase' reported' hme
    rcases mem_cons.1 hme with heq | hme
    · obtain ⟨rfl, rfl, rfl, rfl⟩ := ControllerEvent.updateStatus.inj heq
      apply hw
    · apply h uid' oldPhase' newPhase' reported' hme

theorem phasesKept_append_iff {added : List ControllerEvent}
    (ha : ∀ e ∈ added, ∀ uid oldPhase newPhase reported,
      e ≠ .updateStatus uid oldPhase newPhase reported) :
  PhasesKept (added ++ events) ↔ PhasesKept events
  := by
  constructor
  · intro h uid oldPhase newPhase reported hme
    apply h uid oldPhase newPhase reported (mem_append_right _ hme)
  · intro h uid oldPhase newPhase reported hme
    rcases mem_append.1 hme with hme | hme
    · exact absurd rfl (ha _ hme uid oldPhase newPhase reported)
    · apply h uid oldPhase newPhase reported hme

structure Fails (cfg : PawnConfig) (r : Readings) (s : PodController) (key : PodKey)
    (pod current : ApiPod) : Prop where
  creates : s.Creates key pod
  containers : pod.spec.containers ≠ []
  rejected : s.provider.store.admitPod pod cfg.cpu cfg.memory r.pressure ≠ ""
  ok : r.ok = true
  object : s.api (podKey pod) = some current
  uid : current.uid = pod.uid

variable {queue : List PodKey} {current : ApiPod}

theorem fails_iff :
  Fails cfg r { s with syncPodsFromKubernetes := queue } key pod current
    ↔ s.Fails cfg r key pod current
  := by
  constructor
  · rintro ⟨hc, hco, hr, hok, ho, hui⟩
    exact ⟨creates_iff.1 hc, hco, hr, hok, ho, hui⟩
  · rintro ⟨hc, hco, hr, hok, ho, hui⟩
    exact ⟨creates_iff.2 hc, hco, hr, hok, ho, hui⟩

theorem Syncs.phasesKept_events_iff {result : PodController × Option String}
    (h : Syncs cfg r s key result) (hs : PhasesKept s.events) :
  PhasesKept result.1.events
    ↔ ∀ pod current, s.Fails cfg r key pod current → current.status.phase.terminal
      → errorPhase pod = current.status.phase
  := by
  have hcr (uid : String) :
      PhasesKept (.createPod uid :: s.events) ↔ PhasesKept s.events := by
    rw [← singleton_append, phasesKept_append_iff]
    simp
  obtain ⟨pod, provider, hpd, hn, heq⟩ | ⟨pod, provider, message, hpd, hso, heq⟩
    | ⟨hn, added, heq, ha⟩ := h.creates_or
  · rw [heq, hcr]
    apply iff_of_true hs
    intro pod' current hf
    obtain rfl := hpd.eq_of_listed hf.creates.changed.listed
    have hso := Gambit.createPod_isSome_iff.2 ⟨hf.containers, hf.rejected⟩
    rw [hn] at hso
    cases hso
  · rw [heq]
    have hr : (s.provider.createPod cfg r pod).2.isSome := by
      rw [hso]
      rfl
    rw [Gambit.createPod_isSome_iff] at hr
    rcases events_updateStatus (s.created provider pod) r.ok false (failedPod message pod)
      with ⟨heq, hn⟩ | ⟨current, hcu, hui, hok, heq⟩
    · rw [handleProviderError, heq]
      apply iff_of_true ((hcr pod.uid).2 hs)
      intro pod' current hf
      obtain rfl := hpd.eq_of_listed hf.creates.changed.listed
      cases (hn current hf.object hf.uid).symm.trans hf.ok
    · rw [handleProviderError, heq, phasesKept_updateStatus_iff]
      have hke : PhasesKept (s.created provider pod).events := (hcr pod.uid).2 hs
      rw [and_iff_left hke]
      constructor
      · intro hph pod' current' hf
        obtain rfl := hpd.eq_of_listed hf.creates.changed.listed
        cases hcu.symm.trans hf.object
        apply hph
      · intro hph
        apply hph pod current
        exact ⟨hpd, hr.1, hr.2, hok, hcu, hui⟩
  · rw [heq, phasesKept_append_iff]
    · apply iff_of_true hs
      intro pod current hf
      exact absurd hf.creates (hn pod)
    · rintro e he uid oldPhase newPhase reported rfl
      cases ha _ he

theorem reports_iff {report : ApiPod} :
  Reports r { s with syncPodStatusFromProvider := queue } key report current
    ↔ s.Reports r key report current
  := by
  constructor
  all_goals
    rintro ⟨hok, hl, hk, ho, hui⟩
    exact ⟨hok, hl, hk, ho, hui⟩

theorem phasesKept_syncPodStatus_iff (hs : PhasesKept s.events) :
  PhasesKept (s.syncPodStatusFromProviderHandler r key).1.events
    ↔ ∀ report current, s.Reports r key report current
      → current.status.phase.terminal → report.status.phase = current.status.phase
  := by
  rcases events_syncPodStatusFromProviderHandler r s key
    with ⟨heq, hn⟩ | ⟨report, current, hre, heq⟩
  · rw [heq]
    apply iff_of_true hs
    intro report current hre
    exact absurd hre (hn report current)
  · rw [heq, phasesKept_updateStatus_iff, and_iff_left hs]
    constructor
    · intro hph report' current' hrp
      cases hre.known.symm.trans hrp.known
      cases hre.object.symm.trans hrp.object
      apply hph
    · intro hph
      apply hph report current hre

def KeepsPhase (cfg : PawnConfig) (s : PodController) : ControllerStep → Prop
  | .sync key r _ =>
    key ∈ s.syncPodsFromKubernetes → ∀ pod current, s.Fails cfg r key pod current
      → current.status.phase.terminal = true → errorPhase pod = current.status.phase
  | .syncStatus key r _ =>
    key ∈ s.syncPodStatusFromProvider → ∀ report current, s.Reports r key report current
      → current.status.phase.terminal = true → report.status.phase = current.status.phase
  | _ => True

/-- No write changes the phase of an ended pod if and only if every failure or report that is
written over its object has the phase of the object. -/
theorem phasesKept_iff (cfg : PawnConfig) (s : PodController) (steps : List ControllerStep) :
  (∀ before, before <+: steps → ∀ t,
      (podController cfg).run { s with events := [] } before = some t → PhasesKept t.events)
    ↔ (podController cfg).Meets (KeepsPhase cfg) { s with events := [] } steps
  := by
  apply (podController cfg).forall_run_iff_meets (D := fun _ _ => True) _ _
    ((podController cfg).meets_true _ _)
  · rintro _ _ _ _ ⟨⟩
  intro u a hu _
  cases a with
  | sync key r retry =>
    rw [forall_sync_iff (Q := PhasesKept)]
    apply imp_congr_right
    intro _
    refine Iff.trans ((syncs cfg r _ key).phasesKept_events_iff hu) ?_
    simp only [fails_iff]
  | syncStatus key r retry =>
    rw [forall_syncStatus_iff (Q := PhasesKept)]
    apply imp_congr_right
    intro _
    refine Iff.trans (phasesKept_syncPodStatus_iff hu) ?_
    simp only [reports_iff]
  | deletePod uid r =>
    apply iff_of_true _ trivial
    intro t ht
    obtain ⟨uid', heq⟩ := events_providerDeletePod ht
    rw [heq, ← singleton_append, phasesKept_append_iff]
    · apply hu
    · simp
  | _ =>
    apply iff_of_true _ trivial
    intro t ht
    rw [events_of_isQuiet rfl ht]
    apply hu

end PodController

def rejectedAfterEnd : List ControllerStep :=
  restartAfterEnd
    ++ [.sync taskKey { pressure := some ⟨⟨90, "90.0"⟩, ⟨0, "0.0"⟩⟩ } true]

def runningTaskPod : ApiPod :=
  { taskPod .running with
    status :=
      { phase := .running
        containerStatuses := [{ name := "app", state := { running := some ⟨0⟩ } }] } }

/-- The pod is marked, deleted and written as ended; then comes a report of a poll begun before the
deletion. -/
def reportedAfterEnd : List ControllerStep :=
  told (taskPod .pending)
    ++ [.sync taskKey {} true, .notify runningTaskPod, .syncStatus taskKey {} true]
    ++ told { runningTaskPod with deletionTimestamp := some 1 }
    ++ [.sync taskKey {} true, .syncStatus taskKey {} true, .notify runningTaskPod,
      .syncStatus taskKey {} true]

theorem phase_overwritten :
  (∃ t, (podController fourCores).run newPodController rejectedAfterEnd = some t
      ∧ .updateStatus "u" .succeeded .pending false ∈ t.events
      ∧ ¬ PodController.PhasesKept t.events)
    ∧ ∃ t, (podController fourCores).run newPodController reportedAfterEnd = some t
      ∧ .updateStatus "u" .succeeded .running true ∈ t.events
      ∧ ¬ PodController.PhasesKept t.events
  := by
  constructor
  · refine ⟨_, rfl, mem_cons_self, ?_⟩
    intro hke
    cases hke "u" .succeeded .pending false mem_cons_self rfl
  · refine ⟨_, rfl, mem_cons_self, ?_⟩
    intro hke
    cases hke "u" .succeeded .running true mem_cons_self rfl

end Periapsis.Node
