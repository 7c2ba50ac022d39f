import Periapsis.Node.Registry
import Periapsis.Node.VolumeTracker

/-!
# The index of the volumes of running pods

The volumes of a pod are in the index of the tracker from the end of its creation until it is
deleted.
-/

namespace Periapsis.Node

open Corev1 Transition List Function PodStore VolumeTracker

/-- The call gives a registered stub its specification. -/
def Gambit.FillsStub (cfg : PawnConfig) (r : Readings) (g : Gambit) (pod : ApiPod) : Prop :=
  pod.spec.containers ≠ [] ∧ g.store.admitPod pod cfg.cpu cfg.memory r.pressure = ""
    ∧ ∃ ps, g.store.pods.lookup pod.uid = some ps ∧ ps.inFlight = none
      ∧ ps.pod.spec.containers = []

structure TrackedGambit where
  gambit : Gambit
  volumes : VolumeTracker

inductive CreationResult where
  | started (ip : String)
  | failed (reason message : String)
  | cancelled
  deriving DecidableEq

inductive ProviderOp where
  | createPod (cfg : PawnConfig) (r : Readings) (pod : ApiPod) (result : CreationResult)
  | deletePod (r : Readings) (pod : ApiPod)
  | evictGhost (uid : String)
  | hydrateFromRuntime (clock : Nat → Time) (states : List PersistedPodState)
      (machines : List ManagedMachine)

namespace TrackedGambit

def registry (p : TrackedGambit) : String → Option (ApiPod × PodPhase) :=
  p.gambit.store.registry

def createPod (cfg : PawnConfig) (r : Readings) (p : TrackedGambit) (pod : ApiPod)
    (result : CreationResult) : TrackedGambit :=
  let g := (p.gambit.createPod cfg r pod).1
  if (p.gambit.startedCreation cfg r pod).isSome then
    match result with
    | .started ip =>
      { gambit := { g with store := g.store.promoteRunning pod.uid pod ip }
        volumes := p.volumes.track pod.uid pod }
    | .failed reason message =>
      { p with
        gambit := { g with store := (g.store.markFailed pod.uid pod reason message).1 } }
    | .cancelled => { p with gambit := g }
  else { p with gambit := g }

def deletePod (r : Readings) (p : TrackedGambit) (pod : ApiPod) : TrackedGambit where
  gambit := p.gambit.deletePod r pod
  volumes := p.volumes.untrack pod.uid

def evictGhost (p : TrackedGambit) (uid : String) : TrackedGambit :=
  -- The volumes of the pod stay in the index.
  { p with gambit := p.gambit.evictGhost uid }

def hydrateFromRuntime (clock : Nat → Time) (p : TrackedGambit) (states : List PersistedPodState)
    (machines : List ManagedMachine) : TrackedGambit where
  gambit := Gambit.hydrateFromRuntime clock states machines
  volumes := newVolumeTracker p.volumes.baseDir p.volumes.pawnName

def apply (p : TrackedGambit) : ProviderOp → TrackedGambit
  | .createPod cfg r pod result => p.createPod cfg r pod result
  | .deletePod r pod => p.deletePod r pod
  | .evictGhost uid => p.evictGhost uid
  | .hydrateFromRuntime clock states machines => p.hydrateFromRuntime clock states machines

end TrackedGambit

def newTrackedGambit (baseDir pawnName : String) : TrackedGambit where
  gambit := newGambit
  volumes := newVolumeTracker baseDir pawnName

def trackedGambit : System TrackedGambit ProviderOp where
  step p op := some (p.apply op)

namespace TrackedGambit

variable {p p' : TrackedGambit} {op : ProviderOp}

inductive ProviderStep (p : TrackedGambit) : ProviderOp → TrackedGambit → Prop
  | unchanged {cfg : PawnConfig} {r : Readings} {pod : ApiPod} {result : CreationResult}
      {g : Gambit} (hfills : ¬ p.gambit.FillsStub cfg r pod)
      (hsame : g.store.registry = p.registry) :
      ProviderStep p (.createPod cfg r pod result) { p with gambit := g }
  | specified {cfg : PawnConfig} {r : Readings} {pod : ApiPod} {result : CreationResult}
      {g : Gambit} {old : ApiPod} {phase : PodPhase} (hfills : p.gambit.FillsStub cfg r pod)
      (hold : p.registry pod.uid = some (old, phase))
      (hreg : g.store.registry = update p.registry pod.uid (some (pod, phase))) :
      ProviderStep p (.createPod cfg r pod result) { p with gambit := g }
  | started {cfg : PawnConfig} {r : Readings} {pod : ApiPod} {result : CreationResult} {g : Gambit}
      (hnew : p.registry pod.uid = none)
      (hreg : g.store.registry = update p.registry pod.uid (some (pod, .running))) :
      ProviderStep p (.createPod cfg r pod result)
        { gambit := g, volumes := p.volumes.track pod.uid pod }
  | notStarted {cfg : PawnConfig} {r : Readings} {pod : ApiPod} {result : CreationResult}
      {g : Gambit} {kept : ApiPod} {phase : PodPhase} (hnew : p.registry pod.uid = none)
      (hphase : phase ≠ .running)
      (hreg : g.store.registry = update p.registry pod.uid (some (kept, phase))) :
      ProviderStep p (.createPod cfg r pod result) { p with gambit := g }
  | deleted {r : Readings} {pod : ApiPod} {g : Gambit}
      (hreg : g.store.registry = update p.registry pod.uid none) :
      ProviderStep p (.deletePod r pod)
        { gambit := g, volumes := p.volumes.untrack pod.uid }
  | evicted {uid : String} {g : Gambit}
      (hreg : g.store.registry = update p.registry uid none) :
      ProviderStep p (.evictGhost uid) { p with gambit := g }
  | hydrated {clock : Nat → Time} {states : List PersistedPodState}
      {machines : List ManagedMachine} :
      ProviderStep p (.hydrateFromRuntime clock states machines)
        (p.hydrateFromRuntime clock states machines)

variable {g : Gambit} {pod : ApiPod}

theorem not_startedCreation (hps : g.store.pods.lookup pod.uid = some ps) :
  ¬ (g.startedCreation cfg r pod).isSome
  := by
  rw [Gambit.startedCreation_isSome_iff]
  rintro ⟨-, -, hn⟩
  cases hps.symm.trans hn

theorem createPod_step :
  ProviderStep p (.createPod cfg r pod result) (p.createPod cfg r pod result)
  := by
  unfold createPod
  have hcr := Gambit.createsPod cfg r p.gambit pod
  generalize p.gambit.createPod cfg r pod = created at hcr
  cases hcr with
  | empty hc =>
    rw [if_neg (by rw [Gambit.startedCreation_isSome_iff]; exact fun h => h.1 hc)]
    exact .unchanged (fun hf => hf.1 hc) rfl
  | rejected hc hr =>
    rw [if_neg (by rw [Gambit.startedCreation_isSome_iff]; exact fun h => hr h.2.1)]
    exact .unchanged (fun hf => hr hf.2.1) rfl
  | @inFlight ps hc hr hps hfl =>
    rw [if_neg (not_startedCreation hps)]
    apply ProviderStep.unchanged _ rfl
    rintro ⟨-, -, ps', hp, hid, -⟩
    cases hps.symm.trans hp
    rw [hid] at hfl
    cases hfl
  | @running ps hc hr hps hsp =>
    rw [if_neg (not_startedCreation hps)]
    apply ProviderStep.unchanged
    · rintro ⟨-, -, ps', hp, -, hem⟩
      cases hps.symm.trans hp
      exact hsp hem
    · apply registry_update_of_same
      intro ps
      exact ⟨rfl, rfl⟩
  | @stub ps hc hr hps hid hsp =>
    rw [if_neg (not_startedCreation hps)]
    apply ProviderStep.specified ⟨hc, hr, ps, hps, hid, hsp⟩
    · rw [registry, PodStore.registry, hps]
      rfl
    · rw [registry_initRestartState]
      apply registry_update (s := p.gambit.store.use _ _) hps
  | registered hc hr hps =>
    rw [if_pos (Gambit.startedCreation_isSome_iff.2 ⟨hc, hr, hps⟩)]
    have hnw : p.registry pod.uid = none := by
      rw [registry, PodStore.registry, hps]
      rfl
    have hpe : (p.gambit.store.registerPending pod.uid pod r.handle).registry
        = update p.registry pod.uid (some (pod, .pending)) :=
      registry_put _ _ _
    have hlo : (p.gambit.store.registerPending pod.uid pod r.handle).pods.lookup pod.uid
        = some { pod := pod, phase := .pending, inFlight := some r.handle } :=
      Finmap.lookup_insert _
    cases result with
    | started ip =>
      apply ProviderStep.started hnw
      rw [promoteRunning, registry_update hlo, hpe, update_idem]
    | failed reason message =>
      have hfa := registry_update hlo
        fun ps => { ps with
          pod := (markFailed newPodStore pod.uid pod reason message).2
          phase := .failed }
      rw [hpe, update_idem] at hfa
      exact .notStarted hnw (by rintro ⟨⟩) hfa
    | cancelled => exact .notStarted hnw (by decide) hpe

theorem providerStep (p : TrackedGambit) (op : ProviderOp) :
  ProviderStep p op (p.apply op)
  := by
  cases op with
  | createPod cfg r pod result => apply createPod_step
  | deletePod r pod =>
    apply ProviderStep.deleted
    apply (registry_unregister _ _ _ _ _ _).trans
    congr 1
    apply registry_markDeleting
  | evictGhost uid =>
    apply ProviderStep.evicted
    apply registry_evictGhost
  | hydrateFromRuntime clock states machines => exact .hydrated

/-- The index has exactly the volumes of running pods, and of registered pods only. -/
structure IndexExact (p : TrackedGambit) : Prop where
  running : ∀ key uid pod, p.registry uid = some (pod, .running) →
    (p.volumes.listed key uid).Perm (p.volumes.mountsOf key uid pod)
  registered : ∀ key, ∀ m ∈ p.volumes.volRefs key, p.registry m.podUID ≠ none

/-- The operation keeps the index right: a running stub keeps its volumes, no volume of an evicted
pod is listed, and none of a restored pod is to be filled. -/
def KeepsIndex (p : TrackedGambit) : ProviderOp → Prop
  | .createPod cfg r pod _ =>
    p.gambit.FillsStub cfg r pod → ∀ old, p.registry pod.uid = some (old, .running) →
      ∀ key, (p.volumes.mountsOf key pod.uid pod).Perm (p.volumes.mountsOf key pod.uid old)
  | .deletePod _ _ => True
  | .evictGhost uid => ∀ key, ∀ m ∈ p.volumes.volRefs key, m.podUID ≠ uid
  | .hydrateFromRuntime _ states _ =>
    ∀ uid state, Gambit.restoredState states uid = some state →
      ∀ vol ∈ state.pod.volumes, volumeSource vol = none

theorem registry_of_fillsStub (h : p.gambit.FillsStub cfg r pod) :
  p.registry pod.uid ≠ none
  := by
  obtain ⟨-, -, ps, hps, -⟩ := h
  rw [registry, PodStore.registry, hps]
  simp

variable {uid : String}

theorem IndexExact.listed_eq_nil (h : p.IndexExact) (hu : p.registry uid = none) (key : String) :
  p.volumes.listed key uid = []
  := by
  rw [listed_eq_nil_iff]
  rintro m hm rfl
  exact h.registered key m hm hu

variable {phase : PodPhase}

section

variable (h : p.IndexExact)
include h

theorem IndexExact.registers (hrg : g.store.registry = update p.registry uid (some (pod, phase)))
    (hl : phase = .running → ∀ key,
      (p.volumes.listed key uid).Perm (p.volumes.mountsOf key uid pod))
    :
  { p with gambit := g }.IndexExact
  := by
  constructor
  · intro key uid' pod' hp
    rw [registry, hrg, update_apply] at hp
    split at hp
    next heq =>
      subst heq
      cases hp
      apply hl rfl key
    · apply h.running key uid' pod' hp
  · intro key m hm
    rw [registry, hrg, update_apply]
    split
    · simp
    · apply h.registered key m hm

theorem IndexExact.specified (hol : p.registry pod.uid = some (old, phase))
    (hrg : g.store.registry = update p.registry pod.uid (some (pod, phase))) :
  { p with gambit := g }.IndexExact
    ↔ (phase = .running → ∀ key,
        (p.volumes.mountsOf key pod.uid pod).Perm (p.volumes.mountsOf key pod.uid old))
  := by
  constructor
  · rintro h' rfl key
    have hnw : { p with gambit := g }.registry pod.uid = some (pod, .running) := by
      rw [registry, hrg, update_self]
    apply (h'.running key pod.uid pod hnw).symm.trans
    apply h.running key pod.uid old hol
  · intro hpr
    apply h.registers hrg
    rintro rfl key
    apply (h.running key _ old hol).trans (hpr rfl key).symm

theorem IndexExact.started (hnw : p.registry pod.uid = none)
    (hrg : g.store.registry = update p.registry pod.uid (some (pod, .running))) :
  IndexExact { gambit := g, volumes := p.volumes.track pod.uid pod }
  := by
  constructor
  · intro key uid pod' hp
    rw [registry, hrg, update_apply] at hp
    rw [listed_track, mountsOf_track]
    split at hp
    next heq =>
      subst heq
      cases hp
      rw [if_pos rfl, h.listed_eq_nil hnw, nil_append]
    next hne =>
      rw [if_neg hne, append_nil]
      apply h.running key uid pod' hp
  · intro key m hm
    rw [registry, hrg, update_apply]
    split
    · simp
    next hne =>
      rw [track_volRefs, mem_append] at hm
      rcases hm with hol | ht
      · apply h.registered key m hol
      · exact absurd (podUID_of_mem_mountsOf ht) hne

theorem IndexExact.deleted (hi : p.volumes.Indexed) {g : Gambit} {uid : String}
    (hrg : g.store.registry = update p.registry uid none) :
  IndexExact { gambit := g, volumes := p.volumes.untrack uid }
  := by
  constructor
  · intro key uid' pod' hp
    rw [registry, hrg, update_apply] at hp
    split at hp
    · cases hp
    next hne =>
      have hl : (p.volumes.untrack uid).listed key uid' = p.volumes.listed key uid' := by
        rw [listed, hi.untrack_volRefs, filter_filter]
        apply filter_congr
        intro m _
        by_cases hm : m.podUID = uid'
        · simp [hm, hne]
        · simp [hm]
      rw [hl]
      apply h.running key uid' pod' hp
  · intro key m hm
    rw [hi.untrack_volRefs] at hm
    obtain ⟨hm, hne⟩ := mem_filter.1 hm
    rw [registry, hrg, update_of_ne (by simpa using hne)]
    apply h.registered key m hm

theorem IndexExact.evicted (hrg : g.store.registry = update p.registry uid none) :
  { p with gambit := g }.IndexExact ↔ ∀ key, ∀ m ∈ p.volumes.volRefs key, m.podUID ≠ uid
  := by
  constructor
  · rintro h' key m hm rfl
    apply h'.registered key m hm
    rw [registry, hrg, update_self]
  · intro hn
    constructor
    · intro key uid' pod' hp
      rw [registry, hrg, update_apply] at hp
      split at hp
      · cases hp
      · apply h.running key uid' pod' hp
    · intro key m hm
      rw [registry, hrg, update_of_ne (hn key m hm)]
      apply h.registered key m hm

end

theorem indexExact_hydrateFromRuntime :
  (p.hydrateFromRuntime clock states machines).IndexExact
    ↔ ∀ uid state, Gambit.restoredState states uid = some state →
        ∀ vol ∈ state.pod.volumes, volumeSource vol = none
  := by
  constructor
  · intro h uid state hs
    have hpo := (Gambit.registry_hydrateFromRuntime clock states machines uid).1 state hs
    apply mountsOf_eq_nil_iff.1
    intro key
    exact (h.running key uid state.pod hpo).symm.eq_nil
  · intro h
    constructor
    · intro key uid pod hpo
      have hn : ∀ vol ∈ pod.volumes, volumeSource vol = none := by
        cases hs : Gambit.restoredState states uid with
        | some state =>
          have hre := (Gambit.registry_hydrateFromRuntime clock states machines uid).1 state hs
          cases hre.symm.trans hpo
          apply h uid state hs
        | none =>
          have hem := (Gambit.registry_hydrateFromRuntime clock states machines uid).2 hs _ hpo
          rw [hem]
          simp
      rw [mountsOf_eq_nil_iff.2 hn key]
      rfl
    · intro key m hm
      cases hm

theorem ProviderStep.exact_iff (hst : ProviderStep p op p') (h : p.IndexExact)
    (hi : p.volumes.Indexed) :
  p'.IndexExact ↔ p.KeepsIndex op
  := by
  cases hst with
  | unchanged hf hsa =>
    have hsa : { p with gambit := _ }.registry = p.registry := hsa
    constructor
    · intro _ hsu
      exact absurd hsu hf
    · intro _
      constructor
      · rw [hsa]
        apply h.running
      · rw [hsa]
        apply h.registered
  | specified hf hol hrg =>
    rw [h.specified hol hrg]
    constructor
    · intro hpr _ old' ho
      cases hol.symm.trans ho
      apply hpr rfl
    · rintro hk rfl
      apply hk hf _ hol
  | started hnw hrg =>
    constructor
    · intro _ hf
      exact absurd hnw (registry_of_fillsStub hf)
    · intro _
      apply h.started hnw hrg
  | notStarted hnw hph hrg =>
    constructor
    · intro _ hf
      exact absurd hnw (registry_of_fillsStub hf)
    · intro _
      apply h.registers hrg
      intro hru
      exact absurd hru hph
  | deleted hrg => exact iff_of_true (h.deleted hi hrg) trivial
  | evicted hrg => apply h.evicted hrg
  | hydrated => apply indexExact_hydrateFromRuntime

theorem ProviderStep.indexed (hst : ProviderStep p op p') (h : p.IndexExact)
    (hi : p.volumes.Indexed) :
  p'.volumes.Indexed
  := by
  cases hst with
  | unchanged | specified | notStarted | evicted => exact hi
  | started hnw => apply hi.track (fun key hl => absurd (h.listed_eq_nil hnw key) hl)
  | deleted => apply hi.untrack
  | hydrated =>
    intro key m hm
    cases hm

/-- From a provider without pods, along every sequence of operations, the index is right after each
of them if and only if each of them keeps it right. -/
theorem indexExact_iff (baseDir pawnName : String) (ops : List ProviderOp) :
  (∀ done, done <+: ops → ∀ p,
      trackedGambit.run (newTrackedGambit baseDir pawnName) done = some p → p.IndexExact)
    ↔ trackedGambit.Meets KeepsIndex (newTrackedGambit baseDir pawnName) ops
  := by
  apply trackedGambit.forall_run_iff_meets_of_invariant (D := fun _ _ => True)
    (I := fun p : TrackedGambit => p.volumes.Indexed)
  · constructor
    · intro key uid pod hpo
      cases hpo
    · intro key m hm
      cases hm
  · intro key m hm
    cases hm
  · intro p op p' h hi _ hst
    cases hst
    apply (providerStep p op).indexed h hi
  · intro p op h hi _
    rw [← (providerStep p op).exact_iff h hi]
    constructor
    · intro hnx
      apply hnx _ rfl
    · intro hex p' hp'
      cases hp'
      exact hex
  · apply trackedGambit.meets_true

end TrackedGambit

def configuredPod : ApiPod where
  spec := { containers := [{ name := "c" }] }
  uid := "u"
  podNamespace := "default"
  name := "web"
  volumes := [{ name := "conf", configMap := some "nginx" }]

theorem not_indexExact_evicted :
  ∃ p, trackedGambit.run (newTrackedGambit "/var/lib/periapsis" "pawn")
      [.createPod fourCores {} configuredPod (.started "10.0.0.2"), .evictGhost "u"] = some p
    ∧ ¬ p.IndexExact
  := by
  refine ⟨_, rfl, ?_⟩
  intro h
  apply h.registered "configmap:default/nginx" _ (mem_singleton.mpr rfl)
  decide

end Periapsis.Node
