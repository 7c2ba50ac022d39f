import Periapsis.Foci.Step
import Mathlib.Data.List.Nodup

/-!
# The representation invariant of the reducer

A well-formed state has one container for each one of its specification, in order, under distinct
names, with delays within their bounds.
-/

namespace Periapsis.Foci

open Corev1 Periapsis.Types List PodState Int64

structure WellFormed (state : PodState) : Prop where
  names_eq : state.containerNames = state.spec.containers.map ContainerSpec.name
  nodup : state.containerNames.Nodup
  backoff : ∀ cv ∈ state.containers,
    restartBackoffInit ≤ cv.backoff ∧ cv.backoff ≤ maxBackoff

def restartsOf (name : String) (effects : List Effect) : List RestartContainer :=
  (effects.filterMap Effect.restart).filter (·.containerName = name)

variable {name : String}

@[simp]
theorem restartsOf_append :
  restartsOf name (effects ++ effects') = restartsOf name effects ++ restartsOf name effects'
  := by
  simp [restartsOf]

variable {state : PodState} {clock : Clock} {fact : Fact} {pod : Pod}

theorem restartBackoffInit_bounds :
  restartBackoffInit ≤ restartBackoffInit ∧ restartBackoffInit ≤ maxBackoff
  := by
  decide

theorem doubled_backoff_bounds (h : restartBackoffInit ≤ backoff ∧ backoff ≤ maxBackoff) :
  restartBackoffInit ≤ min (backoff * 2) maxBackoff ∧ min (backoff * 2) maxBackoff ≤ maxBackoff
  := by
  simp only [le_iff_toInt_le] at h ⊢
  have hii : restartBackoffInit.toInt = 10000000000 := by decide
  have hma : maxBackoff.toInt = 300000000000 := by decide
  have htw : (2 : Int64).toInt = 2 := by decide
  have hdo : (backoff * 2).toInt = backoff.toInt * 2 := by
    rw [toInt_mul, htw]
    apply Int.bmod_eq_of_le
    all_goals omega
  unfold min
  split
  next hlt =>
    rw [lt_iff_toInt_lt] at hlt
    omega
  · omega

theorem newPodState_wellFormed
    (uid podNamespace name podIP : String) (clock : Clock) (hpo : pod.containerNames.Nodup) :
  WellFormed (newPodState uid podNamespace name podIP pod clock)
  := by
  refine ⟨?_, ?_, ?_⟩
  · rw [newPodState_containerNames, ← newPodSpec_names]
    rfl
  · rw [newPodState_containerNames]
    apply hpo
  · intro cv hcv
    obtain ⟨cs, now, -, rfl⟩ := mem_newPodState hcv
    apply restartBackoffInit_bounds

theorem WellFormed.syncSpec (h : WellFormed state) (hpo : pod.containerNames.Nodup) :
  WellFormed (syncSpec state pod clock)
  := by
  refine ⟨syncSpec_containerNames, ?_, ?_⟩
  · rw [syncSpec_containerNames]
    simpa [Foci.syncSpec] using hpo
  · intro cv hcv
    rcases mem_syncSpec hcv with ⟨cs, now, -, rfl⟩ | ⟨old, ho, image, rfl⟩
    · apply restartBackoffInit_bounds
    · apply h.backoff old ho

theorem WellFormed.setPhase (h : WellFormed state) (phase : PodPhase) :
  WellFormed { state with phase := phase }
  := ⟨h.names_eq, h.nodup, h.backoff⟩

variable {cv : ContainerState} {touch : Touch}

theorem Touch.Lawful.backoff_bounds (h : touch.Lawful state cv)
    (hcv : restartBackoffInit ≤ cv.backoff ∧ cv.backoff ≤ maxBackoff) :
  restartBackoffInit ≤ touch.container.backoff ∧ touch.container.backoff ≤ maxBackoff
  := by
  rcases h.restart with ⟨-, -, hk | hre⟩ | ⟨-, -, hd, -⟩
  · rw [hk]
    apply hcv
  · rw [hre]
    apply restartBackoffInit_bounds
  · rw [hd]
    apply doubled_backoff_bounds hcv

theorem WellFormed.touched (hsa : WellFormed state) {idx : Nat} {touch : Touch}
    (h : touched state clock fact = some (idx, touch)) :
  WellFormed (state.setContainer idx touch.container)
  := by
  obtain ⟨hlt, hid⟩ := container_of_touched h
  refine ⟨?_, ?_, ?_⟩
  · rw [names_of_touched h]
    apply hsa.names_eq
  · rw [names_of_touched h]
    apply hsa.nodup
  · apply forall_mem_setContainer hsa.backoff
    apply (touched_lawful h).backoff_bounds
    rw [hid]
    apply hsa.backoff _ (getElem_mem hlt)

theorem WellFormed.reduce
    (h : WellFormed state) (hpo : ∀ p, fact.pod = some p → p.containerNames.Nodup)
    (hei : fact.isEvict = false) :
  WellFormed (reduce state fact clock).1
  := by
  have hst := reduce_step state fact clock
  generalize Foci.reduce state fact clock = next at hst ⊢
  cases hst with
  | ignored => apply h
  | touched hto =>
    rw [conclude_fst]
    apply (h.touched hto).setPhase
  | synced hp => apply (h.syncSpec (hpo _ hp)).setPhase
  | evicted hev => simp [hei] at hev

theorem reduce_identity (state : PodState) (clock : Clock) (hei : fact.isEvict = false) :
  (reduce state fact clock).1.uid = state.uid
    ∧ (reduce state fact clock).1.podNamespace = state.podNamespace
    ∧ (reduce state fact clock).1.name = state.name
  := by
  have hst := reduce_step state fact clock
  generalize reduce state fact clock = next at hst ⊢
  cases hst with
  | touched hto =>
    rw [conclude_fst]
    exact ⟨rfl, rfl, rfl⟩
  | evicted hev => simp [hei] at hev
  | _ => exact ⟨rfl, rfl, rfl⟩

variable {e : Effect}

theorem Touch.Lawful.effect_uid (h : touch.Lawful state cv) (he : e ∈ touch.effects) :
  e.uid = state.uid
  := by
  rcases h.effect e he with ⟨r, rfl, hr⟩ | rfl
  · apply hr
  · rfl

theorem reduce_effect_uid (he : e ∈ (reduce state fact clock).2) :
  e.uid = state.uid
  := by
  have hst := reduce_step state fact clock
  generalize reduce state fact clock = next at hst he
  cases hst with
  | ignored => cases he
  | touched hto =>
    rw [conclude_snd, mem_append] at he
    rcases he with he | he
    · apply (touched_lawful hto).effect_uid he
    · split at he
      · apply uid_of_mem_recomputePhase he
      · cases he
  | synced => apply uid_of_mem_recomputePhase he
  | evicted =>
    obtain ⟨cv, -, rfl⟩ := mem_map.1 he
    rfl

def CountStep (before after : Int32) (counts : List Int32) : Prop :=
  counts = [] ∧ after = before ∨ counts = [before + 1] ∧ after = before + 1

theorem Touch.Lawful.restartsOf_ne (h : touch.Lawful state cv) (hna : cv.name ≠ name) :
  restartsOf name touch.effects = []
  := by
  rw [restartsOf]
  rcases h.restart with ⟨hno, -⟩ | ⟨hon, -⟩
  · rw [hno]
    rfl
  · rw [hon]
    simpa [restartEffect, Effect.restart] using hna

theorem Touch.Lawful.countStep (h : touch.Lawful state cv) :
  CountStep cv.restartCount touch.container.restartCount
    ((restartsOf cv.name touch.effects).map RestartContainer.restartCount)
  := by
  rcases h.restart with ⟨hno, hco, -⟩ | ⟨hon, hco, -⟩
  · left
    simp [restartsOf, hno, hco]
  · right
    simp [restartsOf, hon, hco, restartEffect, Effect.restart]

theorem mem_conclude (hsa : WellFormed state) (h : touched state clock fact = some (idx, touch))
    (hcv : cv ∈ (conclude state clock idx touch).1.containers) :
  cv = touch.container ∨ cv ∈ state.containers ∧ (state.container idx).name ≠ cv.name
  := by
  obtain ⟨hlt, hid⟩ := container_of_touched h
  rw [conclude_containers] at hcv
  obtain ⟨j, hj, rfl⟩ := getElem_of_mem hcv
  rw [length_set] at hj
  by_cases hne : idx = j
  · left
    simp [hne]
  · right
    rw [getElem_set_ne hne, hid]
    use getElem_mem hj
    intro hna
    apply hne
    apply hsa.nodup.getElem_inj_iff.1
    · simpa [containerNames] using hna
    · simpa [containerNames] using hlt
    · simpa [containerNames] using hj

theorem reduce_countStep (hsa : WellFormed state) (hei : fact.isEvict = false)
    (hcv : cv ∈ (reduce state fact clock).1.containers) :
  (cv.name ∉ state.containerNames ∧ cv.restartCount = 0)
    ∨ ∃ old ∈ state.containers, old.name = cv.name
      ∧ CountStep old.restartCount cv.restartCount
          ((restartsOf cv.name (reduce state fact clock).2).map RestartContainer.restartCount)
  := by
  have hst := reduce_step state fact clock
  generalize reduce state fact clock = next at hst hcv ⊢
  cases hst with
  | ignored =>
    right
    use cv, hcv, rfl, .inl ⟨rfl, rfl⟩
  | @touched idx touch hto =>
    have hl := touched_lawful hto
    right
    simp only [restartsOf, conclude_restarts]
    rcases mem_conclude hsa hto hcv with rfl | ⟨ho, hne⟩
    · obtain ⟨hlt, hid⟩ := container_of_touched hto
      use state.container idx, hid ▸ getElem_mem hlt, hl.name_eq.symm
      rw [hl.name_eq]
      apply hl.countStep
    · use cv, ho, rfl
      left
      constructor
      · rw [map_eq_nil_iff]
        apply hl.restartsOf_ne hne
      · rfl
  | synced =>
    rcases mem_syncSpec hcv with ⟨cs, now, hnw, rfl⟩ | ⟨old, ho, image, rfl⟩
    · left
      exact ⟨hnw, rfl⟩
    · right
      use old, ho, rfl
      left
      simp [restartsOf]
  | evicted hev => simp [hei] at hev

/-- No eviction, and only pods with distinct container names. -/
def Admissible (inputs : List (Fact × Clock)) : Prop :=
  ∀ input ∈ inputs, input.1.isEvict = false
    ∧ ∀ pod, input.1.pod = some pod → pod.containerNames.Nodup

/-- The container is there from the end of `pre` on: from the start if `pre` is empty, and otherwise
because the last fact of `pre` added it. -/
structure LastAdded (s : PodState) (pre post : List (Fact × Clock)) (name : String) : Prop where
  added : pre = [] ∨ ∃ before input, pre = before ++ [input]
    ∧ name ∉ (reducer.final s before).containerNames
  kept : ∀ mid, mid <+: post → name ∈ (reducer.final s (pre ++ mid)).containerNames

def CountedSinceAdded (s : PodState) (inputs : List (Fact × Clock)) (cv : ContainerState) : Prop :=
  ∃ pre post n, inputs = pre ++ post ∧ LastAdded s pre post cv.name
    ∧ (restartsOf cv.name (reducer.outputs (reducer.final s pre) post)).map
        RestartContainer.restartCount = (range' 1 n).map Int32.ofNat
    ∧ cv.restartCount = Int32.ofNat n

variable {s : PodState} {inputs : List (Fact × Clock)}

theorem Admissible.left (h : Admissible (inputs ++ inputs')) :
  Admissible inputs
  := by
  intro input hin
  apply h input
  apply mem_append_left _ hin

theorem WellFormed.run (h : WellFormed s) (hi : Admissible inputs) :
  WellFormed (reducer.final s inputs)
  := by
  apply reducer.final_induction h _ (reducer.meets_of_forall s hi)
  intro t input ht hin
  apply ht.reduce hin.2 hin.1

theorem final_identity (s : PodState) (hi : Admissible inputs) :
  (reducer.final s inputs).uid = s.uid
    ∧ (reducer.final s inputs).podNamespace = s.podNamespace
    ∧ (reducer.final s inputs).name = s.name
  := by
  apply reducer.final_induction (P := fun t =>
    t.uid = s.uid ∧ t.podNamespace = s.podNamespace ∧ t.name = s.name) ⟨rfl, rfl, rfl⟩ _
    (reducer.meets_of_forall s hi)
  rintro t input ⟨hui, hns, hna⟩ hin
  obtain ⟨hu, hnm, hn⟩ := reduce_identity t input.2 hin.1
  exact ⟨hu.trans hui, hnm.trans hns, hn.trans hna⟩

theorem outputs_uid (hi : Admissible inputs) (he : e ∈ reducer.outputs s inputs) :
  e.uid = s.uid
  := by
  obtain ⟨pre, input, post, rfl, hst⟩ := reducer.mem_outputs_iff.1 he
  rw [reduce_effect_uid hst]
  apply (final_identity s hi.left).1

theorem LastAdded.concat {pre : List (Fact × Clock)} (h : LastAdded s pre post name)
    (hna : name ∈ (reducer.final s (pre ++ (post ++ [input]))).containerNames) :
  LastAdded s pre (post ++ [input]) name
  := by
  refine ⟨h.added, ?_⟩
  intro mid hmi
  rcases prefix_concat_iff.1 hmi with rfl | hmi
  · apply hna
  · apply h.kept mid hmi

theorem mem_containerNames (h : cv ∈ state.containers) :
  cv.name ∈ state.containerNames
  := mem_map_of_mem h

theorem CountStep.counted {before after : Int32} {counts counts' : List Int32} {n : Nat}
    (h : CountStep before after counts') (hc : counts = (range' 1 n).map Int32.ofNat)
    (hb : before = Int32.ofNat n) :
  ∃ m, counts ++ counts' = (range' 1 m).map Int32.ofNat ∧ after = Int32.ofNat m
  := by
  have hsu : Int32.ofNat (1 + n) = Int32.ofNat n + 1 := by
    rw [Nat.add_comm, Int32.ofNat_add]
    rfl
  rcases h with ⟨rfl, rfl⟩ | ⟨rfl, rfl⟩
  · use n
    simp [hc, hb]
  · use n + 1
    rw [range'_1_concat, map_append, map_singleton, hsu, hc, hb,
      Nat.add_comm n 1, hsu]
    exact ⟨rfl, rfl⟩

theorem countedSinceAdded_run (hs : WellFormed s) (hsr : ∀ cv ∈ s.containers, cv.restartCount = 0)
    (hi : Admissible inputs) :
  ∀ cv ∈ (reducer.final s inputs).containers, CountedSinceAdded s inputs cv
  := by
  induction inputs using reverseRecOn with
  | nil =>
    intro cv hcv
    refine ⟨[], [], 0, rfl, ⟨.inl rfl, ?_⟩, rfl, hsr cv hcv⟩
    intro mid hmi
    rw [prefix_nil.1 hmi]
    apply mem_containerNames hcv
  | append_singleton inputs input ih =>
    intro cv hcv
    have hna := mem_containerNames hcv
    have hwf := hs.run hi.left
    obtain ⟨hei, -⟩ := hi input (by simp)
    rw [reducer.final_append] at hcv
    rcases reduce_countStep hwf hei hcv with ⟨hnw, hz⟩ | ⟨old, ho, hsm, hco⟩
    · refine ⟨inputs ++ [input], [], 0, by simp, ⟨.inr ⟨inputs, input, rfl, hnw⟩, ?_⟩, rfl,
        hz⟩
      intro mid hmi
      rw [prefix_nil.1 hmi, append_nil]
      apply hna
    · obtain ⟨pre, post, n, rfl, ha, hc, hn⟩ := ih hi.left old ho
      rw [hsm] at ha hc
      rw [reducer.final_append] at hco
      obtain ⟨m, hm, hla⟩ := hco.counted hc hn
      refine ⟨pre, post ++ [input], m, by simp, ha.concat ?_, ?_, hla⟩
      · rw [← append_assoc]
        apply hna
      · rw [reducer.outputs_append, restartsOf_append, map_append, ← hm]
        simp [reducer]

/-- Before an eviction the containers are those of the specification, in order, with delays within
bounds, effects for the pod, and restarts counted since they were added. -/
theorem representation_invariant (uid podNamespace name podIP : String) (pod : Pod) (clock : Clock)
    (inputs : List (Fact × Clock)) (hpod : pod.containerNames.Nodup) (hinputs : Admissible inputs) :
  let s := newPodState uid podNamespace name podIP pod clock
  let t := reducer.final s inputs
  t.containerNames = t.spec.containers.map ContainerSpec.name
    ∧ (∀ cv ∈ t.containers, restartBackoffInit ≤ cv.backoff ∧ cv.backoff ≤ maxBackoff)
    ∧ (t.uid = uid ∧ t.podNamespace = podNamespace ∧ t.name = name)
    ∧ (∀ e ∈ reducer.outputs s inputs, e.uid = uid)
    ∧ ∀ cv ∈ t.containers, CountedSinceAdded s inputs cv
  := by
  have hs := newPodState_wellFormed uid podNamespace name podIP clock hpod
  have hru := hs.run hinputs
  refine ⟨hru.names_eq, hru.backoff, final_identity _ hinputs, ?_, ?_⟩
  · intro e he
    apply outputs_uid hinputs he
  · apply countedSinceAdded_run hs _ hinputs
    intro cv hcv
    obtain ⟨cs, now, -, rfl⟩ := mem_newPodState hcv
    rfl

theorem representation_invariant_crash :
  let s := newPodState "u" "default" "web" "" ⟨.always, [{ name := "a" }]⟩ {}
  let pod : Pod := ⟨.always, [{ name := "a" }, { name := "b" }]⟩
  let t := reducer.final s
    [(.spec ⟨"u", "default", "web", some pod⟩, {}), (.containerState ⟨"u", "b", .failed, 1⟩, {})]
  ∀ cv ∈ t.containers, restartBackoffInit ≤ cv.backoff ∧ cv.backoff ≤ maxBackoff
  := by
  apply (representation_invariant "u" "default" "web" "" _ {} _ (by decide) _).2.1
  simp [Admissible, Fact.isEvict, Fact.pod, Pod.containerNames]

end Periapsis.Foci
