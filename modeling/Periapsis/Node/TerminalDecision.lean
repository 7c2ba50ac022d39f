import Periapsis.Node.CheckPod

/-!
# The decision of a pass

The pass over the containers changes what the watcher knows of each of them as it goes.
-/

namespace Periapsis.Node

open Corev1 Perigeos List Option

structure CheckPass where
  known : String → Watched
  check : PodCheck

def CheckPass.observe (policy : RestartPolicy) (deleting : Bool) (unhealthy : String → Bool)
    (listing : String → Option PodMetadata) (pass : CheckPass) (name : String) : CheckPass where
  known := Function.update pass.known name
    (checkContainer policy deleting (unhealthy name) (listing name) (pass.known name)).1
  check := pass.check.observe policy deleting unhealthy listing pass.known name

def checkContainers (pod : Pod) (deleting : Bool) (unhealthy : String → Bool)
    (listing : String → Option PodMetadata) (known : String → Watched) : CheckPass :=
  pod.containerNames.foldl
    (CheckPass.observe (effectivePolicy pod.spec.restartPolicy) deleting unhealthy listing)
    ⟨known, {}⟩

section Pass

variable {policy : RestartPolicy} {deleting : Bool} {unhealthy : String → Bool}
  {listing : String → Option PodMetadata} {known : String → Watched}

theorem check_foldl_observe {names : List String} (hn : names.Nodup) (pass : CheckPass)
    (hk : ∀ name ∈ names, pass.known name = known name) :
  (names.foldl (CheckPass.observe policy deleting unhealthy listing) pass).check
    = names.foldl (PodCheck.observe policy deleting unhealthy listing known) pass.check
  := by
  induction names generalizing pass with
  | nil => rfl
  | cons name names ih =>
    obtain ⟨hna, hn⟩ := nodup_cons.1 hn
    have ho : ∀ other ∈ names,
        (pass.observe policy deleting unhealthy listing name).known other = known other := by
      intro other hm
      have hne : other ≠ name := by
        rintro rfl
        exact hna hm
      exact (Function.update_of_ne hne _ _).trans (hk other (mem_cons_of_mem name hm))
    rw [foldl_cons, foldl_cons, ih hn _ ho]
    simp only [CheckPass.observe, PodCheck.observe, hk name mem_cons_self]

theorem check_checkContainers {pod : Pod} (hn : pod.containerNames.Nodup) :
  (checkContainers pod deleting unhealthy listing known).check
    = checkPod pod deleting unhealthy listing known
  := check_foldl_observe hn ⟨known, {}⟩ fun _ _ => rfl

end Pass

/-- The container has run, as far as the watcher can tell. -/
def HasRun (entry : Option PodMetadata) (m : Watched) : Prop :=
  match entry with
  | none => m.seenRunning = true
  | some entry => entry.state = .exited ∧ (m.seenRunning = true ∨ entry.exitCode = 0)

def KnownState (entry : Option PodMetadata) : Prop :=
  ∀ state, Listed state entry
    → state = .running ∨ state = .creating ∨ state = .failed ∨ state = .exited

section Container

variable {policy : RestartPolicy} {deleting unhealthy : Bool} {entry : Option PodMetadata}
  {m : Watched}

def evaluated (entry : Option PodMetadata) (m : Watched) : Option MachineState :=
  let state := (entry.map PodMetadata.state).getD .exited
  let exitCode := (entry.map PodMetadata.exitCode).getD 0
  if m.restarting.isSome then none
  else if (m.seenRunning = false ∧ (state = .exited ∨ state = .unknown))
      ∧ ¬ (entry.isSome = true ∧ state = .exited ∧ exitCode = 0) then
    none
  else some state

theorem checkContainer_verdict :
  (checkContainer policy deleting unhealthy entry m).2
    = (evaluated entry m).elim ⟨false, false⟩ (stateVerdict policy)
  := by
  unfold checkContainer evaluated
  dsimp only
  split_ifs with hr hu hei hd hd hd
  · rfl
  · exact absurd hei hd.2
  · exact checkState_verdict policy deleting unhealthy _ _
  · rfl
  · exact absurd ⟨hu, hei⟩ hd
  · exact absurd hd.1 hu
  · exact checkState_verdict policy deleting unhealthy _ _

theorem restartsContainer_eq :
  restartsContainer policy unhealthy entry m
    = (evaluated entry m).any (restartsState policy unhealthy)
  := by
  unfold restartsContainer evaluated
  dsimp only
  split_ifs with hr hu hei hd hd hd
  · rfl
  · exact absurd hei hd.2
  · rfl
  · rfl
  · exact absurd ⟨hu, hei⟩ hd
  · exact absurd hd.1 hu
  · rfl

section

variable (hk : KnownState entry)
include hk

theorem evaluated_eq_some :
  evaluated entry m = some state
    ↔ m.restarting = none
      ∧ (Listed state entry ∧ state ≠ .exited ∨ HasRun entry m ∧ state = .exited)
  := by
  cases hr : m.restarting with
  | some step => simp [evaluated, hr]
  | none =>
    rw [and_iff_right rfl]
    cases entry with
    | none =>
      cases hse : m.seenRunning with
      | true => simp [evaluated, hr, HasRun, Listed, hse, eq_comm]
      | false => simp [evaluated, hr, HasRun, Listed, hse]
    | some entry =>
      by_cases hs : entry.state = .exited
      · have hru : HasRun (some entry) m ↔ (m.seenRunning = false → entry.exitCode = 0) := by
          cases hse : m.seenRunning with
          | _ => simp [HasRun, hse, hs]
        have hl : ¬ (Listed state (some entry) ∧ state ≠ .exited) := by
          rintro ⟨hl, hne⟩
          exact hne ((some.inj hl).symm.trans hs)
        have hev : evaluated (some entry) m = some state
            ↔ HasRun (some entry) m ∧ .exited = state := by
          rw [hru]
          simp [evaluated, hr, hs]
        rw [hev, or_iff_right hl, eq_comm (b := state)]
      · have hun : entry.state ≠ .unknown := by
          intro hun
          simpa [hun] using hk entry.state rfl
        have hru : ¬ HasRun (some entry) m := fun hru => hs hru.1
        have hev : evaluated (some entry) m = some entry.state := by
          simp [evaluated, hr, hs, hun]
        rw [hev, Listed, map_some]
        simp only [hru, false_and, or_false]
        refine ⟨fun h => ⟨h, ?_⟩, And.left⟩
        rintro rfl
        exact hs (some.inj h)

theorem exists_evaluated_iff {P : MachineState → Prop} (hcr : ¬ P .creating) :
  (∃ state, evaluated entry m = some state ∧ P state)
    ↔ m.restarting = none
      ∧ (Listed .failed entry ∧ P .failed ∨ HasRun entry m ∧ P .exited
        ∨ Listed .running entry ∧ P .running)
  := by
  simp only [evaluated_eq_some hk]
  constructor
  · rintro ⟨state, ⟨hno, ⟨hl, hne⟩ | ⟨hru, rfl⟩⟩, hP⟩
    · rcases hk state hl with rfl | rfl | rfl | rfl
      · exact ⟨hno, .inr (.inr ⟨hl, hP⟩)⟩
      · exact absurd hP hcr
      · exact ⟨hno, .inl ⟨hl, hP⟩⟩
      · exact absurd rfl hne
    · exact ⟨hno, .inr (.inl ⟨hru, hP⟩)⟩
  · rintro ⟨hno, ⟨hl, hP⟩ | ⟨hru, hP⟩ | ⟨hl, hP⟩⟩
    · exact ⟨.failed, ⟨hno, .inl ⟨hl, by decide⟩⟩, hP⟩
    · exact ⟨.exited, ⟨hno, .inr ⟨hru, rfl⟩⟩, hP⟩
    · exact ⟨.running, ⟨hno, .inl ⟨hl, by decide⟩⟩, hP⟩

theorem verdict_exited_iff (hpo : policy ≠ .unset) :
  (checkContainer policy deleting unhealthy entry m).2.exited
    ↔ m.restarting = none
      ∧ (Listed .failed entry ∧ policy = .never
        ∨ HasRun entry m ∧ (policy = .onFailure ∨ policy = .never))
  := by
  have hso : (checkContainer policy deleting unhealthy entry m).2.exited
      ↔ ∃ state, evaluated entry m = some state ∧ (stateVerdict policy state).exited := by
    rw [checkContainer_verdict]
    cases evaluated entry m with
    | _ => simp
  have hf : (stateVerdict policy .failed).exited ↔ policy = .never := by
    revert hpo
    cases policy <;> decide
  have hex : (stateVerdict policy .exited).exited
      ↔ policy = .onFailure ∨ policy = .never := by
    revert hpo
    cases policy <;> decide
  rw [hso, exists_evaluated_iff hk (by simp [stateVerdict]), hf, hex]
  simp [stateVerdict]

theorem restartsContainer_iff :
  restartsContainer policy unhealthy entry m
    ↔ m.restarting = none
      ∧ (Listed .failed entry ∧ (policy = .always ∨ policy = .onFailure)
        ∨ HasRun entry m ∧ policy = .always
        ∨ Listed .running entry ∧ unhealthy)
  := by
  rw [restartsContainer_eq, Option.any_eq_true, exists_evaluated_iff hk (by simp [restartsState])]
  simp [restartsState]

theorem verdict_succeeded_iff (hex : (checkContainer policy deleting unhealthy entry m).2.exited) :
  (checkContainer policy deleting unhealthy entry m).2.succeeded ↔ ¬ Listed .failed entry
  := by
  rw [checkContainer_verdict] at hex ⊢
  cases hev : evaluated entry m with
  | none => simp [hev] at hex
  | some state =>
    rw [hev] at hex
    rw [elim_some, stateVerdict_succeeded]
    have ha := (stateVerdict_exited unhealthy).1 hex
    obtain ⟨-, ⟨hl, hne⟩ | ⟨hru, rfl⟩⟩ := (evaluated_eq_some hk).1 hev
    · rw [Listed, show entry.map PodMetadata.state = some state from hl]
      simp [ha.1, ha.2.1]
    · have hf : ¬ Listed .failed entry := by
        intro hl
        obtain ⟨entry, rfl, hs⟩ := map_eq_some_iff.1 hl
        cases hs.symm.trans hru.1
      simp [hf]

end

end Container

theorem effectivePolicy_ne_unset (policy : RestartPolicy) :
  effectivePolicy policy ≠ .unset
  := by
  cases policy <;> decide

/-- The pass sets a phase if and only if no container is being restarted and each has failed under
`Never`, or has run under `OnFailure` or `Never`. -/
theorem checkContainers_decides (pod : Pod) (hnames : pod.containerNames.Nodup) (deleting : Bool)
    (unhealthy : String → Bool) (listing : String → Option PodMetadata)
    (hlisting : ∀ name ∈ pod.containerNames, KnownState (listing name)) (known : String → Watched) :
  let policy := effectivePolicy pod.spec.restartPolicy
  let check := (checkContainers pod deleting unhealthy listing known).check
  (check.terminalPhase ≠ none
      ↔ ∀ name ∈ pod.containerNames, (known name).restarting = none
        ∧ (Listed .failed (listing name) ∧ policy = .never
          ∨ HasRun (listing name) (known name) ∧ (policy = .onFailure ∨ policy = .never)))
    ∧ (∀ phase ∈ check.terminalPhase,
      phase = if ∃ name ∈ pod.containerNames, Listed .failed (listing name) then .failed
        else .succeeded)
    ∧ ∀ name, name ∈ check.restarted
      ↔ name ∈ pod.containerNames ∧ (known name).restarting = none
        ∧ (Listed .failed (listing name) ∧ (policy = .always ∨ policy = .onFailure)
          ∨ HasRun (listing name) (known name) ∧ policy = .always
          ∨ Listed .running (listing name) ∧ unhealthy name = true)
  := by
  intro policy check
  have hpo : policy ≠ .unset := effectivePolicy_ne_unset pod.spec.restartPolicy
  have hc : check = _ :=
    (check_checkContainers hnames).trans
      (checkPod_eq policy deleting unhealthy listing known pod rfl)
  refine ⟨?_, ?_, ?_⟩
  · rw [hc, PodCheck.terminalPhase]
    simp only [ne_eq, ite_eq_right_iff, reduceCtorEq, imp_false, not_not, List.all_eq_true]
    apply forall₂_congr
    intro name hna
    exact verdict_exited_iff (hlisting name hna) hpo
  · intro phase hp
    rw [hc, PodCheck.terminalPhase] at hp
    obtain ⟨hex, hp⟩ := ite_none_right_eq_some.mp hp
    cases hp
    rw [List.all_eq_true] at hex
    have hsu : (pod.containerNames.all fun name =>
          (verdictOn policy deleting unhealthy listing known name).succeeded) = true
        ↔ ¬ ∃ name ∈ pod.containerNames, Listed .failed (listing name) := by
      simp only [List.all_eq_true, not_exists, not_and]
      apply forall₂_congr
      intro name hna
      exact verdict_succeeded_iff (hlisting name hna) (hex name hna)
    simp only [hsu, ite_not]
  · intro name
    rw [hc, mem_filter]
    apply and_congr_right
    intro hna
    exact restartsContainer_iff (hlisting name hna)

def mixedListing : String → Option PodMetadata
  | "a" => some ⟨.failed, 1⟩
  | "b" => some ⟨.exited, 0⟩
  | _ => none

theorem knownState_mixedListing (name : String) :
  KnownState (mixedListing name)
  := by
  intro state hl
  unfold mixedListing at hl
  split at hl
  · cases hl
    decide
  · cases hl
    decide
  · cases hl

theorem checkContainers_decides_never :
  (checkContainers ⟨.never, [{ name := "a" }, { name := "b" }, { name := "c" }]⟩ false
    (fun _ => false) mixedListing runningContainers).check.terminalPhase = some .failed
  := by
  obtain ⟨ht, hp, -⟩ := checkContainers_decides
    ⟨.never, [{ name := "a" }, { name := "b" }, { name := "c" }]⟩ (by decide) false
    (fun _ => false) mixedListing (fun name _ => knownState_mixedListing name) runningContainers
  have hen := ht.mpr (by simp [Pod.containerNames, mixedListing, runningContainers,
    HasRun, Listed, effectivePolicy])
  obtain ⟨phase, hso⟩ := ne_none_iff_exists'.mp hen
  rw [hso, hp phase hso]
  simp [Pod.containerNames, mixedListing, Listed]

end Periapsis.Node
