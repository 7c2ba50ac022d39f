import Periapsis.Node.BatchWatcher

/-!
# Pods that have succeeded

The watcher takes a container whose unit is gone to have ended with exit code 0, unless a restart
attempt is under way.
-/

namespace Periapsis.Node

open Corev1 Periapsis.Types Perigeos List Bool Watched

variable {pod : Pod} {s t : Watch} {p : Poll} {name : String} {m : Watched}
  {unit listed : Option UnitState} {policy : RestartPolicy}

/-- The unit is gone, or is listed as exited. -/
def Gone (unit : Option UnitState) : Prop :=
  unit = none ∨ unit = some .exited

instance decidableGone (unit : Option UnitState) : Decidable (Gone unit) := by
  unfold Gone
  infer_instance

def Ended (unit : Option UnitState) : Prop :=
  Gone unit ∨ ∃ exitCode, unit = some (.failed exitCode)

structure Over (policy : RestartPolicy) (unit : Option UnitState) : Prop where
  ended : Ended unit
  not_always : policy ≠ .always
  gone : policy = .onFailure → Gone unit

def Stands (listed unit : Option UnitState) : Prop :=
  (Gone listed → Gone unit) ∧ ∀ exitCode, listed = some (.failed exitCode) → unit = listed

instance decidableStands (listed unit : Option UnitState) : Decidable (Stands listed unit) :=
  match listed with
  | none => decidable_of_iff (Gone unit) (by simp [Stands, Gone])
  | some .exited => decidable_of_iff (Gone unit) (by simp [Stands, Gone])
  | some (.failed exitCode) =>
    decidable_of_iff (unit = some (.failed exitCode)) (by simp [Stands, Gone])
  | some .creating => isTrue (by simp [Stands, Gone])
  | some .running => isTrue (by simp [Stands, Gone])

def Known (m : Watched) : Prop :=
  m.restarting = none → Gone m.unit → m.lastExit = some 0

structure Done (pod : Pod) (p : Poll) (name : String) (m : Watched) : Prop where
  restarting_eq : m.restarting = none
  isOver : Over (effectivePolicy pod.spec.restartPolicy) m.unit
  agrees : ∀ u v, p.units name = some u → m.unit = some v → u.listed.state = v.listed.state
  succeeded : p.allSucceeded = true → m.lastExit = some 0

theorem stands_refl :
  Stands unit unit
  := ⟨id, fun _ _ => rfl⟩

theorem not_gone_running :
  ¬ Gone (some .running)
  := by
  simp [Gone]

theorem not_ended_active (hac : unit = some .creating ∨ unit = some .running) :
  ¬ Ended unit
  := by
  rcases hac with rfl | rfl
  all_goals simp [Ended, Gone]

theorem Over.removed (h : Over policy unit) :
  Over policy none
  := ⟨.inl (.inl rfl), h.not_always, fun _ => .inl rfl⟩

theorem Over.stands (h : Over policy listed) (hst : Stands listed unit) :
  Over policy unit
  := by
  refine ⟨?_, h.not_always, fun hpl => hst.1 (h.gone hpl)⟩
  rcases h.ended with hg | ⟨exitCode, hf⟩
  · exact .inl (hst.1 hg)
  · exact .inr ⟨exitCode, (hst.2 exitCode hf).trans hf⟩

theorem agrees_of_stands (h : Stands listed unit) (hen : Ended listed) (hu : listed = some u)
    (hv : unit = some v) :
  u.listed.state = v.listed.state
  := by
  subst hu hv
  rcases hen with hg | ⟨exitCode, hf⟩
  · obtain rfl : u = .exited := by simpa [Gone] using hg
    obtain rfl : v = .exited := by simpa [Gone] using h.1 hg
    rfl
  · cases hf
    cases h.2 exitCode rfl
    rfl

theorem bumpBackoff_frame {m : Watched} :
  m.bumpBackoff.1.unit = m.unit ∧ m.bumpBackoff.1.lastExit = m.lastExit
    ∧ m.bumpBackoff.1.restarting = m.restarting
  := by
  unfold bumpBackoff
  split
  all_goals exact ⟨rfl, rfl, rfl⟩

structure Checks (m m' : Watched) : Prop where
  unit_eq : m'.unit = m.unit
  lastExit_eq : m'.lastExit = m.lastExit
  restarting_eq : m'.restarting = none → m.restarting = none

theorem Checks.trans (h : Checks m m') (h' : Checks m' m'') :
  Checks m m''
  := ⟨h'.unit_eq.trans h.unit_eq, h'.lastExit_eq.trans h.lastExit_eq,
    fun hno => h.restarting_eq (h'.restarting_eq hno)⟩

theorem maybeRestart_checks (deleting : Bool) (m : Watched) :
  Checks m (m.maybeRestart deleting)
  := by
  obtain ⟨hun, hla, hr⟩ := bumpBackoff_frame
  unfold maybeRestart
  split
  · exact ⟨rfl, rfl, id⟩
  · split
    · exact ⟨rfl, rfl, id⟩
    next hi =>
      dsimp only
      split
      · exact ⟨hun, hla, hr.symm.trans⟩
      · exact ⟨hun, hla, fun _ => by simpa using hi⟩

theorem checkState_checks (policy : RestartPolicy) (deleting unhealthy : Bool) :
  Checks m (checkState policy deleting unhealthy state m).1
  := by
  have hsn : Checks m { m with seenRunning := true } := ⟨rfl, rfl, id⟩
  have hrs := maybeRestart_checks deleting m
  unfold checkState
  split
  · split
    · apply hsn.trans (maybeRestart_checks deleting _)
    · apply hsn
  case h_3 | h_4 =>
    split
    · apply hrs
    · exact ⟨rfl, rfl, id⟩
  all_goals exact ⟨rfl, rfl, id⟩

theorem checkContainer_checks (policy : RestartPolicy) (deleting unhealthy : Bool)
    (entry : Option PodMetadata) (m : Watched) :
  Checks m (checkContainer policy deleting unhealthy entry m).1
  := by
  have hsn : Checks m { m with seenRunning := true } := ⟨rfl, rfl, id⟩
  unfold checkContainer
  dsimp only
  split
  · exact ⟨rfl, rfl, id⟩
  · split
    · split
      · apply hsn.trans (checkState_checks policy deleting unhealthy)
      · exact ⟨rfl, rfl, id⟩
    · apply checkState_checks

abbrev listedState (listed : Option UnitState) : MachineState :=
  ((listed.map UnitState.listed).map PodMetadata.state).getD .exited

variable {deleting unhealthy : Bool} {subState : SubState} {a : WatchAction}

theorem checkState_over (h : Over policy listed) :
  checkState policy deleting unhealthy (listedState listed) m = (m, ⟨true, decide (Gone listed)⟩)
  := by
  have hal := h.not_always
  rcases h.ended with (rfl | rfl) | ⟨exitCode, rfl⟩
  · simp [checkState, listedState, hal, Gone]
  · simp [checkState, listedState, UnitState.listed, hal, Gone]
  · have hfa : policy ≠ .onFailure := by
      intro hpl
      simpa [Gone] using h.gone hpl
    simp [checkState, listedState, UnitState.listed, hal, hfa, Gone]

theorem over_of_exited
    (h : (checkState policy deleting unhealthy (listedState listed) m).2.exited) :
  Over policy listed
  := by
  cases listed with
  | none =>
    by_cases hpl : policy = .always
    · simp [checkState, listedState, hpl] at h
    · exact ⟨.inl (.inl rfl), hpl, fun _ => .inl rfl⟩
  | some unit =>
    cases unit with
    | exited =>
      by_cases hpl : policy = .always
      · simp [checkState, listedState, UnitState.listed, hpl] at h
      · exact ⟨.inl (.inr rfl), hpl, fun _ => .inr rfl⟩
    | failed exitCode =>
      by_cases hpl : policy = .always ∨ policy = .onFailure
      · simp [checkState, listedState, UnitState.listed, hpl] at h
      · obtain ⟨hal, hfa⟩ := not_or.1 hpl
        exact ⟨.inr ⟨exitCode, rfl⟩, hal, fun hon => absurd hon hfa⟩
    | _ => cases h

/-- A container is found exited if it is listed as ended and not restarted, and succeeded if it is
listed as gone. -/
theorem checkContainer_exited
    (hch : checkContainer policy deleting unhealthy (listed.map UnitState.listed) m = (m', verdict))
    (h : verdict.exited) :
  m.restarting = none ∧ m'.restarting = none ∧ Over policy listed
    ∧ (verdict.succeeded → Gone listed)
  := by
  have hse : ∀ m₀ : Watched, m₀.restarting = none →
      checkState policy deleting unhealthy (listedState listed) m₀ = (m', verdict) →
      m'.restarting = none ∧ Over policy listed ∧ (verdict.succeeded → Gone listed) := by
    intro m₀ hno hre
    have ho : Over policy listed := over_of_exited ((congrArg (·.2.exited) hre).trans h)
    rw [checkState_over ho] at hre
    cases hre
    exact ⟨hno, ho, by simp⟩
  have hde : (m, (⟨false, false⟩ : Verdict)) ≠ (m', verdict) := by
    rintro ⟨⟩
    cases h
  unfold checkContainer at hch
  dsimp only at hch
  split at hch
  · contradiction
  next hi =>
    have hno : m.restarting = none := by simpa using hi
    use hno
    split at hch
    · split at hch
      · apply hse { m with seenRunning := true } hno hch
      · contradiction
    · apply hse _ hno hch

theorem checkContainer_over (deleting unhealthy : Bool) (h : Over policy listed) (m : Watched) :
  (checkContainer policy deleting unhealthy (listed.map UnitState.listed) m).1.restarting
    = m.restarting
  := by
  unfold checkContainer
  dsimp only
  split
  · rfl
  · split
    · split
      · rw [checkState_over h]
      · rfl
    · rw [checkState_over h]

/-- A restart attempt that ends leaves no unit gone whose last run failed, and a poll under way that
has not checked the container lists the unit as it stands. -/
def Harmless (pod : Pod) (s : Watch) : WatchAction → Prop
  | .restart name _ _ =>
    (s.containers name).restarting = some .finish →
      (Gone (s.containers name).unit → (s.containers name).lastExit = some 0)
        ∧ ∀ p ∈ s.poll, name ∈ p.todo → Stands (p.units name) (s.containers name).unit
  | .handleUnitEvent name subState =>
    s.phase = .failed ∧ s.shared = true ∧ name ∈ pod.containerNames →
      (∀ state ∈ eventState subState, ∀ unit ∈ (s.containers name).unit,
        unit.listed.state = state)
      ∨ ∀ name' ∈ pod.containerNames, Gone (s.containers name').unit →
          (s.containers name').lastExit = some 0
  | _ => True

instance decidableHarmless (pod : Pod) (s : Watch) (a : WatchAction) :
    Decidable (Harmless pod s a) := by
  unfold Harmless
  split
  · infer_instance
  · infer_instance
  · infer_instance

structure Live (pod : Pod) (s : Watch) : Prop where
  known : ∀ name ∈ pod.containerNames, Known (s.containers name)
  stands : ∀ p, s.poll = some p → ∀ name ∈ p.todo, (s.containers name).restarting = none →
    Stands (p.units name) (s.containers name).unit
  checked : ∀ p, s.poll = some p → p.checks = true → p.allExited = true →
    ∀ name ∈ pod.containerNames, name ∈ p.todo ∨ Done pod p name (s.containers name)

theorem Live.set (h : Live pod s) (hk : Known (s.containers name) → Known m)
    (hst : ∀ p, s.poll = some p → name ∈ p.todo →
      ((s.containers name).restarting = none →
        Stands (p.units name) (s.containers name).unit) →
      m.restarting = none → Stands (p.units name) m.unit)
    (hd : ∀ p, s.poll = some p → name ∈ pod.containerNames → name ∉ p.todo →
      Done pod p name (s.containers name) → Done pod p name m) :
  Live pod (s.set name m)
  := by
  constructor
  · apply forall_set (fun name m => name ∈ pod.containerNames → Known m) _ h.known
    intro hn
    apply hk (h.known name hn)
  · intro p hp
    apply forall_set
      (fun name m => name ∈ p.todo → m.restarting = none → Stands (p.units name) m.unit) _
      (h.stands p hp)
    intro hn
    apply hst p hp hn (h.stands p hp name hn)
  · intro p hp hc hex
    apply forall_set (fun name m => name ∈ pod.containerNames → name ∈ p.todo ∨ Done pod p name m) _
      (h.checked p hp hc hex)
    intro hn
    by_cases hto : name ∈ p.todo
    · left
      apply hto
    · right
      apply hd p hp hn hto
      apply (h.checked p hp hc hex name hn).resolve_left hto

theorem Known.checks (h : Known m) (hm : Checks m m') :
  Known m'
  := by
  intro hno hg
  rw [hm.lastExit_eq]
  rw [hm.unit_eq] at hg
  apply h (hm.restarting_eq hno) hg

theorem Live.set_checks (h : Live pod s) (hm : Checks (s.containers name) m)
    (hto : ∀ p, s.poll = some p → name ∈ pod.containerNames → name ∈ p.todo) :
  Live pod (s.set name m)
  := by
  apply h.set
  · intro hk
    apply hk.checks hm
  · intro p hp _ hb hno
    rw [hm.unit_eq]
    apply hb (hm.restarting_eq hno)
  · intro p hp hna hnt
    exact absurd (hto p hp hna) hnt

theorem Live.set_active (h : Live pod s) (hac : (s.containers name).unit = some .creating
      ∨ (s.containers name).unit = some .running)
    (hk : Known m) (hr : m.restarting = (s.containers name).restarting) :
  Live pod (s.set name m)
  := by
  have hac := not_ended_active hac
  apply h.set
  · intro _
    apply hk
  · intro p hp hto hb hno
    have hst := hb (hr ▸ hno)
    constructor
    · intro hl
      exact absurd (.inl (hst.1 hl)) hac
    · intro exitCode hl
      exact absurd (.inr ⟨exitCode, (hst.2 exitCode hl).trans hl⟩) hac
  · intro p hp hna hto hd
    exact absurd hd.isOver.ended hac

theorem Live.start (h : Live pod s) (hs : s.start name = some t) :
  Live pod t
  := by
  obtain ⟨hun, rfl⟩ := start_eq_some hs
  refine h.set_active (.inl hun) ?_ rfl
  intro _ hg
  exact absurd hg not_gone_running

theorem gone_ended {exitCode : Int32} (h : Gone (some (UnitState.ended exitCode))) :
  exitCode = 0
  := by
  by_contra hne
  simp [Gone, UnitState.ended, hne] at h

theorem Live.exit {exitCode : Int32} (h : Live pod s) (hs : s.exit name exitCode = some t) :
  Live pod t
  := by
  obtain ⟨hac, rfl⟩ := exit_eq_some hs
  refine h.set_active hac ?_ rfl
  intro _ hg
  rw [gone_ended hg]

theorem Live.collect (h : Live pod s) (hs : s.collect name = some t) :
  Live pod t
  := by
  obtain ⟨hun, rfl⟩ := collect_eq_some hs
  apply h.set
  · intro hk hno _
    apply hk hno (.inr hun)
  · intro p hp _ hb hno
    have hst := hb hno
    constructor
    · intro _
      exact .inl rfl
    · intro exitCode hl
      have hsa := hst.2 exitCode hl
      simp [hun, hl] at hsa
  · intro p hp _ _ hd
    exact ⟨hd.restarting_eq, hd.isOver.removed, by simp, hd.succeeded⟩

theorem Live.handleUnitEvent (h : Live pod s) (hs : s.handleUnitEvent name subState = some t) :
  Live pod t
  := by
  obtain ⟨hpo, rfl | ⟨state, seen, -, rfl⟩⟩ := handleUnitEvent_eq_some hs
  · exact h
  · have hnx : Live pod (s.set name { s.containers name with seenRunning := seen }) := by
      refine h.set_checks ⟨rfl, rfl, id⟩ ?_
      simp [hpo]
    exact ⟨hnx.known, hnx.stands, hnx.checked⟩

theorem Live.probe (h : Live pod s) (hs : s.probe pod name = some t) :
  Live pod t
  := by
  obtain ⟨p, hpo, hto, -, rfl⟩ := probe_eq_some hs
  apply h.set_checks (maybeRestart_checks _ _)
  intro p' hp' hna
  rw [hpo] at hp'
  cases hp'
  rw [hto]
  apply hna

theorem restartContainer_restarting {polling : Bool} {outcome : StopOutcome} {step : RestartStep}
    (h : m.restartContainer polling ok outcome step = some m') (hs : step ≠ .finish) :
  m'.restarting ≠ none
  := by
  cases step with
  | finish => contradiction
  | waitForContainer =>
    simp only [restartContainer] at h
    split at h
    · split at h
      · cases h
        simp
      · cases h
    · cases h
      simp
  | markRunning =>
    simp only [restartContainer] at h
    split at h
    · cases h
    · cases h
      simp
  | _ =>
    cases h
    simp

theorem Live.restart {ok : Bool} {outcome : StopOutcome} (h : Live pod s)
    (hso : Harmless pod s (.restart name ok outcome)) (hs : s.restart name ok outcome = some t) :
  Live pod t
  := by
  obtain ⟨step, m', hr, hm', rfl⟩ := restart_eq_some hs
  have hd : ∀ p, s.poll = some p → name ∈ pod.containerNames → name ∉ p.todo →
      Done pod p name (s.containers name) → Done pod p name m' := by
    intro p _ _ _ hd
    rw [hd.restarting_eq] at hr
    cases hr
  by_cases hfi : step = .finish
  · subst hfi
    cases hm'
    obtain ⟨hla, hst⟩ := hso hr
    apply h.set _ _ hd
    · intro _ _
      apply hla
    · intro p hp hto _ _
      apply hst p hp hto
  · have hgo := restartContainer_restarting hm' hfi
    apply h.set _ _ hd
    · intro _ hno
      contradiction
    · intro _ _ _ _ hno
      contradiction

theorem Live.pollBegin (h : Live pod s) (hs : s.pollBegin pod = some t) :
  Live pod t
  := by
  obtain ⟨-, checks, -, rfl⟩ := pollBegin_eq_some hs
  refine ⟨h.known, ?_, ?_⟩
  · intro p hp name _ _
    cases hp
    apply stands_refl
  · intro p hp hc _ name hna
    cases hp
    left
    rw [if_pos hc]
    apply hna

theorem Live.found_exited (h : Live pod s) (hpo : s.poll = some p) (hto : name ∈ p.todo)
    (hna : name ∈ pod.containerNames)
    (hch : checkContainer (effectivePolicy pod.spec.restartPolicy) deleting unhealthy
      (p.listManagedMachines name) (s.containers name) = (m, verdict))
    (hex : verdict.exited) {p' : Poll} (hui : p'.units = p.units)
    (hsu : p'.allSucceeded → verdict.succeeded) :
  Done pod p' name m
  := by
  have hc := checkContainer_checks (effectivePolicy pod.spec.restartPolicy) deleting
    unhealthy (p.listManagedMachines name) (s.containers name)
  rw [hch] at hc
  obtain ⟨hi, hno, ho, hg⟩ := checkContainer_exited hch hex
  have hst := h.stands p hpo name hto hi
  refine ⟨hno, ?_, ?_, ?_⟩
  · rw [hc.unit_eq]
    apply ho.stands hst
  · intro u v hu hv
    rw [hui] at hu
    rw [hc.unit_eq] at hv
    apply agrees_of_stands hst ho.ended hu hv
  · intro ha
    rw [hc.lastExit_eq]
    apply h.known name hna hi
    apply hst.1
    apply hg (hsu ha)

theorem Live.check (h : Live pod s) (hs : s.check pod unhealthy = some t) :
  Live pod t
  := by
  obtain ⟨p, name, todo, m, verdict, hpo, hto, hch, rfl⟩ := check_eq_some hs
  have hc := checkContainer_checks (effectivePolicy pod.spec.restartPolicy) s.deleting
    unhealthy (p.listManagedMachines name) (s.containers name)
  rw [hch] at hc
  have hse : Live pod (s.set name m) := by
    apply h.set_checks hc
    intro p' hp' _
    cases hpo.symm.trans hp'
    simp [hto]
  refine ⟨hse.known, ?_, ?_⟩
  · intro p' hp' name' hn
    cases hp'
    apply hse.stands p hpo name'
    rw [hto]
    exact mem_cons_of_mem _ hn
  · intro p' hp' hpd hex name' hn
    cases hp'
    obtain ⟨ha, hve⟩ := and_eq_true_iff.1 hex
    rw [containers_set]
    split
    next hsa =>
      subst hsa
      right
      refine h.found_exited hpo (by simp [hto]) hn hch hve rfl ?_
      intro hsu
      apply (and_eq_true_iff.1 hsu).2
    next hne =>
      rcases h.checked p hpo hpd ha name' hn with hlt | hd
      · left
        rw [hto] at hlt
        apply (mem_cons.1 hlt).resolve_left hne
      · right
        refine ⟨hd.restarting_eq, hd.isOver, hd.agrees, ?_⟩
        intro hsu
        apply hd.succeeded (and_eq_true_iff.1 hsu).1

/-- All containers of the pod are over and none is being restarted. -/
structure Quiet (pod : Pod) (s : Watch) : Prop where
  restarting_eq : ∀ name ∈ pod.containerNames, (s.containers name).restarting = none
  isOver : ∀ name ∈ pod.containerNames,
    Over (effectivePolicy pod.spec.restartPolicy) (s.containers name).unit
  listed : ∀ p, s.poll = some p → ∀ name ∈ pod.containerNames,
    Over (effectivePolicy pod.spec.restartPolicy) (p.units name)
  succeeded : s.phase = .succeeded →
    ∀ name ∈ pod.containerNames, (s.containers name).lastExit = some 0

structure Frozen (pod : Pod) (s : Watch) : Prop where
  agrees : s.poll = none → ∀ name ∈ pod.containerNames, ∀ prev v,
    s.prevStateMap name = some prev → (s.containers name).unit = some v → prev = v.listed.state
  polled : ∀ p, s.poll = some p → p.checks = false ∧ p.todo = []
    ∧ ∀ name ∈ pod.containerNames, ∀ u v,
      p.units name = some u → (s.containers name).unit = some v → u.listed.state = v.listed.state

theorem Quiet.set (h : Quiet pod s) (hm : name ∈ pod.containerNames → m.restarting = none
      ∧ Over (effectivePolicy pod.spec.restartPolicy) m.unit
      ∧ m.lastExit = (s.containers name).lastExit) :
  Quiet pod (s.set name m)
  := by
  refine ⟨?_, ?_, h.listed, ?_⟩
  · apply forall_set (fun name m => name ∈ pod.containerNames → m.restarting = none)
      (fun hn => (hm hn).1) h.restarting_eq
  · apply forall_set (fun name m => name ∈ pod.containerNames → Over _ m.unit)
      (fun hn => (hm hn).2.1) h.isOver
  · intro hph
    apply forall_set (fun name m => name ∈ pod.containerNames → m.lastExit = some 0) _
      (h.succeeded hph)
    intro hn
    rw [(hm hn).2.2]
    apply h.succeeded hph name hn

theorem Quiet.not_active (h : Quiet pod s) (hac : (s.containers name).unit = some .creating
      ∨ (s.containers name).unit = some .running) :
  name ∉ pod.containerNames
  := by
  intro hna
  apply not_ended_active hac (h.isOver name hna).ended

theorem Quiet.not_restarting (h : Quiet pod s) {step : RestartStep}
    (hr : (s.containers name).restarting = some step) :
  name ∉ pod.containerNames
  := by
  intro hna
  rw [h.restarting_eq name hna] at hr
  cases hr

theorem Quiet.step (h : Quiet pod s) (hph : s.phase.terminal)
    (ha : ∀ reset, a ≠ .pollEnd reset) (hs : (batchWatcher pod).step s a = some t) :
  Quiet pod t
  := by
  cases a with
  | pollBegin =>
    obtain ⟨-, checks, -, rfl⟩ := pollBegin_eq_some hs
    refine ⟨h.restarting_eq, h.isOver, ?_, h.succeeded⟩
    intro p hp
    cases hp
    apply h.isOver
  | probe name =>
    obtain ⟨-, -, -, hru, -⟩ := probe_eq_some hs
    rw [hph] at hru
    cases hru
  | check unhealthy =>
    obtain ⟨p, name, todo, m, verdict, hpo, -, hch, rfl⟩ := check_eq_some hs
    have hc := checkContainer_checks (effectivePolicy pod.spec.restartPolicy) s.deleting
      unhealthy (p.listManagedMachines name) (s.containers name)
    have hnx : Quiet pod (s.set name m) := by
      apply h.set
      intro hna
      have hke := checkContainer_over s.deleting unhealthy (h.listed p hpo name hna)
        (s.containers name)
      change (checkContainer _ _ _ (p.listManagedMachines name) _).1.restarting = _ at hke
      rw [hch] at hc hke
      rw [hc.unit_eq]
      exact ⟨hke.trans (h.restarting_eq name hna), h.isOver name hna, hc.lastExit_eq⟩
    refine ⟨hnx.restarting_eq, hnx.isOver, ?_, hnx.succeeded⟩
    intro p' hp'
    cases hp'
    apply h.listed p hpo
  | pollEnd reset => exact absurd rfl (ha reset)
  | handleUnitEvent name subState =>
    obtain ⟨-, rfl | ⟨state, seen, -, rfl⟩⟩ := handleUnitEvent_eq_some hs
    · exact h
    · have hnx : Quiet pod (s.set name { s.containers name with seenRunning := seen }) := by
        apply h.set
        intro hna
        exact ⟨h.restarting_eq name hna, h.isOver name hna, rfl⟩
      exact ⟨hnx.restarting_eq, hnx.isOver, hnx.listed, hnx.succeeded⟩
  | restart name ok outcome =>
    obtain ⟨step, m, hr, -, rfl⟩ := restart_eq_some hs
    apply h.set
    intro hna
    exact absurd hna (h.not_restarting hr)
  | start name =>
    obtain ⟨hun, rfl⟩ := start_eq_some hs
    apply h.set
    intro hna
    exact absurd hna (h.not_active (.inl hun))
  | exit name exitCode =>
    obtain ⟨hac, rfl⟩ := exit_eq_some hs
    apply h.set
    intro hna
    exact absurd hna (h.not_active hac)
  | collect name =>
    obtain ⟨-, rfl⟩ := collect_eq_some hs
    apply h.set
    intro hna
    exact ⟨h.restarting_eq name hna, (h.isOver name hna).removed, rfl⟩

theorem Frozen.set (h : Frozen pod s) (hun : name ∈ pod.containerNames → ∀ v, m.unit = some v →
      (s.containers name).unit = some v) :
  Frozen pod (s.set name m)
  := by
  have hke : ∀ name' ∈ pod.containerNames, ∀ v,
      ((s.set name m).containers name').unit = some v →
        (s.containers name').unit = some v := by
    apply forall_set (fun name' m => name' ∈ pod.containerNames → ∀ v,
      m.unit = some v → (s.containers name').unit = some v) hun
    exact fun _ _ _ => id
  constructor
  · intro hpo name' hn prev v hpr hv
    apply h.agrees hpo name' hn prev v hpr (hke name' hn v hv)
  · intro p hp
    obtain ⟨hc, hto, hag⟩ := h.polled p hp
    refine ⟨hc, hto, ?_⟩
    intro name' hn u v hu hv
    apply hag name' hn u v hu (hke name' hn v hv)

theorem Frozen.needsReeval (h : Frozen pod s) (hpo : s.poll = none) :
  s.needsReeval pod = false
  := by
  apply any_eq_false.2
  intro name hna
  split
  next prev v hpr hv =>
    simpa using h.agrees hpo name hna prev v hpr hv
  · simp

theorem Quiet.harmless_event (h : Quiet pod s) (hph : s.phase.terminal)
    {state : MachineState} (hse : eventState subState = some state)
    (hso : Harmless pod s (.handleUnitEvent name subState)) (hsh : s.shared) :
  (name ∈ pod.containerNames → ∀ v, (s.containers name).unit = some v → v.listed.state = state)
    ∨ ∀ name' ∈ pod.containerNames, Known (s.containers name')
  := by
  by_cases hna : name ∈ pod.containerNames
  · by_cases hf : s.phase = .failed
    · rcases hso ⟨hf, hsh, hna⟩ with hag | hk
      · left
        intro _ v hv
        apply hag state hse v hv
      · right
        intro name' hn _
        apply hk name' hn
    · right
      have hsu : s.phase = .succeeded := by
        generalize s.phase = phase at hph hf
        cases phase with
        | succeeded => rfl
        | failed => exact absurd rfl hf
        | _ => cases hph
      intro name' hn _ _
      apply h.succeeded hsu name' hn
  · left
    intro hme
    contradiction

theorem Frozen.handleUnitEvent (h : Frozen pod s) (hq : Quiet pod s)
    (hph : s.phase.terminal) (hso : Harmless pod s (.handleUnitEvent name subState))
    (hs : s.handleUnitEvent name subState = some t) :
  Live pod t ∨ Frozen pod t
  := by
  obtain ⟨hpo, rfl | ⟨state, seen, hse, rfl⟩⟩ := handleUnitEvent_eq_some hs
  · right
    exact h
  · have hnx : Frozen pod (s.set name { s.containers name with seenRunning := seen }) :=
      h.set fun _ _ => id
    cases hsh : s.shared with
    | false =>
      right
      exact ⟨hnx.agrees, hnx.polled⟩
    | true =>
      rcases hq.harmless_event hph hse hso hsh with hag | hk
      · right
        refine ⟨?_, hnx.polled⟩
        intro _ name' hn prev v hpr hv
        simp only [if_true, Function.update_apply] at hpr
        split at hpr
        next hsa =>
          subst hsa
          cases hpr
          apply (hag hn v _).symm
          simpa [containers_set] using hv
        · apply hnx.agrees hpo name' hn prev v hpr hv
      · left
        refine ⟨?_, ?_, ?_⟩
        · apply forall_set (fun name m => name ∈ pod.containerNames → Known m) _ hk
          intro hn
          apply (hk name hn).checks ⟨rfl, rfl, id⟩
        all_goals
          intro p hp
          cases hpo.symm.trans hp

theorem Frozen.step (h : Frozen pod s) (hq : Quiet pod s) (hph : s.phase.terminal)
    (ha : ∀ reset, a ≠ .pollEnd reset) (hso : Harmless pod s a)
    (hs : (batchWatcher pod).step s a = some t) :
  Live pod t ∨ Frozen pod t
  := by
  cases a with
  | pollBegin =>
    obtain ⟨hpo, checks, hc, rfl⟩ := pollBegin_eq_some hs
    right
    constructor
    · intro hno
      cases hno
    · intro p hp
      cases hp
      obtain rfl : checks = false := by simpa [hph, h.needsReeval hpo] using hc
      refine ⟨rfl, rfl, ?_⟩
      intro name _ u v hu hv
      cases hu.symm.trans hv
      rfl
  | probe name =>
    obtain ⟨-, -, -, hru, -⟩ := probe_eq_some hs
    rw [hph] at hru
    cases hru
  | check unhealthy =>
    obtain ⟨p, name, todo, m, verdict, hpo, hto, -, -⟩ := check_eq_some hs
    rw [(h.polled p hpo).2.1] at hto
    cases hto
  | pollEnd reset => exact absurd rfl (ha reset)
  | handleUnitEvent name subState => exact h.handleUnitEvent hq hph hso hs
  | restart name ok outcome =>
    obtain ⟨step, m, hr, -, rfl⟩ := restart_eq_some hs
    right
    apply h.set
    intro hna
    exact absurd hna (hq.not_restarting hr)
  | start name =>
    obtain ⟨hun, rfl⟩ := start_eq_some hs
    right
    apply h.set
    intro hna
    exact absurd hna (hq.not_active (.inl hun))
  | exit name exitCode =>
    obtain ⟨hac, rfl⟩ := exit_eq_some hs
    right
    apply h.set
    intro hna
    exact absurd hna (hq.not_active hac)
  | collect name =>
    obtain ⟨-, rfl⟩ := collect_eq_some hs
    right
    apply h.set
    simp

theorem resetUnit_over (h : Over policy m.unit) :
  Over policy (m.resetUnit ok).unit ∧ ∀ v, (m.resetUnit ok).unit = some v → m.unit = some v
  := by
  unfold resetUnit
  split
  · exact ⟨h.removed, by simp⟩
  · exact ⟨h.removed, by simp⟩
  · exact ⟨h, fun _ => id⟩

theorem listed_eq_some {prev : MachineState}
    (h : (p.listManagedMachines name).map PodMetadata.state = some prev) :
  ∃ u, p.units name = some u ∧ u.listed.state = prev
  := by
  obtain ⟨entry, het, rfl⟩ := Option.map_eq_some_iff.1 h
  obtain ⟨u, hu, rfl⟩ := Option.map_eq_some_iff.1 het
  use u

def ended (pod : Pod) (s : Watch) (p : Poll) (reset : String → Bool) : Watch :=
  { s with
    poll := none
    prevStateMap := fun name => (p.listManagedMachines name).map PodMetadata.state
    shared := true
    phase := if p.allSucceeded then .succeeded else .failed
    containers := fun name =>
      if name ∈ pod.containerNames then (s.containers name).resetUnit (reset name)
      else s.containers name }

theorem quiet_ended (hd : ∀ name ∈ pod.containerNames, Done pod p name (s.containers name))
    (reset : String → Bool) :
  Quiet pod (ended pod s p reset) ∧ Frozen pod (ended pod s p reset)
  := by
  have hco : ∀ name ∈ pod.containerNames,
      (ended pod s p reset).containers name = (s.containers name).resetUnit (reset name) := by
    intro name hna
    apply if_pos hna
  constructor
  · refine ⟨?_, ?_, fun p' hp' => (nomatch hp'), ?_⟩
    · intro name hna
      rw [hco name hna, (resetUnit_frame _ _).1]
      apply (hd name hna).restarting_eq
    · intro name hna
      rw [hco name hna]
      apply (resetUnit_over (hd name hna).isOver).1
    · intro hsu name hna
      rw [hco name hna, (resetUnit_frame _ _).2]
      apply (hd name hna).succeeded
      by_contra hnt
      rw [ended, if_neg hnt] at hsu
      cases hsu
  · refine ⟨?_, fun p' hp' => (nomatch hp')⟩
    intro _ name hna prev v hpr hv
    rw [hco name hna] at hv
    obtain ⟨u, hu, rfl⟩ := listed_eq_some hpr
    apply (hd name hna).agrees u v hu
    apply (resetUnit_over (hd name hna).isOver).2 v hv

/-- The invariant of whole runs. -/
structure Sound (pod : Pod) (s : Watch) : Prop where
  live : Live pod s ∨ s.phase.terminal = true ∧ Frozen pod s
  quiet : s.phase.terminal = true → Quiet pod s

theorem Sound.pollEnd (h : Sound pod s) {reset : String → Bool}
    (hs : s.pollEnd pod reset = some t) :
  Sound pod t
  := by
  obtain ⟨p, hpo, hto, ⟨hc, hex, heq⟩ | rfl⟩ := pollEnd_eq_some hs
  · subst heq
    rcases h.live with hli | ⟨-, hfr⟩
    · have hd : ∀ name ∈ pod.containerNames, Done pod p name (s.containers name) := by
        intro name hna
        apply (hli.checked p hpo hc hex name hna).resolve_left
        simp [hto]
      obtain ⟨hq, hfr⟩ := quiet_ended hd reset
      have ht : (ended pod s p reset).phase.terminal := by
        unfold ended
        split
        all_goals rfl
      exact ⟨.inr ⟨ht, hfr⟩, fun _ => hq⟩
    · rw [(hfr.polled p hpo).1] at hc
      cases hc
  · constructor
    · rcases h.live with hli | ⟨hph, hfr⟩
      · left
        exact ⟨hli.known, fun p' hp' => (nomatch hp'), fun p' hp' => (nomatch hp')⟩
      · right
        refine ⟨hph, ?_, fun p' hp' => (nomatch hp')⟩
        intro _ name hna prev v hpr hv
        obtain ⟨u, hu, rfl⟩ := listed_eq_some hpr
        apply (hfr.polled p hpo).2.2 name hna u v hu hv
    · intro hph
      have hq := h.quiet hph
      exact ⟨hq.restarting_eq, hq.isOver, fun p' hp' => (nomatch hp'), hq.succeeded⟩

theorem phase_of_step (ha : ∀ reset, a ≠ .pollEnd reset)
    (hs : (batchWatcher pod).step s a = some t) :
  t.phase = s.phase
  := by
  cases a with
  | pollBegin =>
    obtain ⟨-, -, -, rfl⟩ := pollBegin_eq_some hs
    rfl
  | probe name =>
    obtain ⟨-, -, -, -, rfl⟩ := probe_eq_some hs
    rfl
  | check unhealthy =>
    obtain ⟨-, -, -, -, -, -, -, -, rfl⟩ := check_eq_some hs
    rfl
  | pollEnd reset => exact absurd rfl (ha reset)
  | handleUnitEvent name subState =>
    obtain ⟨-, rfl | ⟨-, -, -, rfl⟩⟩ := handleUnitEvent_eq_some hs
    all_goals rfl
  | restart name ok outcome =>
    obtain ⟨-, -, -, -, rfl⟩ := restart_eq_some hs
    rfl
  | start name =>
    obtain ⟨-, rfl⟩ := start_eq_some hs
    rfl
  | exit name exitCode =>
    obtain ⟨-, rfl⟩ := exit_eq_some hs
    rfl
  | collect name =>
    obtain ⟨-, rfl⟩ := collect_eq_some hs
    rfl

theorem Live.step (h : Live pod s) (ha : ∀ reset, a ≠ .pollEnd reset) (hso : Harmless pod s a)
    (hs : (batchWatcher pod).step s a = some t) :
  Live pod t
  := by
  cases a with
  | pollBegin => exact h.pollBegin hs
  | probe name => exact h.probe hs
  | check unhealthy => exact h.check hs
  | pollEnd reset => exact absurd rfl (ha reset)
  | handleUnitEvent name subState => exact h.handleUnitEvent hs
  | restart name ok outcome => exact h.restart hso hs
  | start name => exact h.start hs
  | exit name exitCode => exact h.exit hs
  | collect name => exact h.collect hs

theorem Sound.step (h : Sound pod s) (hso : Harmless pod s a)
    (hs : (batchWatcher pod).step s a = some t) :
  Sound pod t
  := by
  by_cases hed : ∃ reset, a = .pollEnd reset
  · obtain ⟨reset, rfl⟩ := hed
    apply h.pollEnd hs
  · have ha : ∀ reset, a ≠ .pollEnd reset := not_exists.1 hed
    have hph := phase_of_step ha hs
    constructor
    · rcases h.live with hli | ⟨ht, hfr⟩
      · left
        apply hli.step ha hso hs
      · apply (hfr.step (h.quiet ht) ht ha hso hs).imp_right
        intro hnx
        exact ⟨hph ▸ ht, hnx⟩
    · intro ht
      rw [hph] at ht
      apply (h.quiet ht).step ht ha hs

structure Started (pod : Pod) (s : Watch) : Prop where
  phase_eq : s.phase.terminal = false
  poll_eq : s.poll = none
  restarting_eq : ∀ name ∈ pod.containerNames, (s.containers name).restarting = none
  lastExit_eq : ∀ name ∈ pod.containerNames, Gone (s.containers name).unit →
    (s.containers name).lastExit = some 0

theorem Started.sound (h : Started pod s) :
  Sound pod s
  := by
  constructor
  · left
    refine ⟨?_, ?_, ?_⟩
    · intro name hna _
      apply h.lastExit_eq name hna
    all_goals
      intro p hp
      rw [h.poll_eq] at hp
      cases hp
  · intro ht
    rw [h.phase_eq] at ht
    cases ht

/-- In every run of harmless actions, a pod is `Succeeded` only if the last run of every container
ended with exit code 0. -/
theorem succeeded_sound
    (pod : Pod) (s t : Watch) (hstart : Started pod s) (actions : List WatchAction)
    (hsound : (batchWatcher pod).Meets (Harmless pod) s actions)
    (hrun : (batchWatcher pod).run s actions = some t) (hphase : t.phase = .succeeded) :
  ∀ name ∈ pod.containerNames, (t.containers name).lastExit = some 0
  := by
  have hed : Sound pod t := by
    apply (batchWatcher pod).run_induction (P := Sound pod) hstart.sound _ hsound hrun
    intro u a v hu ha hs
    apply hu.step ha hs
  apply (hed.quiet _).succeeded hphase
  rw [hphase]
  rfl

def jobPod : Pod :=
  ⟨.onFailure, [{ name := "a" }]⟩

def jobStarted : Watch where
  phase := .running
  deleting := false
  containers _ :=
    { unit := some .running
      lastExit := none
      seenRunning := true
      restarting := none
      restartCount := some 0 }
  prevStateMap _ := none
  shared := false
  poll := none

theorem jobStarted_started :
  Started jobPod jobStarted
  := by
  refine ⟨rfl, rfl, fun _ _ => rfl, ?_⟩
  intro name _ hg
  exact absurd hg not_gone_running

def jobFails : List WatchAction :=
  [.exit "a" 1, .pollBegin, .check false, .pollEnd fun _ => true]

def jobRemoved : List WatchAction :=
  [.restart "a" true .error, .restart "a" true (.stopped 1 true), .restart "a" true .error]

def jobLaunched : List WatchAction :=
  [.restart "a" true .error, .restart "a" true .error, .restart "a" true .error,
    .restart "a" true .error, .restart "a" true .error, .start "a", .restart "a" true .error,
    .restart "a" true .error, .restart "a" true .error, .restart "a" true .error,
    .restart "a" true .error]

def jobGivenUp : List WatchAction :=
  [.restart "a" false .error, .restart "a" true .error]

def jobPolled : List WatchAction :=
  [.pollBegin, .check false, .pollEnd fun _ => true]

theorem succeeded_sound_restarted :
  ∃ t, (batchWatcher jobPod).run jobStarted
      (jobFails ++ jobRemoved ++ jobLaunched ++ .exit "a" 0 :: jobPolled) = some t
    ∧ t.phase = .succeeded ∧ (t.containers "a").lastExit = some 0
  := by
  refine ⟨_, rfl, rfl, ?_⟩
  apply succeeded_sound jobPod jobStarted _ jobStarted_started
    (jobFails ++ jobRemoved ++ jobLaunched ++ .exit "a" 0 :: jobPolled) _ rfl rfl
  · simp [jobPod, Pod.containerNames]
  · decide

theorem succeeded_after_failure :
  Started jobPod jobStarted
    ∧ ∃ t, (batchWatcher jobPod).run jobStarted
        (jobFails ++ jobRemoved ++ jobGivenUp ++ jobPolled) = some t
      ∧ t.phase = .succeeded ∧ (t.containers "a").lastExit = some 1
  := ⟨jobStarted_started, _, rfl, rfl, rfl⟩

/-- One container fails and another succeeds, and only the first unit is removed: a late event of
the second makes the next poll take the failed pod to have succeeded. -/
example :
  ∃ t, (batchWatcher ⟨.never, [{ name := "a" }, { name := "b" }]⟩).run jobStarted
      [.exit "a" 1, .exit "b" 0, .pollBegin, .check false, .check false, .pollEnd (· = "a"),
        .handleUnitEvent "b" .running, .pollBegin, .check false, .check false,
        .pollEnd fun _ => true] = some t
    ∧ t.phase = .succeeded ∧ (t.containers "a").lastExit = some 1
  := ⟨_, rfl, rfl, rfl⟩

end Periapsis.Node
