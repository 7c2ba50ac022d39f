import Periapsis.Node.Lifecycle

/-!
# The retries of a creation

The goroutine that creates a pod launches the init containers, each until it has exited, and then
the containers.
-/

namespace Periapsis.Node

open Corev1 Periapsis.Types Perigeos Transition List Function

inductive ContainerKind where
  | init
  | sidecar
  | app
  deriving DecidableEq

structure Planned where
  name : String
  kind : ContainerKind
  deriving DecidableEq

def planned (pod : ApiPod) (sidecar : String → Bool) : List Planned :=
  pod.initContainers.map (fun c => ⟨c.name, if sidecar c.name then .sidecar else .init⟩)
    ++ pod.spec.containers.map fun c => ⟨c.name, .app⟩

/-- A container that is to be launched, as the lifecycle of the pod has it. -/
def Planned.launch (c : Planned) : Launch :=
  ⟨c.name, c.kind = .init⟩

theorem launches_eq_map_planned (pod : ApiPod) (sidecar : String → Bool) :
  launches pod sidecar = (planned pod sidecar).map Planned.launch
  := by
  unfold launches planned
  rw [map_append, map_map, map_map]
  congr 1
  apply map_congr_left
  intro c _
  cases h : sidecar c.name with
  | _ => simp [Planned.launch, h]

inductive PodUnit where
  | queued
  | activating
  | active
  | inactive (exitCode : Int32)
  | failed
  deriving DecidableEq

namespace PodUnit

def machineState (statusRead : Bool) : PodUnit → MachineState
  | .queued => .exited
  | .activating => .creating
  | .active => .running
  | .inactive exitCode => if statusRead = true ∧ exitCode ≠ 0 then .failed else .exited
  | .failed => .failed

end PodUnit

inductive UnitChange where
  | activate
  | start
  | exit (exitCode : Int32)
  | settle
  | collect
  deriving DecidableEq

def PodUnit.change : PodUnit → UnitChange → Option (Option PodUnit)
  | .queued, .activate => some (some .activating)
  | .activating, .start => some (some .active)
  | .activating, .exit exitCode => some (some (.inactive exitCode))
  | .active, .exit exitCode => some (some (.inactive exitCode))
  | .inactive exitCode, .settle => if exitCode = 0 then none else some (some .failed)
  | .inactive exitCode, .collect => if exitCode = 0 then some none else none
  | _, _ => none

def PodUnit.alive : Option PodUnit → Bool
  | some .queued | some .activating | some .active => true
  | _ => false

/-- Where the goroutine that creates a pod is. -/
inductive RetryPoint where
  | sandbox
  | next (todo : List Planned)
  | launch (c : Planned) (todo : List Planned)
  | waitForMachineExit (c : Planned) (todo : List Planned) (started : Bool)
  | waitForContainer (c : Planned) (todo : List Planned)
  | failed
  | finish
  deriving DecidableEq

inductive RetryEvent where
  | launch (c : Planned)
  | completed (name : String)
  deriving DecidableEq

structure Retries where
  units : String → Option PodUnit
  stateCache : String → Option MachineState
  point : RetryPoint
  events : List RetryEvent

inductive RetryAction where
  | sandbox (ok : Bool)
  | look (phase : PodPhase)
  | prepareFails
  | runMachine (ok removed : Bool)
  /-- Take notice of an event of the unit, or of the unit itself. The exit status is read or not,
  and the time for the unit to start is over or not. -/
  | observe (event : Option SubState) (statusRead graceOver : Bool)
  | waitFails (removed : Bool)
  | started (ok removed : Bool)
  | backoff (cancelled : Bool)
  | unit (name : String) (change : UnitChange)
  | poll (statusRead : String → Bool)
  | handleUnitEvent (name : String) (subState : SubState)

namespace Retries

variable (s : Retries)

def containerState (name : String) : MachineState :=
  (s.stateCache name).getD .unknown

def skips (phase : PodPhase) (c : Planned) : Bool :=
  match c.kind with
  | .sidecar => s.containerState c.name = .running
  | .init => s.containerState c.name = .exited
  | .app =>
    phase = .running
      && (s.containerState c.name = .running || s.containerState c.name = .exited
        || s.containerState c.name = .failed)

def machineStatus (name : String) (statusRead : Bool) : MachineState :=
  match s.units name with
  | none => .exited
  | some unit => unit.machineState statusRead

def setUnit (name : String) (unit : Option PodUnit) : Retries :=
  { s with units := update s.units name unit }

def stopMachine (name : String) (removed : Bool) : Retries :=
  if removed then s.setUnit name none else s

def checkState (c : Planned) (todo : List Planned) (started : Bool) (event : Option SubState)
    (statusRead graceOver : Bool) : RetryPoint :=
  match event with
  | some .running | some .startPre | some .start | some .startPost =>
    .waitForMachineExit c todo true
  | some .failed => .failed
  | _ =>
    match s.machineStatus c.name statusRead with
    | .running | .creating => .waitForMachineExit c todo true
    | .failed => .failed
    | .exited =>
      if started || graceOver then .next todo else .waitForMachineExit c todo started
    | _ => .waitForMachineExit c todo started

variable {s}

def step (pod : ApiPod) (sidecar : String → Bool) (s : Retries) : RetryAction → Option Retries
  | .sandbox ok =>
    match s.point with
    | .sandbox =>
      some { s with point := if ok then .next (planned pod sidecar) else .failed }
    | _ => none
  | .look phase =>
    match s.point with
    | .next [] => some { s with point := .finish }
    | .next (c :: todo) =>
      some { s with point := if s.skips phase c then .next todo else .launch c todo }
    | _ => none
  | .prepareFails =>
    match s.point with
    | .launch _ _ => some { s with point := .failed }
    | _ => none
  | .runMachine ok removed =>
    match s.point with
    | .launch c todo =>
      if ok then
        some
          { s.setUnit c.name (some .queued) with
            point :=
              if c.kind = .init then .waitForMachineExit c todo false
              else .waitForContainer c todo
            events := .launch c :: s.events }
      else some { s.stopMachine c.name removed with point := .failed }
    | _ => none
  | .observe event statusRead graceOver =>
    match s.point with
    | .waitForMachineExit c todo started =>
      some { s with point := s.checkState c todo started event statusRead graceOver }
    | _ => none
  | .waitFails removed =>
    match s.point with
    | .waitForMachineExit c _ _ =>
      some { s.stopMachine c.name removed with point := .failed }
    | _ => none
  | .started ok removed =>
    match s.point with
    | .waitForContainer c todo =>
      if ok then some { s with point := .next todo }
      else some { s.stopMachine c.name removed with point := .failed }
    | _ => none
  | .backoff cancelled =>
    match s.point with
    | .failed =>
      some
        { s with
          point :=
            if pod.spec.restartPolicy = .never ∨ cancelled = true then .finish
            else .sandbox }
    | _ => none
  | .unit name change =>
    match (s.units name).bind (·.change change) with
    | none => none
    | some unit =>
      some
        { s.setUnit name unit with
          events := if change = .exit 0 then .completed name :: s.events else s.events }
  | .poll statusRead =>
    some
      { s with
        stateCache := fun name =>
          (s.units name).map (PodUnit.machineState (statusRead name)) }
  | .handleUnitEvent name subState =>
    match eventState subState with
    | none => some s
    | some state => some { s with stateCache := update s.stateCache name (some state) }

end Retries

def retries (pod : ApiPod) (sidecar : String → Bool) : System Retries RetryAction where
  step := Retries.step pod sidecar

/-- Where the goroutine is in the lifecycle of the pod, unless it has started a unit or ended. -/
def RetryPoint.createStep : RetryPoint → Option CreateStep
  | .sandbox => some .network
  | .next todo => some (.next (todo.map Planned.launch))
  | .launch c todo => some (.launchContainer c.launch (todo.map Planned.launch) .prepare)
  | .failed => some .failed
  | _ => none

/-- From a container the goroutine goes on as it does in the lifecycle of the pod. -/
theorem create_of_look {s t : Retries} {l : Lifecycle} (hp : s.point = .next (c :: todo))
    (h : s.step pod sidecar (.look phase) = some t)
    (hl : (l.creations handle).map Creating.step = s.point.createStep) :
  (l.create pod sidecar handle ok (s.skips phase c) outcome).bind
    (fun l => (l.creations handle).map Creating.step) = t.point.createStep
  := by
  rw [hp] at hl
  obtain ⟨cr, hcr, hst⟩ := Option.map_eq_some_iff.1 hl
  simp only [Retries.step, hp] at h
  cases h
  simp only [Lifecycle.create, hcr, hst, map_cons, Lifecycle.goto, Option.bind_some, update_self]
  split
  all_goals rfl

/-- An init container may be launched until it has completed, and a container once all have. -/
def MayLaunch (plan : List Planned) (before : List RetryEvent) (c : Planned) : Prop :=
  match c.kind with
  | .init => .completed c.name ∉ before
  | .sidecar => True
  | .app => ∀ ic ∈ plan, ic.kind = .init → .completed ic.name ∈ before

def RetrySafe (plan : List Planned) : List RetryEvent → Prop
  | [] => True
  | .launch c :: before => MayLaunch plan before c ∧ RetrySafe plan before
  | .completed _ :: before => RetrySafe plan before

def PodUnit.misread (statusRead : Bool) : Option PodUnit → Bool
  | some .queued => true
  | some (.inactive exitCode) => !statusRead && exitCode != 0
  | _ => false

/-- Where an init container is looked at, the cache has it as exited exactly if it has completed, no
earlier run of it goes on, and its unit is not misread. -/
def Retries.Reliable (s : Retries) : RetryAction → Prop
  | .look _ =>
    match s.point with
    | .next (c :: _) =>
      c.kind = .init →
        (s.containerState c.name = .exited ↔ .completed c.name ∈ s.events)
          ∧ (s.containerState c.name ≠ .exited → PodUnit.alive (s.units c.name) = false)
    | _ => True
  | .observe _ statusRead graceOver =>
    match s.point with
    | .waitForMachineExit c _ started =>
      started = true ∨ graceOver = true → PodUnit.misread statusRead (s.units c.name) = false
    | _ => True
  | _ => True

instance Retries.decidableReliable (s : Retries) (action : RetryAction) :
    Decidable (s.Reliable action) := by
  unfold Retries.Reliable
  split
  · split
    · infer_instance
    · infer_instance
  · split
    · infer_instance
    · infer_instance
  · infer_instance

def PodUnit.ended : Option PodUnit → Bool
  | none => true
  | some (.inactive exitCode) => exitCode = 0
  | _ => false

variable {change : UnitChange} {c : Planned} {done : List Planned} {events : List RetryEvent}

theorem change_spec {unit : PodUnit} (h : unit.change change = some unit') :
  (PodUnit.alive (some unit) = false → change ≠ .exit 0 ∧ PodUnit.alive unit' = false)
    ∧ (PodUnit.ended unit' → change = .exit 0 ∨ PodUnit.ended (some unit))
  := by
  unfold PodUnit.change at h
  split at h
  case h_6 =>
    split at h
    next hcd =>
      cases h
      simp [PodUnit.alive, PodUnit.ended, hcd]
    · cases h
  case h_5 =>
    split at h
    · cases h
    · cases h
      simp [PodUnit.alive, PodUnit.ended]
  all_goals cases h
  all_goals simp [PodUnit.alive, PodUnit.ended]

theorem ended_of_machineStatus {s : Retries} {name : String}
    (hex : s.machineStatus name statusRead = .exited)
    (hre : PodUnit.misread statusRead (s.units name) = false) :
  PodUnit.ended (s.units name)
  := by
  rw [Retries.machineStatus] at hex
  cases hun : s.units name with
  | none => rfl
  | some unit =>
    rw [hun] at hex hre
    cases unit with
    | queued => cases hre
    | activating | active | failed => cases hex
    | inactive exitCode =>
      simp only [PodUnit.machineState, PodUnit.misread] at hex hre
      simp only [PodUnit.ended, decide_eq_true_eq]
      by_contra hcd
      cases statusRead with
      | false => simp [hcd] at hre
      | true => simp [hcd] at hex

variable {pod : ApiPod} {sidecar : String → Bool} {todo : List Planned}

theorem app_of_planned (hp : planned pod sidecar = done ++ c :: todo) (hc : c.kind = .app) :
  ∀ ic ∈ todo, ic.kind = .app
  := by
  have hso : (planned pod sidecar).Pairwise fun a b => a.kind = .app → b.kind = .app := by
    rw [planned, pairwise_append]
    refine ⟨?_, ?_, ?_⟩
    · rw [pairwise_map]
      apply pairwise_of_forall
      intro a b ha
      split at ha
      all_goals cases ha
    · rw [pairwise_map]
      apply pairwise_of_forall
      intro a b _
      rfl
    · intro a _ b hb _
      obtain ⟨c, -, rfl⟩ := mem_map.1 hb
      rfl
  rw [hp, pairwise_append] at hso
  intro ic hic
  exact (pairwise_cons.1 hso.2.1).1 ic hic hc

def Passed (events : List RetryEvent) (done : List Planned) : Prop :=
  ∀ ic ∈ done, ic.kind = .init → .completed ic.name ∈ events

theorem Passed.mono (h : Passed events done) (hev : events ⊆ events') :
  Passed events' done
  := by
  intro ic hic hi
  apply hev (h ic hic hi)

theorem Passed.concat (h : Passed events done) (hc : c.kind = .init → .completed c.name ∈ events) :
  Passed events (done ++ [c])
  := by
  intro ic hic hi
  rcases mem_append.1 hic with hic | hic
  · exact h ic hic hi
  · obtain rfl := mem_singleton.1 hic
    exact hc hi

theorem Passed.next {plan : List Planned} (h : Passed events done) (hp : plan = done ++ c :: todo)
    (hc : c.kind = .init → .completed c.name ∈ events) :
  ∃ done', plan = done' ++ todo ∧ Passed events done'
  := by
  refine ⟨done ++ [c], ?_, h.concat hc⟩
  rw [hp, append_assoc]
  rfl

def Retries.Launching (s : Retries) (c : Planned) : RetryPoint → Prop
  | .launch _ _ =>
    c.kind = .init → .completed c.name ∉ s.events ∧ PodUnit.alive (s.units c.name) = false
  | .waitForMachineExit _ _ _ =>
    PodUnit.ended (s.units c.name) = true → .completed c.name ∈ s.events
  | .waitForContainer _ _ => c.kind ≠ .init
  | _ => True

def Retries.OnTheWay (plan : List Planned) (s : Retries) : Prop :=
  match s.point with
  | .next todo => ∃ done, plan = done ++ todo ∧ Passed s.events done
  | .launch c todo | .waitForMachineExit c todo _ | .waitForContainer c todo =>
    ∃ done, plan = done ++ c :: todo ∧ Passed s.events done ∧ s.Launching c s.point
  | _ => True

theorem mayLaunch_of_launching (hp : planned pod sidecar = done ++ c :: todo)
    (hd : Passed events done) (hc : c.kind = .init → .completed c.name ∉ events) :
  MayLaunch (planned pod sidecar) events c
  := by
  unfold MayLaunch
  split
  next hk =>
    exact hc hk
  · trivial
  next hk =>
    intro ic hic hi
    rw [hp] at hic
    rcases mem_append.1 hic with hic | hic
    · exact hd ic hic hi
    · rcases mem_cons.1 hic with rfl | hic
      · rw [hk] at hi
        cases hi
      · rw [app_of_planned hp hk ic hic] at hi
        cases hi

theorem Retries.checkState_cases (s : Retries) (c : Planned) (todo : List Planned) (started : Bool)
    (event : Option SubState) (statusRead graceOver : Bool) :
  s.checkState c todo started event statusRead graceOver = .failed
    ∨ (∃ started', s.checkState c todo started event statusRead graceOver
        = .waitForMachineExit c todo started')
    ∨ s.checkState c todo started event statusRead graceOver = .next todo
      ∧ (started ∨ graceOver)
      ∧ s.machineStatus c.name statusRead = .exited
  := by
  unfold Retries.checkState
  split
  · simp
  · simp
  · simp
  · simp
  · simp
  · split
    · simp
    · simp
    · simp
    next hex =>
      split
      next ho =>
        simp [hex, Bool.or_eq_true] at ho ⊢
        exact ho
      · simp
    · simp

/-- The invariant of a creation. -/
structure Retries.Sound (plan : List Planned) (s : Retries) : Prop where
  onTheWay : s.OnTheWay plan
  safe : RetrySafe plan s.events

variable {s t : Retries}

theorem Retries.Sound.failed {plan : List Planned} (hs : s.Sound plan) (name : String)
    (removed : Bool) :
  Retries.Sound plan { s.stopMachine name removed with point := .failed }
  := by
  refine ⟨trivial, ?_⟩
  cases removed with
  | _ => exact hs.safe

section

variable (hs : s.Sound (planned pod sidecar))
include hs

theorem Retries.Sound.look {phase : PodPhase} (hr : s.Reliable (.look phase))
    (h : s.step pod sidecar (.look phase) = some t) :
  t.Sound (planned pod sidecar)
  := by
  obtain ⟨hwa, hsa⟩ := hs
  simp only [Retries.step] at h
  split at h
  · cases h
    exact ⟨trivial, hsa⟩
  next c todo hpo =>
    simp only [Retries.OnTheWay, hpo] at hwa
    simp only [Retries.Reliable, hpo] at hr
    obtain ⟨done, hp, hd⟩ := hwa
    cases h
    refine ⟨?_, hsa⟩
    by_cases hsk : s.skips phase c
    · rw [if_pos hsk]
      have hco : c.kind = .init → .completed c.name ∈ s.events := by
        intro hi
        apply (hr hi).1.1
        simpa [Retries.skips, hi] using hsk
      apply hd.next hp hco
    · rw [if_neg hsk]
      refine ⟨done, hp, hd, ?_⟩
      intro hi
      have hst : s.containerState c.name ≠ .exited := by
        simpa [Retries.skips, hi] using hsk
      obtain ⟨hca, hal⟩ := hr hi
      exact ⟨fun hco => hst (hca.2 hco), hal hst⟩
  · cases h

theorem Retries.Sound.runMachine {ok removed : Bool}
    (h : s.step pod sidecar (.runMachine ok removed) = some t) :
  t.Sound (planned pod sidecar)
  := by
  have hwa := hs.onTheWay
  simp only [Retries.step] at h
  split at h
  next c todo hpo =>
    simp only [Retries.OnTheWay, hpo, Retries.Launching] at hwa
    obtain ⟨done, hp, hd, hc⟩ := hwa
    split at h
    · cases h
      constructor
      · have hdo := hd.mono (subset_cons_self (.launch c) s.events)
        by_cases hi : c.kind = .init
        · rw [if_pos hi]
          refine ⟨done, hp, hdo, ?_⟩
          simp [Retries.Launching, Retries.setUnit, PodUnit.ended]
        · rw [if_neg hi]
          exact ⟨done, hp, hdo, hi⟩
      · exact ⟨mayLaunch_of_launching hp hd fun hi => (hc hi).1, hs.safe⟩
    · cases h
      apply hs.failed
  · cases h

theorem Retries.Sound.observe (hr : s.Reliable (.observe event statusRead graceOver))
    (h : s.step pod sidecar (.observe event statusRead graceOver) = some t) :
  t.Sound (planned pod sidecar)
  := by
  obtain ⟨hwa, hsa⟩ := hs
  simp only [Retries.step] at h
  split at h
  next c todo started hpo =>
    simp only [Retries.OnTheWay, hpo, Retries.Launching] at hwa
    simp only [Retries.Reliable, hpo] at hr
    obtain ⟨done, hp, hd, hc⟩ := hwa
    cases h
    refine ⟨?_, hsa⟩
    rcases s.checkState_cases c todo started event statusRead graceOver with
      hf | ⟨started', hw⟩ | ⟨hne, ho, hex⟩
    · rw [hf]
      trivial
    · rw [hw]
      exact ⟨done, hp, hd, hc⟩
    · rw [hne]
      have hco := hc (ended_of_machineStatus hex (hr ho))
      apply hd.next hp fun _ => hco
  · cases h

end

theorem Retries.Launching.unit {point : RetryPoint} (hc : s.Launching c point) {name : String}
    {unit : PodUnit} (hun : s.units name = some unit) (hch : unit.change change = some unit')
    (hui : t.units = update s.units name unit')
    (hev : t.events = if change = .exit 0 then .completed name :: s.events else s.events) :
  t.Launching c point
  := by
  obtain ⟨hsi, hen⟩ := change_spec hch
  cases point with
  | launch c' todo =>
    intro hi
    obtain ⟨hno, hal⟩ := hc hi
    rw [hui, hev]
    by_cases hn : c.name = name
    · subst hn
      rw [hun] at hal
      obtain ⟨hei, hal⟩ := hsi hal
      rw [if_neg hei, update_self]
      exact ⟨hno, hal⟩
    · rw [update_of_ne hn]
      refine ⟨?_, hal⟩
      split
      · simp [hn, hno]
      · exact hno
  | waitForMachineExit c' todo started =>
    intro hd
    rw [hui] at hd
    rw [hev]
    by_cases hn : c.name = name
    · subst hn
      rw [update_self] at hd
      rcases hen hd with rfl | hd
      · exact mem_cons_self
      · have hco := hc (hun ▸ hd)
        split
        · exact mem_cons_of_mem _ hco
        · exact hco
    · rw [update_of_ne hn] at hd
      have hco := hc hd
      split
      · exact mem_cons_of_mem _ hco
      · exact hco
  | waitForContainer c' todo => exact hc
  | sandbox | next | failed | finish => trivial

theorem Retries.Sound.unit {name : String} (hs : s.Sound (planned pod sidecar))
    (h : s.step pod sidecar (.unit name change) = some t) :
  t.Sound (planned pod sidecar)
  := by
  obtain ⟨hwa, hsa⟩ := hs
  simp only [Retries.step] at h
  split at h
  · cases h
  next unit' hbi =>
    obtain ⟨unit, hun, hch⟩ := Option.bind_eq_some_iff.1 hbi
    cases h
    have hev : s.events
        ⊆ if change = .exit 0 then .completed name :: s.events else s.events := by
      split
      · exact subset_cons_self _ _
      · exact List.Subset.refl _
    constructor
    · unfold Retries.OnTheWay at hwa ⊢
      dsimp only [Retries.setUnit]
      split
      next hpo =>
        rw [hpo] at hwa
        obtain ⟨done, hp, hd⟩ := hwa
        exact ⟨done, hp, hd.mono hev⟩
      all_goals
        first
        | trivial
        | rename_i hpo
          rw [hpo] at hwa ⊢
          obtain ⟨done, hp, hd, hc⟩ := hwa
          exact ⟨done, hp, hd.mono hev, hc.unit hun hch rfl rfl⟩
    · split
      all_goals exact hsa

theorem Retries.Sound.step (hs : s.Sound (planned pod sidecar)) (hr : s.Reliable action)
    (h : (retries pod sidecar).step s action = some t) :
  t.Sound (planned pod sidecar)
  := by
  cases action with
  | look phase => exact hs.look hr h
  | runMachine ok removed => exact hs.runMachine h
  | observe event statusRead graceOver => exact hs.observe hr h
  | unit name change => exact hs.unit h
  | sandbox ok =>
    simp only [retries, Retries.step] at h
    split at h
    · cases h
      refine ⟨?_, hs.safe⟩
      cases ok with
      | false => trivial
      | true => exact ⟨[], rfl, nofun⟩
    · cases h
  | prepareFails =>
    simp only [retries, Retries.step] at h
    split at h
    · cases h
      exact ⟨trivial, hs.safe⟩
    · cases h
  | waitFails removed =>
    simp only [retries, Retries.step] at h
    split at h
    · cases h
      apply hs.failed
    · cases h
  | started ok removed =>
    simp only [retries, Retries.step] at h
    split at h
    next c todo hpo =>
      have hwa := hs.onTheWay
      simp only [Retries.OnTheWay, hpo, Retries.Launching] at hwa
      obtain ⟨done, hp, hd, hc⟩ := hwa
      split at h
      · cases h
        exact ⟨hd.next hp fun hi => absurd hi hc, hs.safe⟩
      · cases h
        apply hs.failed
    · cases h
  | backoff cancelled =>
    simp only [retries, Retries.step] at h
    split at h
    · cases h
      refine ⟨?_, hs.safe⟩
      split_ifs
      all_goals trivial
    · cases h
  | poll statusRead =>
    cases h
    exact ⟨hs.onTheWay, hs.safe⟩
  | handleUnitEvent name subState =>
    simp only [retries, Retries.step] at h
    split at h
    · cases h
      exact hs
    · cases h
      exact ⟨hs.onTheWay, hs.safe⟩

/-- In a creation whose steps are all reliable, no init container is launched after it has
completed, and no container before all init containers have. -/
theorem retrySafe_of_reliable {actions : List RetryAction} (hpoint : s.point = .sandbox)
    (hevents : s.events = []) (hreliable : (retries pod sidecar).Meets Retries.Reliable s actions)
    (hrun : (retries pod sidecar).run s actions = some t) :
  RetrySafe (planned pod sidecar) t.events
  := by
  have hsr : s.Sound (planned pod sidecar) := by
    constructor
    · unfold Retries.OnTheWay
      rw [hpoint]
      trivial
    · rw [hevents]
      trivial
  have hsu : t.Sound (planned pod sidecar) := by
    apply (retries pod sidecar).run_induction hsr _ hreliable hrun
    intro u action v hu hac hv
    exact hu.step hac hv
  exact hsu.safe

def initPod : ApiPod :=
  { spec := { containers := [{ name := "app" }] }, initContainers := [{ name := "setup" }] }

def newRetries : Retries where
  units _ := none
  stateCache _ := none
  point := .sandbox
  events := []

def completesSetup : List RetryAction :=
  [ .sandbox true, .look .pending, .runMachine true true, .unit "setup" .activate,
    .unit "setup" .start, .observe none true false, .unit "setup" (.exit 0),
    .observe none true false ]

/-- The container is not launched, a poll lists the unit of the init container, and the next attempt
launches the container. -/
def retriesApp : List RetryAction :=
  completesSetup
    ++ [ .look .pending, .prepareFails, .poll fun _ => true, .backoff false, .sandbox true,
      .look .pending, .look .pending, .runMachine true true ]

def retriesSetup : List RetryAction :=
  completesSetup
    ++ [ .look .pending, .prepareFails, .unit "setup" .collect, .poll fun _ => true,
      .backoff false, .sandbox true, .look .pending, .runMachine true true ]

theorem retrySafe_retriesApp :
  ∃ t, (retries initPod fun _ => false).run newRetries retriesApp = some t
    ∧ t.events = [.launch ⟨"app", .app⟩, .completed "setup", .launch ⟨"setup", .init⟩]
    ∧ RetrySafe (planned initPod fun _ => false) t.events
  := by
  have hr :
      (retries initPod fun _ => false).Meets Retries.Reliable newRetries retriesApp := by
    decide
  exact ⟨_, rfl, rfl, retrySafe_of_reliable rfl rfl hr rfl⟩

theorem relaunched_retriesSetup :
  ∃ t, (retries initPod fun _ => false).run newRetries retriesSetup = some t
    ∧ t.events
      = [.launch ⟨"setup", .init⟩, .completed "setup", .launch ⟨"setup", .init⟩]
    ∧ ¬ RetrySafe (planned initPod fun _ => false) t.events
  := by
  refine ⟨_, rfl, rfl, ?_⟩
  intro hsa
  exact hsa.1 mem_cons_self

end Periapsis.Node
