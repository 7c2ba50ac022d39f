import Periapsis.Types.Corev1
import Periapsis.Transition.System

/-!
# The drain of a node

A pawn is drained by setting a flag and closing a channel.
-/

namespace Periapsis.Node

open Corev1 Transition Option

/-- The types of node conditions. -/
inductive NodeConditionType where
  | ready
  | memoryPressure
  | diskPressure
  | pidPressure
  | networkUnavailable
  | other (name : String)
  deriving DecidableEq

structure NodeCondition where
  status : ConditionStatus
  reason : String
  message : String
  deriving DecidableEq

abbrev NodeConditions := NodeConditionType → Option NodeCondition

structure NodeReport where
  unschedulable : Bool
  conditions : NodeConditions

structure Pressures where
  memory : NodeCondition
  disk : NodeCondition
  pid : NodeCondition

variable (pressures : Pressures)

def nodeConditions : NodeConditions
  | .ready => some ⟨.true, "PawnReady", "Pawn is ready"⟩
  | .memoryPressure => some pressures.memory
  | .diskPressure => some pressures.disk
  | .pidPressure => some pressures.pid
  | .networkUnavailable =>
    some ⟨.false, "PawnNetworkAvailable", "Pawn network is available"⟩
  | .other _ => none

def buildNode : NodeReport where
  unschedulable := false
  conditions := nodeConditions pressures

def buildShutdownNode : NodeReport :=
  let node := buildNode pressures
  { unschedulable := true
    conditions := fun type =>
      (node.conditions type).map fun c =>
        if type = .ready then ⟨.false, "Shutdown", "perigeos shutting down"⟩ else c }

variable {pressures}

structure NodeObject where
  unschedulable : Bool
  conditions : NodeConditions
  lastApplied : Option NodeConditions

def patchConditions (lastApplied : Option NodeConditions) (reported current : NodeConditions) :
    NodeConditions := fun type =>
  match reported type with
  | some c => some c
  | none => if (lastApplied.bind (· type)).isSome then none else current type

def NodeObject.updateNodeStatus (object : NodeObject) (provider : NodeReport) : NodeObject :=
  { object with
    conditions := patchConditions object.lastApplied provider.conditions object.conditions
    lastApplied := some provider.conditions }

/-- Where the goroutine that reports the node is. -/
inductive Notifier where
  | starting
  | selecting
  | sending (node : NodeReport) (last : Bool)
  | returned

inductive ControlPoint where
  | ensureNode
  | ensureNodeStatus
  | selecting
  | updateStatus
  | updateNodeStatus
  | exited
  deriving DecidableEq

structure PawnNode where
  shuttingDown : Bool
  shutdownCh : Bool
  notifier : Notifier
  chStatusUpdate : Option NodeReport
  ping : Option Bool
  pingResult : Option Bool
  control : ControlPoint
  providerNode : NodeReport
  api : Option NodeObject

inductive NodeAction where
  | shutdown
  | closeShutdownCh
  | begin (pressures : Pressures)
  | tick (pressures : Pressures)
  | shutdownSignal (pressures : Pressures)
  | notify
  | pingBegin
  | pingEnd
  | receive
  | timer
  | control

namespace PawnNode

def run (pressures : Pressures) (api : Option NodeObject) : PawnNode where
  shuttingDown := false
  shutdownCh := false
  notifier := .starting
  chStatusUpdate := none
  ping := none
  pingResult := none
  control := .ensureNode
  providerNode := buildNode pressures
  api := api

def ensure (s : PawnNode) : PawnNode :=
  { s with
    control := .selecting
    api := some
      (match s.api with
      | some object => object.updateNodeStatus s.providerNode
      | none =>
        { unschedulable := s.providerNode.unschedulable
          conditions := s.providerNode.conditions
          lastApplied := none }) }

def controlLoop (s : PawnNode) : Option PawnNode :=
  match s.control with
  | .ensureNode =>
    s.pingResult.map fun failed =>
      { s with control := if failed then .exited else .ensureNodeStatus }
  | .ensureNodeStatus => some s.ensure
  | .updateStatus =>
    -- Nothing is written when the ping has failed, the last report included.
    s.pingResult.map fun failed =>
      { s with control := if failed then .selecting else .updateNodeStatus }
  | .updateNodeStatus =>
    some
      { s with
        control := .selecting
        api := s.api.map (·.updateNodeStatus s.providerNode) }
  | _ => none

def step (s : PawnNode) : NodeAction → Option PawnNode
  | .shutdown => some { s with shuttingDown := true }
  | .closeShutdownCh => if s.shuttingDown then some { s with shutdownCh := true } else none
  | .begin pressures =>
    match s.notifier with
    | .starting => some { s with notifier := .sending (buildNode pressures) false }
    | _ => none
  | .tick pressures =>
    match s.notifier with
    | .selecting => some { s with notifier := .sending (buildNode pressures) false }
    | _ => none
  | .shutdownSignal pressures =>
    match s.notifier with
    | .selecting =>
      if s.shutdownCh then
        some { s with notifier := .sending (buildShutdownNode pressures) true }
      else none
    | _ => none
  | .notify =>
    match s.notifier, s.chStatusUpdate with
    | .sending node last, none =>
      some
        { s with
          notifier := if last then .returned else .selecting
          chStatusUpdate := some node }
    | _, _ => none
  | .pingBegin =>
    match s.ping with
    | none => some { s with ping := some s.shuttingDown }
    | some _ => none
  | .pingEnd => s.ping.map fun failed => { s with ping := none, pingResult := some failed }
  | .receive =>
    match s.control, s.chStatusUpdate with
    | .selecting, some updated =>
      some
        { s with
          control := .updateStatus
          chStatusUpdate := none
          providerNode := { s.providerNode with conditions := updated.conditions } }
    | _, _ => none
  | .timer => if s.control = .selecting then some { s with control := .updateStatus } else none
  | .control => s.controlLoop

end PawnNode

def nodeLoops : System PawnNode NodeAction where
  step := PawnNode.step

/-- The node is reported not ready. -/
def NotReady (conditions : NodeConditions) : Prop :=
  (conditions .ready).map NodeCondition.status = some .false

instance (conditions : NodeConditions) : Decidable (NotReady conditions) :=
  inferInstanceAs (Decidable (_ = _))

namespace PawnNode

def Settled (s : PawnNode) : Prop :=
  s.notifier = .returned ∧ s.chStatusUpdate = none ∧ s.control = .selecting

def Drained (s : PawnNode) : Prop :=
  ∃ object, s.api = some object ∧ object.unschedulable = true ∧ NotReady object.conditions

def ObjectNotReady (s : PawnNode) : Prop :=
  ∃ object ∈ s.api, NotReady object.conditions

instance decidableObjectNotReady (s : PawnNode) : Decidable s.ObjectNotReady :=
  match h : s.api with
  | none => isFalse fun ⟨_, hobject, _⟩ => by simp [h] at hobject
  | some object =>
    decidable_of_iff (NotReady object.conditions) (by simp [ObjectNotReady, h])

def PingedBefore (s : PawnNode) : NodeAction → Prop
  | .control =>
    s.control = .updateStatus → NotReady s.providerNode.conditions → ¬ s.ObjectNotReady →
      s.pingResult ≠ some true
  | _ => True

instance decidablePingedBefore (s : PawnNode) (a : NodeAction) : Decidable (s.PingedBefore a) :=
  match a with
  | .control =>
    inferInstanceAs (Decidable (s.control = .updateStatus →
      NotReady s.providerNode.conditions → ¬ s.ObjectNotReady → s.pingResult ≠ some true))
  | .shutdown | .closeShutdownCh | .begin _ | .tick _ | .shutdownSignal _ | .notify
  | .pingBegin | .pingEnd | .receive | .timer => isTrue trivial

end PawnNode

theorem notReady_buildShutdownNode (pressures : Pressures) :
  NotReady (buildShutdownNode pressures).conditions
  := rfl

theorem NotReady.updateNodeStatus {provider : NodeReport} (h : NotReady provider.conditions)
    (object : NodeObject) :
  NotReady (object.updateNodeStatus provider).conditions
  := by
  unfold NotReady at h ⊢
  cases hre : provider.conditions .ready with
  | none =>
    rw [hre] at h
    cases h
  | some c =>
    rw [hre] at h
    simp only [NodeObject.updateNodeStatus, patchConditions, hre]
    exact h

namespace PawnNode

variable {s t : PawnNode}

def Cordoned (s : PawnNode) : Prop :=
  ∃ object, s.api = some object ∧ object.unschedulable = true

variable {object : NodeObject}

theorem controlLoop_eq_some (ho : s.api = some object) (h : s.controlLoop = some t) :
  (s.control = .ensureNode ∧ ∃ control, t = { s with control := control })
    ∨ (s.control = .updateStatus ∧ ∃ failed, s.pingResult = some failed
      ∧ t = { s with control := if failed then .selecting else .updateNodeStatus })
    ∨ t =
      { s with
        control := .selecting
        api := some (object.updateNodeStatus s.providerNode) }
  := by
  unfold controlLoop at h
  split at h
  next hc =>
    obtain ⟨failed, -, rfl⟩ := map_eq_some_iff.1 h
    exact .inl ⟨hc, _, rfl⟩
  · cases h
    simp only [ensure, ho, or_true]
  next hc =>
    obtain ⟨failed, hf, rfl⟩ := map_eq_some_iff.1 h
    exact .inr (.inl ⟨hc, failed, hf, rfl⟩)
  · cases h
    simp only [ho, map_some, or_true]
  · cases h

structure LastReport (s : PawnNode) : Prop where
  pending : ∀ node, s.chStatusUpdate = some node → NotReady node.conditions
  kept : s.chStatusUpdate.isSome = true
    ∨ NotReady s.providerNode.conditions
      ∧ (s.control = .updateStatus ∨ s.control = .updateNodeStatus ∨ s.ObjectNotReady)

theorem LastReport.controlLoop (hs : s.LastReport) (ho : s.api = some object)
    (hpi : s.PingedBefore .control) (h : s.controlLoop = some t) :
  t.LastReport
  := by
  rcases controlLoop_eq_some ho h with
    ⟨hc, control, rfl⟩ | ⟨hc, failed, hrs, rfl⟩ | rfl
  · refine ⟨hs.pending, hs.kept.imp_right ?_⟩
    rintro ⟨hp, hk⟩
    simp only [hc, reduceCtorEq, false_or] at hk
    exact ⟨hp, .inr (.inr hk)⟩
  · refine ⟨hs.pending, hs.kept.imp_right ?_⟩
    rintro ⟨hp, -⟩
    refine ⟨hp, .inr ?_⟩
    cases failed with
    | false => exact .inl rfl
    | true =>
      right
      by_contra hnt
      exact hpi hc hp hnt hrs
  · refine ⟨hs.pending, hs.kept.imp_right ?_⟩
    rintro ⟨hp, -⟩
    refine ⟨hp, .inr (.inr ⟨_, rfl, hp.updateNodeStatus object⟩)⟩

structure Draining (s : PawnNode) : Prop where
  cordoned : s.Cordoned
  last : ∀ node, s.notifier = .sending node true → NotReady node.conditions
  returned : s.notifier = .returned → s.LastReport

theorem draining_run (pressures : Pressures) (ho : object.unschedulable) :
  (run pressures (some object)).Draining
  := by
  refine ⟨⟨object, rfl, ho⟩, ?_, ?_⟩
  · intro node h
    cases h
  · intro h
    cases h

theorem Draining.of_eq (hs : s.Draining) (hn : t.notifier = s.notifier)
    (hch : t.chStatusUpdate = s.chStatusUpdate) (hc : t.control = s.control)
    (hp : t.providerNode = s.providerNode) (ha : t.api = s.api) :
  t.Draining
  := by
  constructor
  · rw [Cordoned, ha]
    exact hs.cordoned
  · rw [hn]
    exact hs.last
  · intro hr
    obtain ⟨hpe, hk⟩ := hs.returned (hn.symm.trans hr)
    constructor
    · rw [hch]
      exact hpe
    · rw [hch, hp, hc, ObjectNotReady, ha]
      exact hk

theorem Draining.sending (hs : s.Draining) {node : NodeReport} {last : Bool}
    (hno : last → NotReady node.conditions) :
  { s with notifier := .sending node last }.Draining
  := by
  refine ⟨hs.cordoned, ?_, ?_⟩
  · rintro node' ⟨⟩
    exact hno rfl
  · intro h
    cases h

theorem Draining.step (hs : s.Draining) (hpi : s.PingedBefore a) (h : s.step a = some t) :
  t.Draining
  := by
  cases a with
  | shutdown =>
    cases h
    exact hs.of_eq rfl rfl rfl rfl rfl
  | closeShutdownCh =>
    simp only [PawnNode.step] at h
    split_ifs at h
    cases h
    exact hs.of_eq rfl rfl rfl rfl rfl
  | shutdownSignal pressures =>
    simp only [PawnNode.step] at h
    split at h
    · split_ifs at h
      cases h
      exact hs.sending fun _ => notReady_buildShutdownNode pressures
    · cases h
  | notify =>
    simp only [PawnNode.step] at h
    split at h
    next node last hn _ =>
      cases h
      refine ⟨hs.cordoned, ?_, ?_⟩
      · intro node' hse
        cases last with
        | _ => cases hse
      · intro hr
        cases last with
        | false => cases hr
        | true =>
          refine ⟨?_, .inl rfl⟩
          rintro node' ⟨⟩
          exact hs.last node hn
    · cases h
  | pingBegin =>
    simp only [PawnNode.step] at h
    split at h
    · cases h
      exact hs.of_eq rfl rfl rfl rfl rfl
    · cases h
  | pingEnd =>
    obtain ⟨failed, -, rfl⟩ := map_eq_some_iff.1 h
    exact hs.of_eq rfl rfl rfl rfl rfl
  | receive =>
    simp only [PawnNode.step] at h
    split at h
    next updated hc hch =>
      cases h
      refine ⟨hs.cordoned, hs.last, ?_⟩
      intro hr
      have hud := (hs.returned hr).pending updated hch
      refine ⟨?_, .inr ⟨hud, .inl rfl⟩⟩
      intro node hno
      cases hno
    · cases h
  | timer =>
    simp only [PawnNode.step] at h
    split_ifs at h
    cases h
    refine ⟨hs.cordoned, hs.last, ?_⟩
    intro hr
    have hl := hs.returned hr
    refine ⟨hl.pending, hl.kept.imp_right ?_⟩
    rintro ⟨hp, -⟩
    exact ⟨hp, .inl rfl⟩
  | control =>
    obtain ⟨object, ho, hco⟩ := hs.cordoned
    have hr (hn : s.notifier = .returned) : t.LastReport := (hs.returned hn).controlLoop ho hpi h
    rcases controlLoop_eq_some ho h with ⟨-, control, rfl⟩ | ⟨-, failed, -, rfl⟩ | rfl
    · exact ⟨hs.cordoned, hs.last, hr⟩
    · exact ⟨hs.cordoned, hs.last, hr⟩
    · exact ⟨⟨_, rfl, hco⟩, hs.last, hr⟩
  | _ =>
    simp only [PawnNode.step] at h
    split at h
    · cases h
      exact hs.sending fun hl => absurd hl Bool.false_ne_true
    · cases h

end PawnNode

/-- A node that was unschedulable, and pinged in time, is unschedulable and not ready once the drain
is over and all reports are handled. -/
theorem drained_of_settled (pressures : Pressures) (object : NodeObject)
    (hobject : object.unschedulable = true) (actions : List NodeAction)
    (hping : nodeLoops.Meets PawnNode.PingedBefore (.run pressures (some object)) actions)
    {s : PawnNode} (hrun : nodeLoops.run (.run pressures (some object)) actions = some s)
    (hsettled : s.Settled) :
  s.Drained
  := by
  have hs : s.Draining := by
    apply nodeLoops.run_induction (PawnNode.draining_run pressures hobject) _ hping hrun
    intro u a v hu hping hsp
    exact hu.step hping hsp
  obtain ⟨hr, hch, hc⟩ := hsettled
  obtain ⟨node, ha, hco⟩ := hs.cordoned
  refine ⟨node, ha, hco, ?_⟩
  rcases (hs.returned hr).kept with hso | ⟨-, hup | hw | ⟨node', hnd, hnt⟩⟩
  · rw [hch] at hso
    cases hso
  · rw [hc] at hup
    cases hup
  · rw [hc] at hw
    cases hw
  · obtain rfl := some.inj (ha.symm.trans hnd)
    exact hnt

def noPressure : Pressures where
  memory := ⟨.false, "PawnHasSufficientMemory", "Pawn has sufficient memory available"⟩
  disk := ⟨.false, "PawnHasNoDiskPressure", "Pawn has no disk pressure"⟩
  pid := ⟨.false, "PawnHasSufficientPID", "Pawn has sufficient PIDs available"⟩

def nodeRegistered : List NodeAction :=
  [.pingBegin, .pingEnd, .control, .control, .begin noPressure, .notify, .receive, .control,
    .control]

def nodeShutdown : List NodeAction :=
  [.shutdown, .closeShutdownCh, .shutdownSignal noPressure, .notify, .receive]

def cordonedObject : NodeObject where
  unschedulable := true
  conditions _ := none
  lastApplied := none

/-- A node that is drained with all writes succeeding, and pinged before the last report is handled,
ends schedulable and ready. -/
theorem settled_not_drained :
  ∃ s, nodeLoops.run (.run noPressure none)
      (nodeRegistered ++ nodeShutdown ++ [.pingBegin, .pingEnd, .control]) = some s
    ∧ s.Settled ∧ ¬ s.Drained
    ∧ ∃ object, s.api = some object ∧ object.unschedulable = false
      ∧ (object.conditions .ready).map NodeCondition.status = some .true
  := by
  refine ⟨_, rfl, ⟨rfl, rfl, rfl⟩, ?_, _, rfl, rfl, rfl⟩
  rintro ⟨object, ho, hun, -⟩
  cases ho
  cases hun

theorem drained_of_settled_cordoned :
  ∃ s, nodeLoops.run (.run noPressure (some cordonedObject))
      (nodeRegistered ++ nodeShutdown ++ [.control, .control]) = some s
    ∧ s.Settled ∧ s.Drained
  := by
  refine ⟨_, rfl, ⟨rfl, rfl, rfl⟩, ?_⟩
  apply drained_of_settled noPressure cordonedObject rfl
    (nodeRegistered ++ nodeShutdown ++ [.control, .control]) _ rfl ⟨rfl, rfl, rfl⟩
  decide

end Periapsis.Node
