import Periapsis.Foci.Reduce

/-!
# What a step of the reducer can do

A fact either is ignored, or touches one container, or brings a new specification, or evicts the pod
(`reduce_step`).
-/

namespace Periapsis

open Corev1 Periapsis.Types List Prod

namespace Types

def Fact.pod : Fact → Option Pod
  | .spec f => f.pod
  | .podAdmit f => f.pod
  | _ => none

def Fact.isEvict : Fact → Bool
  | .podEvict _ => true
  | _ => false

def Fact.ReportsRunning (name : String) : Fact → Prop
  | .unit f => f.subState = .running ∧ name ≠ "" ∧ Foci.parseContainerFromUnit f.unitName = name
  | .containerState f => f.state = .running ∧ f.container = name
  | _ => False

def Effect.restart : Effect → Option RestartContainer
  | .restartContainer e => some e
  | _ => none

end Types

namespace Foci

variable {state : PodState} {clock : Clock} {fact : Fact}

/-- The phase that follows from the containers. -/
def computedPhase (state : PodState) : PodPhase :=
  (state.containers.foldl PhaseFlags.observe {}).podPhase state.phase

@[simp]
theorem recomputePhase_fst :
  (recomputePhase state clock).1 = { state with phase := computedPhase state }
  := rfl

/-- The effects of `recomputePhase` are the status of the recomputed state, on entering
a terminal phase the phase and the clean-up of the units, and the order to persist. -/
theorem recomputePhase_snd (state : PodState) (clock : Clock) :
  (recomputePhase state clock).2
    = .updateStatus ⟨state.uid, state.podNamespace, state.name,
          buildPodStatusPayload { state with phase := computedPhase state } clock⟩
      :: (if (computedPhase state).terminal ∧ state.phase ≠ computedPhase state then
            .setPodPhase ⟨state.uid, computedPhase state⟩ :: resetUnits state
          else [])
      ++ [.persistPodState ⟨state.uid⟩]
  := rfl

theorem mem_recomputePhase :
  e ∈ (recomputePhase state clock).2
    ↔ e = .updateStatus ⟨state.uid, state.podNamespace, state.name,
          buildPodStatusPayload { state with phase := computedPhase state } clock⟩
      ∨ ((computedPhase state).terminal ∧ state.phase ≠ computedPhase state
          ∧ (e = .setPodPhase ⟨state.uid, computedPhase state⟩ ∨ e ∈ resetUnits state))
      ∨ e = .persistPodState ⟨state.uid⟩
  := by
  rw [recomputePhase_snd]
  split
  next h =>
    simp [h, or_assoc]
  · simp only [cons_append, nil_append, mem_cons, not_mem_nil, or_false]
    tauto

theorem uid_of_mem_recomputePhase (h : e ∈ (recomputePhase state clock).2) :
  e.uid = state.uid
  := by
  rcases mem_recomputePhase.1 h with rfl | ⟨-, -, rfl | h⟩ | rfl
  · rfl
  · rfl
  · obtain ⟨cv, -, rfl⟩ := mem_map.1 h
    rfl
  · rfl

@[simp]
theorem recomputePhase_restarts :
  (recomputePhase state clock).2.filterMap Effect.restart = []
  := by
  apply filterMap_eq_nil_iff.2
  intro e he
  rcases mem_recomputePhase.1 he with rfl | ⟨-, -, rfl | h⟩ | rfl
  · rfl
  · rfl
  · obtain ⟨cv, -, rfl⟩ := mem_map.1 h
    rfl
  · rfl

@[simp]
theorem resetUnits_restarts :
  (resetUnits state).filterMap Effect.restart = []
  := by
  simp [resetUnits, Effect.restart]

variable {idx : Nat} {touch : Touch}

theorem conclude_fst :
  (conclude state clock idx touch).1
    = { state.setContainer idx touch.container with
        phase :=
          if touch.recompute then computedPhase (state.setContainer idx touch.container)
          else state.phase }
  := by
  unfold conclude
  split
  all_goals rfl

@[simp]
theorem conclude_containers :
  (conclude state clock idx touch).1.containers = state.containers.set idx touch.container
  := by
  rw [conclude_fst]
  rfl

theorem conclude_snd :
  (conclude state clock idx touch).2
    = touch.effects
      ++ if touch.recompute then
          (recomputePhase (state.setContainer idx touch.container) clock).2
        else []
  := by
  unfold conclude
  split
  · rfl
  · simp

@[simp]
theorem conclude_restarts :
  (conclude state clock idx touch).2.filterMap Effect.restart
    = touch.effects.filterMap Effect.restart
  := by
  rw [conclude_snd, filterMap_append]
  split
  all_goals simp

/-- The container a fact is about, and what its handler makes of it. -/
def handlerOf (state : PodState) (clock : Clock) :
    Fact → Option (String × (ContainerState → Touch))
  | .unit f =>
    let containerName := parseContainerFromUnit f.unitName
    if containerName = "" then none
    else some (containerName, unitTouch state f containerName clock)
  | .containerState f => some (f.container, pollTouch state f clock)
  | .exit f => some (f.container, exitTouch state f)
  | .probe f => some (f.container, probeTouch state f)
  | .markRunning f => some (f.containerName, fun cv => .leave { cv with seenRunning := true } [])
  | .backoffReset f =>
    some (f.containerName, fun cv => .leave { cv with backoff := restartBackoffInit } [])
  | _ => none

def touched (state : PodState) (clock : Clock) (fact : Fact) : Option (Nat × Touch) := do
  let (name, handler) ← handlerOf state clock fact
  let idx ← state.findContainer name
  return (idx, handler (state.container idx))

variable {cv : ContainerState}

theorem touched_eq_some :
  touched state clock fact = some (idx, touch)
    ↔ ∃ name ha, handlerOf state clock fact = some (name, ha)
      ∧ state.findContainer name = some idx ∧ ha (state.container idx) = touch
  := by
  constructor
  · intro h
    obtain ⟨⟨name, ha⟩, hh, h⟩ := Option.bind_eq_some_iff.1 h
    obtain ⟨idx', hf, h⟩ := Option.bind_eq_some_iff.1 h
    cases h
    use name, ha, hh, hf
  · rintro ⟨name, ha, hh, hf, rfl⟩
    simp [touched, hh, hf]

inductive Handles (state : PodState) (clock : Clock) (cv : ContainerState) : Fact → Touch → Prop
  | unit (f : UnitFact) (hname : parseContainerFromUnit f.unitName = cv.name) (hne : cv.name ≠ "") :
      Handles state clock cv (.unit f) (unitTouch state f cv.name clock cv)
  | containerState (f : ContainerStateFact) (hname : f.container = cv.name) :
      Handles state clock cv (.containerState f) (pollTouch state f clock cv)
  | exit (f : ExitFact) (hname : f.container = cv.name) :
      Handles state clock cv (.exit f) (exitTouch state f cv)
  | probe (f : ProbeFact) (hname : f.container = cv.name) :
      Handles state clock cv (.probe f) (probeTouch state f cv)
  | markRunning (f : MarkRunningFact) (hname : f.containerName = cv.name) :
      Handles state clock cv (.markRunning f) (.leave { cv with seenRunning := true } [])
  | backoffReset (f : BackoffResetFact) (hname : f.containerName = cv.name) :
      Handles state clock cv (.backoffReset f) (.leave { cv with backoff := restartBackoffInit } [])

theorem touched_handles (h : touched state clock fact = some (idx, touch)) :
  Handles state clock (state.container idx) fact touch
  := by
  obtain ⟨name, ha, hh, hf, rfl⟩ := touched_eq_some.1 h
  obtain ⟨-, rfl⟩ := PodState.container_of_find hf
  cases fact with
  | unit f =>
    simp only [handlerOf, Option.ite_none_left_eq_some] at hh
    obtain ⟨hne, hh⟩ := hh
    obtain ⟨hn, rfl⟩ := mk.inj (Option.some.inj hh)
    rw [hn] at hne ⊢
    apply Handles.unit f hn hne
  | containerState f =>
    obtain ⟨hn, rfl⟩ := mk.inj (Option.some.inj hh)
    apply Handles.containerState f hn
  | exit f =>
    obtain ⟨hn, rfl⟩ := mk.inj (Option.some.inj hh)
    apply Handles.exit f hn
  | probe f =>
    obtain ⟨hn, rfl⟩ := mk.inj (Option.some.inj hh)
    apply Handles.probe f hn
  | markRunning f =>
    obtain ⟨hn, rfl⟩ := mk.inj (Option.some.inj hh)
    apply Handles.markRunning f hn
  | backoffReset f =>
    obtain ⟨hn, rfl⟩ := mk.inj (Option.some.inj hh)
    apply Handles.backoffReset f hn
  | _ => cases hh

inductive Step (state : PodState) (clock : Clock) (fact : Fact) : PodState × List Effect → Prop
  | ignored (h : state.uid ≠ "" → touched state clock fact = none ∧ fact.pod = none) :
      Step state clock fact (state, [])
  | touched {idx : Nat} {touch : Touch} (h : touched state clock fact = some (idx, touch)) :
      Step state clock fact (conclude state clock idx touch)
  | synced {pod : Pod} (h : fact.pod = some pod) :
      Step state clock fact (recomputePhase (syncSpec state pod clock) clock)
  | evicted (h : fact.isEvict) : Step state clock fact (reducePodEvictFact state)

theorem touched_of_pod {pod : Pod} (h : fact.pod = some pod) :
  touched state clock fact = none
  := by
  cases fact with
  | spec | podAdmit => rfl
  | _ => cases h

variable {name : String}

theorem pod_of_handlerOf (h : handlerOf state clock fact = some (name, ha)) :
  fact.pod = none
  := by
  cases fact with
  | spec | podAdmit => cases h
  | _ => rfl

theorem onContainer_step (h : handlerOf state clock fact = some (name, ha)) :
  Step state clock fact (onContainer state name clock ha)
  := by
  unfold onContainer
  split
  next hf =>
    apply Step.ignored
    intro _
    simp [Foci.touched, h, hf, pod_of_handlerOf h]
  · apply Step.touched
    apply touched_eq_some.2
    use name, ha

theorem reduceSpecFact_step (ht : touched state clock fact = none) :
  Step state clock fact (reduceSpecFact state fact.pod clock)
  := by
  unfold reduceSpecFact
  split
  next hpo =>
    apply Step.ignored fun _ => ⟨ht, hpo⟩
  next pod hpo =>
    apply Step.synced hpo

theorem reduceUnitFact_step :
  Step state clock (.unit f) (reduceUnitFact state f clock)
  := by
  unfold reduceUnitFact
  dsimp only
  split
  next hn =>
    apply Step.ignored
    intro _
    simp [Foci.touched, handlerOf, hn, Fact.pod]
  next hn =>
    apply onContainer_step
    simp [handlerOf, hn]

theorem reducePodAdmitFact_tracked (hui : state.uid ≠ "") :
  reducePodAdmitFact state f clock = some (reduceSpecFact state f.pod clock)
  := if_pos hui

theorem reduce_untracked (hui : state.uid = "") (fact : Fact) (clock : Clock) :
  reduce state fact clock = (state, [])
  := if_pos hui

theorem reduce_step (state : PodState) (fact : Fact) (clock : Clock) :
  Step state clock fact (reduce state fact clock)
  := by
  by_cases hui : state.uid = ""
  · rw [reduce_untracked hui]
    apply Step.ignored
    intro h
    contradiction
  unfold reduce
  rw [if_neg hui]
  cases fact with
  | unit f => apply reduceUnitFact_step
  | spec f => apply reduceSpecFact_step rfl
  | podAdmit f =>
    dsimp only
    rw [reducePodAdmitFact_tracked hui]
    apply reduceSpecFact_step rfl
  | podEvict f => apply Step.evicted rfl
  | _ => apply onContainer_step rfl

theorem reduce_touched (hui : state.uid ≠ "") (h : touched state clock fact = some (idx, touch)) :
  reduce state fact clock = conclude state clock idx touch
  := by
  have hst := reduce_step state fact clock
  generalize reduce state fact clock = result at hst
  cases hst with
  | ignored hig =>
    rw [(hig hui).1] at h
    cases h
  | touched h' =>
    cases h.symm.trans h'
    rfl
  | synced hpo =>
    rw [touched_of_pod hpo] at h
    cases h
  | evicted hei =>
    cases fact with
    | podEvict f => cases h
    | _ => cases hei

/-- The effects record events of the pod, and do nothing else. -/
def Events (state : PodState) (effects : List Effect) : Prop :=
  ∀ e ∈ effects, ∃ r, e = .recordEvent r ∧ r.uid = state.uid

section Events

variable {effects : List Effect}

theorem events_nil :
  Events state []
  := by
  simp [Events]

theorem events_eventEffect {eventType : EventType} {reason message : String} :
  Events state [eventEffect state eventType reason message]
  := by
  simp [Events, eventEffect]

theorem events_failedEvent {name : String} {exitCode : Int32} :
  Events state [failedEvent state name exitCode]
  := events_eventEffect

theorem Events.ite [Decidable p] (h : Events state effects) (h' : Events state effects') :
  Events state (if p then effects else effects')
  := by
  split
  · apply h
  · apply h'

theorem Events.restarts (h : Events state effects) :
  effects.filterMap Effect.restart = []
  := by
  apply filterMap_eq_nil_iff.2
  intro e he
  obtain ⟨r, rfl, -⟩ := h e he
  rfl

end Events

def Unguarded (state : PodState) (name : String) : Fact → Prop
  | .unit f =>
    f.subState = .failed ∧ parseContainerFromUnit f.unitName = name
      ∧ shouldRestart state.spec.restartPolicy f.exitCode = true
  | .exit f =>
    f.container = name ∧ f.willRestart = true
      ∧ ∃ cv, state.lookup name = some cv ∧ cv.seenRunning = true
  | _ => False

structure Unmoved (cv cv' : ContainerState) : Prop where
  name_eq : cv'.name = cv.name
  restartCount_eq : cv'.restartCount = cv.restartCount
  backoff_eq : cv'.backoff = cv.backoff
  restarting_eq : cv'.restarting = cv.restarting
  lastStarted_eq : cv'.lastStarted = cv.lastStarted
  seenRunning : cv.seenRunning = true → cv'.seenRunning = true
  phase : cv'.phase = .running → cv.phase = .running

def FindsStable (clock : Clock) : Fact → Prop
  | .containerState _ =>
    clock.started ≠ 0 ∧ restartBackoffReset.toInt < clock.since - clock.started
  | _ => False

inductive Touch.Made (state : PodState) (clock : Clock) (cv : ContainerState) (fact : Fact) :
    Touch → Prop
  | started {backoff : Duration} {effects : List Effect} {recompute : Bool}
      (hreports : fact.ReportsRunning cv.name)
      (hreset : FindsStable clock fact → backoff = restartBackoffInit)
      (hkept : ¬ FindsStable clock fact → backoff = cv.backoff) (hevents : Events state effects) :
      Made state clock cv fact
        ⟨{ cv with
            phase := .running
            seenRunning := true
            restarting := false
            lastStarted := clock.started
            backoff := backoff }, effects, recompute⟩
  | restarted {exitCode : Int32} {cv' : ContainerState} {before after : List Effect}
      {recompute : Bool} (hreports : ¬ fact.ReportsRunning cv.name)
      (horders : cv.restarting = true → Unguarded state cv.name fact)
      (hcv' : cv' = { cv with phase := .crashLoopBackOff, exitCode := exitCode }.bumpRestart)
      (hbefore : Events state before) (hafter : Events state after) :
      Made state clock cv fact ⟨cv', before ++ restartEffect state cv.name cv' :: after, recompute⟩
  | unmoved {cv' : ContainerState} {effects : List Effect} {recompute : Bool}
      (hreports : ¬ fact.ReportsRunning cv.name) (hcv' : Unmoved cv cv')
      (hevents : Events state effects) :
      Made state clock cv fact ⟨cv', effects, recompute⟩
  | reset (f : BackoffResetFact) (hname : f.containerName = cv.name)
      (hfact : fact = .backoffReset f) :
      Made state clock cv fact (.leave { cv with backoff := restartBackoffInit } [])

section Made

theorem unitTouch_made (f : UnitFact) (hn : parseContainerFromUnit f.unitName = cv.name)
    (hne : cv.name ≠ "") :
  (unitTouch state f cv.name clock cv).Made state clock cv (.unit f)
  := by
  by_cases hru : f.subState = .running
  · simp only [unitTouch, hru]
    exact .started ⟨hru, hne, hn⟩ False.elim (fun _ => rfl)
      (.ite events_eventEffect events_nil)
  have hr : ¬ Fact.ReportsRunning cv.name (.unit f) := fun h => hru h.1
  unfold unitTouch
  split
  · contradiction
  next hfa =>
    dsimp only
    split
    next hp =>
      exact .restarted hr (fun _ => ⟨hfa, hn, hp⟩) rfl
        (.ite events_failedEvent events_nil) events_nil
    · exact .unmoved hr ⟨rfl, rfl, rfl, rfl, rfl, id, by simp⟩
        (.ite events_failedEvent events_nil)
  case h_6 | h_7 | h_8 | h_9 =>
    exact .unmoved hr ⟨rfl, rfl, rfl, rfl, rfl, id, id⟩ events_eventEffect
  case h_10 => exact .unmoved hr ⟨rfl, rfl, rfl, rfl, rfl, id, id⟩ events_nil
  all_goals exact .unmoved hr ⟨rfl, rfl, rfl, rfl, rfl, id, by simp⟩ events_nil

theorem restartUnlessRestarting_made {fact : Fact} {exitCode : Int32} {effects : List Effect}
    {recompute : Bool} (hr : ¬ fact.ReportsRunning cv.name) (hev : Events state effects) :
  let r := restartUnlessRestarting state cv.name
    { cv with phase := .crashLoopBackOff, exitCode := exitCode }
  Touch.Made state clock cv fact ⟨r.1, r.2 ++ effects, recompute⟩
  := by
  unfold restartUnlessRestarting
  split
  · exact .unmoved hr ⟨rfl, rfl, rfl, rfl, rfl, id, by simp⟩ hev
  next hid =>
    exact .restarted hr (fun hre => absurd hre hid) rfl events_nil hev

theorem pollTouch_made (f : ContainerStateFact) (hn : f.container = cv.name) :
  (pollTouch state f clock cv).Made state clock cv (.containerState f)
  := by
  by_cases hru : f.state = .running
  · simp only [pollTouch, hru]
    split
    next hs =>
      exact .started ⟨hru, hn⟩ (fun _ => rfl) (absurd hs) events_nil
    next hu =>
      exact .started ⟨hru, hn⟩ (absurd · hu) (fun _ => rfl) events_nil
  have hr : ¬ Fact.ReportsRunning cv.name (.containerState f) := fun h => hru h.1
  have hfa : Events state [failedEvent state cv.name f.exitCode] := events_failedEvent
  unfold pollTouch
  rw [hn]
  split
  · contradiction
  · exact .unmoved hr ⟨rfl, rfl, rfl, rfl, rfl, id, by simp⟩ events_nil
  · split
    · exact restartUnlessRestarting_made hr (.ite hfa events_nil)
    · exact .unmoved hr ⟨rfl, rfl, rfl, rfl, rfl, id, by simp⟩ (.ite hfa events_nil)
  · split
    · exact restartUnlessRestarting_made hr
        (.ite (.ite events_eventEffect hfa) events_nil)
    · exact .unmoved hr ⟨rfl, rfl, rfl, rfl, rfl, id, by simp⟩
        (.ite (.ite events_eventEffect hfa) events_nil)
  · split
    · exact .unmoved hr ⟨rfl, rfl, rfl, rfl, rfl, id, id⟩ events_nil
    · split
      · exact .unmoved hr ⟨rfl, rfl, rfl, rfl, rfl, id, by simp⟩ events_nil
      · exact .unmoved hr ⟨rfl, rfl, rfl, rfl, rfl, id, id⟩ events_nil

theorem exitTouch_made (f : ExitFact) (hn : f.container = cv.name)
    (hl : state.lookup cv.name = some cv) :
  (exitTouch state f cv).Made state clock cv (.exit f)
  := by
  have hr : ¬ Fact.ReportsRunning cv.name (.exit f) := not_false
  unfold exitTouch
  rw [hn]
  split
  · exact .unmoved hr ⟨rfl, rfl, rfl, rfl, rfl, id, by simp⟩ events_nil
  next hse =>
    split
    next hw =>
      have ho : Unguarded state cv.name (.exit f) :=
        ⟨hn, hw, cv, hl, by simpa using hse⟩
      exact .restarted hr (fun _ => ho) rfl events_nil events_nil
    · exact .unmoved hr ⟨rfl, rfl, rfl, rfl, rfl, id, by simp⟩ events_nil

theorem probeTouch_made :
  (probeTouch state f cv).Made state clock cv (.probe f)
  := by
  refine .unmoved not_false ?_ (.ite events_eventEffect events_nil)
  split
  all_goals exact ⟨rfl, rfl, rfl, rfl, rfl, id, id⟩

end Made

theorem lookup_of_touched (h : touched state clock fact = some (idx, touch)) :
  state.lookup (state.container idx).name = some (state.container idx)
  := by
  obtain ⟨cname, ha, -, hf, -⟩ := touched_eq_some.1 h
  obtain ⟨-, rfl⟩ := PodState.container_of_find hf
  apply PodState.lookup_of_find hf

theorem touched_made (h : touched state clock fact = some (idx, touch)) :
  touch.Made state clock (state.container idx) fact
  := by
  cases touched_handles h with
  | unit f hn hne => apply unitTouch_made f hn hne
  | containerState f hn => apply pollTouch_made f hn
  | exit f hn => apply exitTouch_made f hn (lookup_of_touched h)
  | probe f => apply probeTouch_made
  | markRunning f =>
    exact .unmoved not_false ⟨rfl, rfl, rfl, rfl, rfl, fun _ => rfl, id⟩ events_nil
  | backoffReset f hn => exact .reset f hn rfl

/-- What every handler makes of a container: it keeps the name, and emits events of the pod only,
besides at most one restart. -/
structure Touch.Lawful (state : PodState) (cv : ContainerState) (touch : Touch) : Prop where
  name_eq : touch.container.name = cv.name
  effect : ∀ e ∈ touch.effects,
    (∃ r, e = .recordEvent r ∧ r.uid = state.uid)
      ∨ e = restartEffect state cv.name touch.container
  restart :
    (touch.effects.filterMap Effect.restart = []
      ∧ touch.container.restartCount = cv.restartCount
      ∧ (touch.container.backoff = cv.backoff ∨ touch.container.backoff = restartBackoffInit))
    ∨ (touch.effects.filterMap Effect.restart
        = (restartEffect state cv.name touch.container).restart.toList
      ∧ touch.container.restartCount = cv.restartCount + 1
      ∧ touch.container.backoff = min (cv.backoff * 2) maxBackoff
      ∧ touch.container.restarting = true)

theorem Touch.Made.lawful (h : touch.Made state clock cv fact) :
  touch.Lawful state cv
  := by
  cases h with
  | started _ hrs hk hev =>
    refine ⟨rfl, fun e he => .inl (hev e he), .inl ⟨hev.restarts, rfl, ?_⟩⟩
    by_cases hs : FindsStable clock fact
    · exact .inr (hrs hs)
    · exact .inl (hk hs)
  | restarted _ _ hc hb haf =>
    subst hc
    refine ⟨rfl, ?_, .inr ⟨?_, rfl, rfl, rfl⟩⟩
    · intro e he
      rcases mem_append.1 he with he | he
      · exact .inl (hb e he)
      · rcases mem_cons.1 he with rfl | he
        · exact .inr rfl
        · exact .inl (haf e he)
    · rw [filterMap_append, filterMap_cons, hb.restarts, haf.restarts]
      rfl
  | unmoved _ hc hev =>
    exact ⟨hc.name_eq, fun e he => .inl (hev e he),
      .inl ⟨hev.restarts, hc.restartCount_eq, .inl hc.backoff_eq⟩⟩
  | reset =>
    exact ⟨rfl, by simp [Touch.leave], .inl ⟨rfl, rfl, .inr rfl⟩⟩

theorem touched_lawful (h : touched state clock fact = some (idx, touch)) :
  touch.Lawful state (state.container idx)
  := (touched_made h).lawful

theorem restartUnlessRestarting_phase (state : PodState) :
  (restartUnlessRestarting state name cv).1.phase = cv.phase
  := by
  unfold restartUnlessRestarting
  split
  all_goals rfl

theorem restartUnlessRestarting_ready (state : PodState) :
  (restartUnlessRestarting state name cv).1.ready = cv.ready
  := by
  unfold restartUnlessRestarting
  split
  all_goals rfl

section

variable (h : touched state clock fact = some (idx, touch))
include h

theorem container_of_touched :
  ∃ hlt : idx < state.containers.length, state.container idx = state.containers[idx]
  := by
  obtain ⟨name, ha, -, hf, -⟩ := touched_eq_some.1 h
  obtain ⟨hlt, -, -⟩ := PodState.findContainer_eq_some.1 hf
  use hlt
  simp [PodState.container, hlt]

theorem names_of_touched :
  (state.setContainer idx touch.container).containerNames = state.containerNames
  := by
  obtain ⟨name, ha, -, hf, -⟩ := touched_eq_some.1 h
  apply PodState.setContainer_containerNames hf
  rw [(touched_lawful h).name_eq]
  apply (PodState.container_of_find hf).2

theorem lookup_conclude :
  (conclude state clock idx touch).1.lookup name
    = if name = (state.container idx).name then some touch.container else state.lookup name
  := by
  obtain ⟨cname, ha, -, hf, -⟩ := touched_eq_some.1 h
  obtain ⟨-, rfl⟩ := PodState.container_of_find hf
  rw [← PodState.lookup_setContainer hf (touched_lawful h).name_eq, conclude_fst]
  rfl

end

variable {pod : Pod} {cs : ContainerSpec} {now : Time}

theorem syncContainer_eq :
  syncContainer state cs now
    = match state.lookup cs.name with
      | some cv => { cv with image := cs.image }
      | none => newContainerState cs now
  := by
  unfold syncContainer
  cases hl : state.lookup cs.name with
  | some cv =>
    obtain ⟨idx, hf, rfl⟩ := PodState.find_of_lookup hl
    rw [hf]
  | none =>
    cases hf : state.findContainer cs.name with
    | none => rfl
    | some idx =>
      rw [PodState.lookup_of_find hf] at hl
      cases hl

theorem mem_syncSpec (h : cv ∈ (syncSpec state pod clock).containers) :
  (∃ cs now, cs.name ∉ state.containerNames ∧ cv = newContainerState cs now)
    ∨ ∃ old ∈ state.containers, ∃ image, cv = { old with image := image }
  := by
  obtain ⟨i, hi, rfl⟩ := mem_mapIdx.1 h
  unfold syncContainer
  split
  next idx hf =>
    right
    use state.container idx, PodState.container_mem_of_find hf,
      (newPodSpec pod).containers[i].image
  next hf =>
    left
    use (newPodSpec pod).containers[i], clock.added i, PodState.findContainer_eq_none.1 hf

theorem syncContainer_name :
  (syncContainer state cs now).name = cs.name
  := by
  unfold syncContainer
  split
  next idx hf =>
    apply (PodState.container_of_find hf).2
  · rfl

theorem syncSpec_containerNames :
  (syncSpec state pod clock).containerNames
    = (syncSpec state pod clock).spec.containers.map ContainerSpec.name
  := by
  apply ext_getElem
  · simp [syncSpec, PodState.containerNames, -newPodSpec_names]
  · intro i _ _
    simp [syncSpec, PodState.containerNames, syncContainer_name, -newPodSpec_names]

theorem lookup_syncSpec (h : state.lookup name = some cv) (hn : name ∈ pod.containerNames)
    (clock : Clock) :
  ∃ image, (syncSpec state pod clock).lookup name = some { cv with image := image }
  := by
  have hm : name ∈ (syncSpec state pod clock).containerNames := by
    rw [syncSpec_containerNames]
    simpa [syncSpec] using hn
  obtain ⟨cv', hc, rfl, hl⟩ := PodState.exists_lookup hm
  obtain ⟨i, hi, rfl⟩ := mem_mapIdx.1 hc
  obtain ⟨idx, hf, rfl⟩ := PodState.find_of_lookup h
  rw [syncContainer_name] at hf
  use (newPodSpec pod).containers[i].image
  rw [hl, syncContainer, hf]

end Foci

end Periapsis
