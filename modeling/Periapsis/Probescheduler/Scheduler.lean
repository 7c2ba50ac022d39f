import Periapsis.Foci.Representation
import Periapsis.Node.Records

/-!
# The probe scheduler

`probeContainer` runs the probes of a container that are due, keeps their results in the pod store,
and sends each result as a fact.
-/

namespace Periapsis.Probescheduler

open Corev1 Periapsis.Types Node Option PodStore

structure Readings where
  due : ProbeType → DueReadings
  result : ProbeType → ProbeResult
  probedAt : ProbeType → Time
  resetAt : Time

structure Probed where
  store : PodStore
  sent : List ProbeFact := []
  needsRestart : Bool := false

def safeThreshold (val defaultVal : Int32) : Int32 :=
  if val ≤ 0 then defaultVal else val

section

variable (s : PodStore) (uid name : String) (probe : Probe) (r : Readings)

def isDue (probeType : ProbeType) : PodStore × Bool :=
  match s.probeState uid name with
  | none => (s, false)
  | some ps =>
    let asked (ps : ContainerProbeState) :=
      Node.isDue ps probeType probe.periodSeconds probe.initialDelaySeconds (r.due probeType)
    (s.updateProbeState uid name fun ps => (asked ps).1, (asked ps).2)

def evaluate (eval : ContainerProbeState → ContainerProbeState × Bool) : PodStore × Bool :=
  match s.probeState uid name with
  | none => (s, false)
  | some ps => (s.updateProbeState uid name fun ps => (eval ps).1, (eval ps).2)

def send (probeType : ProbeType) (ready : ContainerProbeState → Bool) : List ProbeFact :=
  match s.probeState uid name with
  | none => []
  | some updated =>
    [{ uid := uid
       container := name
       probeType := probeType
       ready := ready updated
       startupPassed := updated.startupPassed
       success := r.result probeType = .success
       successThreshold := safeThreshold probe.successThreshold 1
       failureThreshold := safeThreshold probe.failureThreshold 3 }]

def probeStartup : Probed :=
  let (s, due) := isDue s uid name probe r .startup
  if due then
    let (s, restart) :=
      evaluate s uid name fun ps =>
        evalStartup (markProbed ps .startup (r.probedAt .startup)) probe (r.result .startup)
    { store := s
      sent := send s uid name probe r .startup (·.startupPassed)
      needsRestart := restart }
  else { store := s }

def probeLiveness : Probed :=
  let (s, due) := isDue s uid name probe r .liveness
  if due then
    let (s, restart) :=
      evaluate s uid name fun ps =>
        evalLiveness (markProbed ps .liveness (r.probedAt .liveness)) probe (r.result .liveness)
    let s := if restart then s.resetProbeState uid name r.resetAt else s
    { store := s
      sent := send s uid name probe r .liveness fun _ => !restart
      needsRestart := restart }
  else { store := s }

def probeReadiness : Probed :=
  let (s, due) := isDue s uid name probe r .readiness
  if due then
    let (s, _) :=
      evaluate s uid name fun ps =>
        (evalReadiness (markProbed ps .readiness (r.probedAt .readiness)) probe
          (r.result .readiness), false)
    { store := s, sent := send s uid name probe r .readiness (·.ready) }
  else { store := s }

end

def afterLiveness (live : Probed) (uid : String) (c : Container) (r : Readings) : Probed :=
  if live.needsRestart then live
  else
    match c.readinessProbe with
    | none => live
    | some probe =>
      let ready := probeReadiness live.store uid c.name probe r
      { store := ready.store, sent := live.sent ++ ready.sent }

def probeContainer (s : PodStore) (uid : String) (c : Container) (r : Readings) : Probed :=
  match s.probeState uid c.name with
  | none => { store := s }
  | some ps =>
    match if ps.startupPassed then none else c.startupProbe with
    | some probe => probeStartup s uid c.name probe r
    | none =>
      match c.livenessProbe with
      | some probe => afterLiveness (probeLiveness s uid c.name probe r) uid c r
      | none => afterLiveness { store := s } uid c r

/-! ### What a call for a restart sends -/

variable {s : PodStore} {uid name : String}

theorem probeState_reset (h : s.probeState uid name = some ps) (now : Time) :
  (s.resetProbeState uid name now).probeState uid name = some { startedAt := now }
  := by
  obtain ⟨pod, hpo, h⟩ := bind_eq_some_iff.1 h
  obtain ⟨probes, hp, -⟩ := bind_eq_some_iff.1 h
  rw [probeState_resetProbeState, if_pos ⟨rfl, rfl⟩, hpo, bind_some, hp, map_some]

theorem probeState_evaluate (h : (evaluate s uid name eval).2) :
  ∃ ps, (evaluate s uid name eval).1.probeState uid name = some ps
  := by
  unfold evaluate at h ⊢
  split at h
  · cases h
  next ps hps =>
    use (eval ps).1
    rw [probeState_updateProbeState, if_pos ⟨rfl, rfl⟩, hps, map_some]

def Reported (uid name : String) (p : Probed) : Prop :=
  p.needsRestart = true → ∃ fact, p.sent = [fact] ∧ fact.uid = uid ∧ fact.container = name
    ∧ (fact.probeType = .startup ∨ fact.probeType = .liveness)

theorem reported_of_store :
  Reported uid name { store := s }
  := by
  intro h
  cases h

variable {probe : Probe} {r : Readings}

theorem probeStartup_reported :
  Reported uid name (probeStartup s uid name probe r)
  := by
  unfold probeStartup
  dsimp only
  split
  · intro h
    obtain ⟨ps, hps⟩ := probeState_evaluate h
    simp [send, hps]
  · apply reported_of_store

theorem probeLiveness_reported :
  Reported uid name (probeLiveness s uid name probe r)
  := by
  unfold probeLiveness
  dsimp only
  split
  · intro h
    obtain ⟨ps, hps⟩ := probeState_evaluate h
    rw [if_pos h]
    simp [send, probeState_reset hps]
  · apply reported_of_store

theorem afterLiveness_reported (h : Reported uid name live) :
  Reported uid name (afterLiveness live uid c r)
  := by
  unfold afterLiveness
  split
  · exact h
  · split
    · exact h
    · intro hr
      cases hr

theorem probeContainer_reported (s : PodStore) (uid : String) (c : Container) (r : Readings) :
  Reported uid c.name (probeContainer s uid c r)
  := by
  unfold probeContainer
  split
  · apply reported_of_store
  · split
    · apply probeStartup_reported
    · split
      · apply afterLiveness_reported
        apply probeLiveness_reported
      · apply afterLiveness_reported
        apply reported_of_store

/-! ### What the reducer makes of it -/

theorem reduce_probe_restarts :
  (Foci.reduce state (.probe fact) clock).2.filterMap Effect.restart = []
  := by
  have hst := Foci.reduce_step state (.probe fact) clock
  generalize Foci.reduce state (.probe fact) clock = result at hst ⊢
  cases hst with
  | ignored => rfl
  | touched ht =>
    rw [Foci.conclude_restarts]
    cases Foci.touched_handles ht with
    | probe f hn =>
      apply Foci.Events.restarts
      apply Foci.Events.ite Foci.events_eventEffect Foci.events_nil
  | synced hpo => cases hpo
  | evicted hev => cases hev

/-- A startup or liveness probe past its failure threshold sends one fact about the container, and
reducing it never orders a restart. -/
theorem needsRestart_no_restart (s : PodStore) (uid : String) (c : Container) (r : Readings)
    (h : (probeContainer s uid c r).needsRestart = true) :
  ∃ fact, (probeContainer s uid c r).sent = [fact] ∧ fact.uid = uid ∧ fact.container = c.name
    ∧ (fact.probeType = .startup ∨ fact.probeType = .liveness)
    ∧ ∀ state clock, Foci.restartsOf c.name (Foci.reduce state (.probe fact) clock).2 = []
  := by
  obtain ⟨fact, hs, hu, hn, hty⟩ := probeContainer_reported s uid c r h
  use fact, hs, hu, hn, hty
  intro state clock
  rw [Foci.restartsOf, reduce_probe_restarts]
  rfl

def fragile : Container :=
  { name := "a", livenessProbe := some { failureThreshold := 1 } }

def fragileStore : PodStore :=
  let pod : ApiPod :=
    { spec := ⟨.always, [fragile]⟩, uid := "u", podNamespace := "default", name := "web" }
  (newPodStore.registerHydrated "u" pod "").initRestartState pod (fun _ => 0) fun _ => 0

def failing : Readings where
  due _ := {}
  result _ := .failure
  probedAt _ := 0
  resetAt := 0

theorem needsRestart_no_restart_liveness :
  (probeContainer fragileStore "u" fragile failing).needsRestart = true
    ∧ ∃ fact, (probeContainer fragileStore "u" fragile failing).sent = [fact]
      ∧ ∀ state clock, Foci.restartsOf "a" (Foci.reduce state (.probe fact) clock).2 = []
  := by
  have h : (probeContainer fragileStore "u" fragile failing).needsRestart = true := by decide
  obtain ⟨fact, hs, -, -, -, hno⟩ := needsRestart_no_restart fragileStore "u" fragile failing h
  exact ⟨h, fact, hs, hno⟩

theorem liveness_not_restarted :
  ∃ fact, (probeContainer fragileStore "u" fragile failing).sent = [fact]
    ∧ (probeContainer fragileStore "u" fragile failing).needsRestart = true
    ∧ let state :=
        Foci.reducer.final (Foci.newPodState "u" "default" "web" "" ⟨.always, [fragile]⟩ {})
          [(.containerState ⟨"u", "a", .running, 0⟩, {})]
      (state.lookup "a").map Foci.ContainerState.phase = some .running
        ∧ Foci.restartsOf "a" (Foci.reduce state (.probe fact) {}).2 = []
  := by
  exact ⟨_, rfl, by decide, by decide, by decide⟩

end Periapsis.Probescheduler
