import Periapsis.Types.Messages

/-!
# Probes

The state kept of the probes of a container, when a probe is due, and what its result makes of the
state.
-/

namespace Periapsis.Node

open Corev1 Periapsis.Types

inductive ProbeResult where
  | success
  | failure
  | unknown
  deriving DecidableEq

structure ContainerProbeState where
  startedAt : Time := 0
  startupPassed : Bool := false
  startupFailCount : Int32 := 0
  liveFailCount : Int32 := 0
  ready : Bool := false
  readyFailCount : Int32 := 0
  readySuccessCount : Int32 := 0
  lastProbeTime : ProbeType → Option Time := fun _ => none

structure DueReadings where
  jitter : Int64 := 0
  now : Time := 0
  sinceStart : Time := 0
  sinceLast : Time := 0

def probePeriod (periodSeconds : Int32) : Duration :=
  (if periodSeconds ≤ 0 then 10 else periodSeconds).toInt64 * second

variable (state : ContainerProbeState)

def ContainerProbeState.seed (probeType : ProbeType) (periodSeconds initialDelaySeconds : Int32)
    (r : DueReadings) : ContainerProbeState :=
  match state.lastProbeTime probeType with
  | some _ => state
  | none =>
    let period := probePeriod periodSeconds
    let jitter := r.jitter * second
    let initialDelay := initialDelaySeconds.toInt64 * second
    let first :=
      if state.startedAt ≠ 0 then state.startedAt + (initialDelay + jitter - period).toInt
      else r.now + (jitter - period).toInt
    { state with
      lastProbeTime := Function.update state.lastProbeTime probeType (some first) }

def isDue (probeType : ProbeType) (periodSeconds initialDelaySeconds : Int32)
    (r : DueReadings) : ContainerProbeState × Bool :=
  let state := state.seed probeType periodSeconds initialDelaySeconds r
  let last := (state.lastProbeTime probeType).getD 0
  if 0 < initialDelaySeconds ∧ state.startedAt ≠ 0
      ∧ timeSub r.sinceStart state.startedAt < initialDelaySeconds.toInt64 * second then
    (state, false)
  else (state, probePeriod periodSeconds ≤ timeSub r.sinceLast last)

def markProbed (probeType : ProbeType) (now : Time) :
    ContainerProbeState :=
  { state with lastProbeTime := Function.update state.lastProbeTime probeType (some now) }

def evalStartup (probe : Probe) (result : ProbeResult) :
    ContainerProbeState × Bool :=
  if result = .success then ({ state with startupPassed := true, startupFailCount := 0 }, false)
  else
    let startupFailCount := state.startupFailCount + 1
    let threshold := if probe.failureThreshold ≤ 0 then 3 else probe.failureThreshold
    ({ state with startupFailCount := startupFailCount }, threshold ≤ startupFailCount)

def evalLiveness (probe : Probe) (result : ProbeResult) :
    ContainerProbeState × Bool :=
  if result = .success then ({ state with liveFailCount := 0 }, false)
  else
    let liveFailCount := state.liveFailCount + 1
    let threshold := if probe.failureThreshold ≤ 0 then 3 else probe.failureThreshold
    ({ state with liveFailCount := liveFailCount }, threshold ≤ liveFailCount)

def evalReadiness (probe : Probe) (result : ProbeResult) :
    ContainerProbeState :=
  if result = .success then
    let readySuccessCount := state.readySuccessCount + 1
    let successThreshold := if probe.successThreshold ≤ 0 then 1 else probe.successThreshold
    { state with
      readyFailCount := 0
      readySuccessCount := readySuccessCount
      ready := if successThreshold ≤ readySuccessCount then true else state.ready }
  else
    let readyFailCount := state.readyFailCount + 1
    let failThreshold := if probe.failureThreshold ≤ 0 then 3 else probe.failureThreshold
    { state with
      readySuccessCount := 0
      readyFailCount := readyFailCount
      ready := if failThreshold ≤ readyFailCount then false else state.ready }

end Periapsis.Node
