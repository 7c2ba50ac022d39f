import Mathlib.Data.List.Basic
import Mathlib.Tactic.IntervalCases

/-!
# CSI volumes

A pod that uses a claim gets the volume that the claim is bound to.
-/

namespace Periapsis.Volume

open List

/-- A path on the host. -/
abbrev HostPath := List String

structure CSISource where
  driver : String
  volumeHandle : String
  deriving DecidableEq

structure PersistentVolume where
  name : String
  hostPath : Option HostPath := none
  localPath : Option HostPath := none
  csi : Option CSISource := none
  deriving DecidableEq

inductive ClaimPhase where
  | pending
  | bound
  | lost
  deriving DecidableEq

structure PersistentVolumeClaim where
  phase : ClaimPhase
  volumeName : String
  deriving DecidableEq

structure Cluster where
  claims : String → String → Option PersistentVolumeClaim
  volumes : String → Option PersistentVolume
  named : ∀ name pv, volumes name = some pv → pv.name = name

structure VolumePod where
  uid : String
  pawnName : String
  podNamespace : String
  claims : List String
  deriving DecidableEq

structure Resolver where
  baseDir : HostPath
  hostNodeName : String
  sha256Hash : String → String

def stagingPath (pvName : String) : HostPath :=
  ["var", "lib", "kubelet", "plugins", "kubernetes.io", "csi", pvName, "globalmount"]

variable (r : Resolver)

def Resolver.podDir (pod : VolumePod) : HostPath :=
  r.baseDir ++ ["pawns", pod.pawnName, "pods", pod.uid]

def Resolver.stateDir (pod : VolumePod) : HostPath :=
  r.podDir pod ++ ["volumes"]

def Resolver.targetPath (pod : VolumePod) (pvName : String) : HostPath :=
  r.stateDir pod ++ ["csi", pvName, "mount"]

def Resolver.vaName (pvName : String) : String :=
  r.sha256Hash (pvName ++ "/" ++ r.hostNodeName)

/-- The answer to a request that may fail. -/
def answer {α : Type*} (ok : Bool) (a : Option α) : Option α :=
  if ok then a else none

theorem answer_eq_some {α : Type*} {ok : Bool} {a : Option α} {x : α} :
  answer ok a = some x ↔ ok ∧ a = some x
  := Option.ite_none_right_eq_some

inductive CSIEffect where
  | createAttachment (name : String)
  | mkdirAll (path : HostPath)
  | nodeStageVolume (source : CSISource) (path : HostPath)
  | nodeUnpublishVolume (source : CSISource) (path : HostPath)
  | nodeUnstageVolume (source : CSISource) (path : HostPath)
  | removeAll (path : HostPath)
  | deleteAttachment (name : String)
  deriving DecidableEq

inductive ResolveError where
  | getPVC
  | notBound (transient : Bool)
  | getPV
  | unsupported
  | noHostNodeName
  | createAttachment
  | waitForAttachment
  | getAttachment
  | newCSIClient
  | mkdirAll
  | nodeStageVolume
  deriving DecidableEq

structure ResolveOutcome where
  getPVC : Bool
  getPV : Bool
  createAttachment : Bool
  waitForAttachment : Bool
  getAttachment : Bool
  newCSIClient : Bool
  mkdirAll : Bool
  nodeStageVolume : Bool

def resolveCSI (o : ResolveOutcome) (pvName : String) (source : CSISource) :
    Except ResolveError HostPath × List CSIEffect :=
  let created := [CSIEffect.createAttachment (r.vaName pvName)]
  let made := created ++ [.mkdirAll (stagingPath pvName)]
  if r.hostNodeName = "" then (.error .noHostNodeName, [])
  else if ¬ o.createAttachment then (.error .createAttachment, [])
  else if ¬ o.waitForAttachment then (.error .waitForAttachment, created)
  else if ¬ o.getAttachment then (.error .getAttachment, created)
  else if ¬ o.newCSIClient then (.error .newCSIClient, created)
  else if ¬ o.mkdirAll then (.error .mkdirAll, created)
  else if ¬ o.nodeStageVolume then (.error .nodeStageVolume, made)
  else (.ok (stagingPath pvName), made ++ [.nodeStageVolume source (stagingPath pvName)])

variable {r}

variable (cluster : Cluster)

def resolvePVC (r : Resolver) (o : ResolveOutcome) (podNamespace : String)
    (claimName : String) : Except ResolveError HostPath × List CSIEffect :=
  match answer o.getPVC (cluster.claims podNamespace claimName) with
  | none => (.error .getPVC, [])
  | some pvc =>
    if pvc.phase ≠ .bound then (.error (.notBound (pvc.phase = .pending)), [])
    else
      match answer o.getPV (cluster.volumes pvc.volumeName) with
      | none => (.error .getPV, [])
      | some pv =>
        match pv.hostPath, pv.localPath, pv.csi with
        | some path, _, _ => (.ok path, [])
        | none, some path, _ => (.ok path, [])
        | none, none, some source => resolveCSI r o pvc.volumeName source
        | none, none, none => (.error .unsupported, [])

/-- How the parts of a clean-up go. -/
structure CleanupOutcome where
  getPVC : Bool
  getPV : Bool
  newCSIClient : Bool
  nodeUnpublishVolume : Bool
  nodeUnstageVolume : Bool
  deleteAttachment : Bool

def cleanupCSIVolume (r : Resolver) (pod : VolumePod) (o : CleanupOutcome) (pvName : String)
    (source : CSISource) : List CSIEffect :=
  let removed := [CSIEffect.removeAll (stagingPath pvName), .removeAll (r.targetPath pod pvName)]
  if o.newCSIClient then
    (if o.nodeUnpublishVolume then [.nodeUnpublishVolume source (r.targetPath pod pvName)] else [])
      ++ (if o.nodeUnstageVolume then [.nodeUnstageVolume source (stagingPath pvName)] else [])
      ++ removed
      ++ (if o.deleteAttachment then [.deleteAttachment (r.vaName pvName)] else [])
  -- The directories are removed without the driver.
  else removed

structure Attempt where
  pvName : String
  source : CSISource
  outcome : CleanupOutcome

def attempt (podNamespace claimName : String) (o : CleanupOutcome) :
    Option Attempt := do
  let pvc ← answer o.getPVC (cluster.claims podNamespace claimName)
  let pv ← answer o.getPV (cluster.volumes pvc.volumeName)
  let source ← pv.csi
  return ⟨pv.name, source, o⟩

def attempts (pod : VolumePod) (outcome : Nat → CleanupOutcome) :
    List Attempt :=
  pod.claims.zipIdx.filterMap fun claim =>
    attempt cluster pod.podNamespace claim.1 (outcome claim.2)

def cleanupCSI (r : Resolver) (pod : VolumePod) (outcome : Nat → CleanupOutcome) : List CSIEffect :=
  (attempts cluster pod outcome).flatMap fun a => cleanupCSIVolume r pod a.outcome a.pvName a.source

def scrubWorkspace (r : Resolver) (pod : VolumePod)
    (outcome : Nat → CleanupOutcome) : List CSIEffect :=
  cleanupCSI cluster r pod outcome ++ [.removeAll (r.stateDir pod), .removeAll (r.podDir pod)]

section Directories

variable {pod : VolumePod} {pvName pvName' : String}

theorem stagingPath_above_iff :
  stagingPath pvName <+: stagingPath pvName' ↔ pvName = pvName'
  := by
  simp [stagingPath]

theorem podDir_not_above {names : HostPath} :
  ¬ r.podDir pod ++ names <+: stagingPath pvName
  := by
  rintro ⟨rest, h⟩
  have hp := congrArg (fun l : HostPath => l[r.baseDir.length]?) h
  have hl := congrArg length h
  simp only [Resolver.podDir, stagingPath, length_append, length_cons,
    length_nil] at hl
  simp only [Resolver.podDir, append_assoc, getElem?_append_right le_rfl, Nat.sub_self,
    cons_append, getElem?_cons_zero] at hp
  have hle : r.baseDir.length ≤ 4 := by omega
  interval_cases r.baseDir.length <;> simp [stagingPath] at hp

theorem targetPath_not_above :
  ¬ r.targetPath pod pvName <+: stagingPath pvName'
  := by
  rw [Resolver.targetPath, Resolver.stateDir, append_assoc]
  exact podDir_not_above

end Directories

end Periapsis.Volume
