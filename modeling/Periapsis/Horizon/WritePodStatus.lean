import Periapsis.Syzygy.Pipeline

/-!
# The guard of status writes

A status is written by reading the pod object, looking at its UID, and updating the object that was
read.
-/

namespace Periapsis.Horizon

open Corev1 Periapsis.Types Foci Transition Syzygy

inductive ApiError where
  | notFound
  | conflict
  | other
  deriving DecidableEq

structure StatusCall where
  uid : String
  podNamespace : String
  name : String
  status : PodStatus

def handleUpdateStatus (eff : UpdateStatus) : StatusCall where
  uid := eff.uid
  podNamespace := eff.podNamespace
  name := eff.name
  status := podStatusPayloadToCorev1 eff.status

inductive WritePoint where
  | get (attempt : Nat)
  | updateStatus (attempt : Nat) (current : PodObject)
  | returned (err : Option ApiError)

structure StatusWrite where
  api : String → String → Option PodObject
  point : WritePoint
  attempts : Nat
  acted : List (Option PodObject)

inductive WriteAction where
  | get (err : Option ApiError)
  | updateStatus (err : Option ApiError)
  | client (podNamespace name : String) (object : Option PodObject)

def storeObject (api : String → String → Option PodObject) (podNamespace name : String)
    (object : Option PodObject) : String → String → Option PodObject :=
  Function.update api podNamespace (Function.update (api podNamespace) name object)

namespace StatusWrite

def start (api : String → String → Option PodObject) : StatusWrite where
  api := api
  point := .get 0
  attempts := 0
  acted := []

variable (c : StatusCall)

def get (s : StatusWrite) (attempt : Nat) (err : Option ApiError) :
    StatusWrite :=
  match err, s.api c.podNamespace c.name with
  | some .notFound, _ => { s with point := .returned none }
  | some err, _ => { s with point := .returned (some err) }
  | none, none => { s with point := .returned none }
  | none, some current =>
    if current.uid ≠ c.uid then { s with point := .returned none }
    else { s with point := .updateStatus attempt current }

def write (s : StatusWrite) : StatusWrite :=
  let object := s.api c.podNamespace c.name
  { s with
    api := storeObject s.api c.podNamespace c.name
      (object.map fun o =>
        { o with resourceVersion := o.resourceVersion + 1, status := c.status })
    acted := s.acted ++ [object] }

def updateStatus (s : StatusWrite) (attempt : Nat) (err : Option ApiError) :
    StatusWrite :=
  let s := { s with attempts := s.attempts + 1 }
  match err with
  | none => { s.write c with point := .returned none }
  | some .notFound => { s with point := .returned none }
  | some .conflict =>
    if attempt < maxRetries - 1 then { s with point := .get (attempt + 1) }
    else { s with point := .returned none }
  | some .other => { s with point := .returned (some .other) }

def step (s : StatusWrite) : WriteAction → Option StatusWrite
  | .get err =>
    match s.point with
    | .get attempt => some (s.get c attempt err)
    | _ => none
  | .updateStatus err =>
    match s.point with
    | .updateStatus attempt _ => some (s.updateStatus c attempt err)
    | _ => none
  | .client podNamespace name object =>
    some { s with api := storeObject s.api podNamespace name object }

def Changed (s : StatusWrite) : Prop :=
  match s.point with
  | .updateStatus _ current => s.api c.podNamespace c.name ≠ some current
  | _ => False

def Optimistic (s : StatusWrite) : WriteAction → Prop
  | .updateStatus err => s.Changed c → err = some .conflict ∨ err = some .notFound
  | _ => True

end StatusWrite

def writePodStatus (c : StatusCall) : System StatusWrite WriteAction where
  step := StatusWrite.step c

variable {c : StatusCall} {s t : StatusWrite}

def StatusWrite.Guarded (c : StatusCall) (s : StatusWrite) : Prop :=
  match s.point with
  | .get attempt => s.attempts = attempt ∧ attempt < maxRetries
  | .updateStatus attempt current =>
    s.attempts = attempt ∧ attempt < maxRetries ∧ current.uid = c.uid
  | .returned _ => s.attempts ≤ maxRetries

def StatusWrite.OwnPod (c : StatusCall) (s : StatusWrite) : Prop :=
  ∀ object ∈ s.acted, ∃ o, object = some o ∧ o.uid = c.uid

theorem StatusWrite.Guarded.attempts_le (h : s.Guarded c) :
  s.attempts ≤ maxRetries
  := by
  unfold StatusWrite.Guarded at h
  split at h
  · omega
  · omega
  · exact h

variable {attempt : Nat}

theorem StatusWrite.Guarded.get (h : s.Guarded c) (hp : s.point = .get attempt)
    (err : Option ApiError) :
  (s.get c attempt err).Guarded c ∧ (s.get c attempt err).acted = s.acted
  := by
  have hle := h.attempts_le
  simp only [StatusWrite.Guarded, hp] at h
  unfold StatusWrite.get
  split
  case h_4 =>
    split
    · exact ⟨hle, rfl⟩
    next hui =>
      exact ⟨⟨h.1, h.2, not_not.1 hui⟩, rfl⟩
  all_goals exact ⟨hle, rfl⟩

variable {current : PodObject}

theorem StatusWrite.Guarded.updateStatus (h : s.Guarded c)
    (hp : s.point = .updateStatus attempt current) (err : Option ApiError) :
  (s.updateStatus c attempt err).Guarded c
  := by
  simp only [StatusWrite.Guarded, hp] at h
  have hle : s.attempts + 1 ≤ maxRetries := by omega
  unfold StatusWrite.updateStatus
  split
  case h_3 =>
    split
    · refine ⟨?_, ?_⟩
      · dsimp only
        omega
      · omega
    · exact hle
  all_goals exact hle

theorem StatusWrite.OwnPod.updateStatus {err : Option ApiError} (h : s.OwnPod c)
    (hg : s.Guarded c) (hp : s.point = .updateStatus attempt current)
    (hs : s.Optimistic c (.updateStatus err)) :
  (s.updateStatus c attempt err).OwnPod c
  := by
  simp only [StatusWrite.Guarded, hp] at hg
  simp only [StatusWrite.Optimistic, StatusWrite.Changed, hp] at hs
  unfold StatusWrite.updateStatus
  split
  · have hr : s.api c.podNamespace c.name = some current := by
      by_contra hc
      rcases hs hc with her | her
      all_goals cases her
    intro object ho
    rcases List.mem_append.1 ho with hol | hn
    · exact h object hol
    · obtain rfl := List.mem_singleton.1 hn
      exact ⟨current, hr, hg.2.2⟩
  · exact h
  · split
    all_goals exact h
  · exact h

theorem StatusWrite.step_guarded (h : s.Guarded c ∧ s.OwnPod c) (hs : s.Optimistic c a)
    (hst : s.step c a = some t) :
  t.Guarded c ∧ t.OwnPod c
  := by
  cases a with
  | get err =>
    simp only [StatusWrite.step] at hst
    split at hst
    next attempt hp =>
      cases hst
      obtain ⟨hg, ha⟩ := h.1.get hp err
      refine ⟨hg, ?_⟩
      intro object ho
      rw [ha] at ho
      exact h.2 object ho
    · cases hst
  | updateStatus err =>
    simp only [StatusWrite.step] at hst
    split at hst
    next attempt current hp =>
      cases hst
      exact ⟨h.1.updateStatus hp err, h.2.updateStatus h.1 hp hs⟩
    · cases hst
  | client podNamespace name object =>
    cases hst
    exact h

/-- Every update that succeeds acts on an object with the UID of the call, and no more than five
updates are tried. -/
theorem writePodStatus_guarded (c : StatusCall) (api : String → String → Option PodObject)
    (actions : List WriteAction)
    (hserver : (writePodStatus c).Meets (StatusWrite.Optimistic c) (.start api) actions)
    (hrun : (writePodStatus c).run (.start api) actions = some s) :
  (∀ object ∈ s.acted, ∃ o, object = some o ∧ o.uid = c.uid) ∧ s.attempts ≤ 5
  := by
  have hsa : (StatusWrite.start api).Guarded c ∧ (StatusWrite.start api).OwnPod c := by
    refine ⟨⟨rfl, by decide⟩, ?_⟩
    intro object ho
    cases ho
  have hen : s.Guarded c ∧ s.OwnPod c := by
    apply (writePodStatus c).run_induction hsa _ hserver hrun
    intro u a v hu hserver hst
    exact StatusWrite.step_guarded hu hserver hst
  exact ⟨hen.2, hen.1.attempts_le⟩

def webRunning : UpdateStatus where
  uid := "u"
  podNamespace := "default"
  name := "web"
  status :=
    { phase := .running
      conditions := []
      containerStatuses := []
      hostIP := ""
      podIP := "" }

def webPodObject (version : Nat) : PodObject where
  uid := "u"
  resourceVersion := version
  status := { phase := .pending }

def retriedWrite : List WriteAction :=
  [.get none, .client "default" "web" (some (webPodObject 2)), .updateStatus (some .conflict),
    .get none, .updateStatus none, .client "default" "web" none]

theorem writePodStatus_guarded_retried :
  ∃ s, (writePodStatus (handleUpdateStatus webRunning)).run
      (.start fun _ _ => some (webPodObject 1)) retriedWrite = some s
    ∧ s.acted.length = 1 ∧ s.attempts = 2
    ∧ (∀ object ∈ s.acted, ∃ o, object = some o ∧ o.uid = "u") ∧ s.attempts ≤ 5
  := by
  refine ⟨_, rfl, rfl, rfl, ?_⟩
  apply writePodStatus_guarded (handleUpdateStatus webRunning) (fun _ _ => some (webPodObject 1))
    retriedWrite _ rfl
  refine ⟨trivial, ?_⟩
  rintro t ⟨⟩
  refine ⟨trivial, ?_⟩
  rintro t ⟨⟩
  refine ⟨fun _ => .inl rfl, ?_⟩
  rintro t ⟨⟩
  refine ⟨trivial, ?_⟩
  rintro t ⟨⟩
  refine ⟨fun hc => absurd rfl hc, ?_⟩
  rintro t ⟨⟩
  refine ⟨trivial, ?_⟩
  rintro t ⟨⟩
  trivial

/-- The task of the worker that executes `e`, at a point of the call. -/
def WritePoint.task (e : Emitted) : WritePoint → Task
  | .get attempt => .executing e attempt
  | .updateStatus attempt current => .writing e attempt current.resourceVersion
  | .returned _ => .idle

variable {p q : Pipeline} {h : Nat} {e : Emitted} {u : UpdateStatus} {ok : Bool}

/-- A worker of the pipeline reads the object as the call does. -/
theorem get_refines (he : e.effect = .updateStatus u) (ht : p.tasks h = .executing e attempt)
    (hq : p.get h ok = some q) (hs : s.api = p.api) :
  ∃ err, q.tasks h = (s.get (handleUpdateStatus u) attempt err).point.task e ∧ q.api = s.api
  := by
  use if ok then none else some .other
  simp only [Pipeline.get, ht, he] at hq
  rw [hs]
  cases ok with
  | false =>
    cases hq
    exact ⟨Function.update_self .., rfl⟩
  | true =>
    simp only [StatusWrite.get, handleUpdateStatus, hs, if_true] at hq ⊢
    split at hq
    next hno =>
      cases hq
      simp [hno, Pipeline.setTask, WritePoint.task]
    next current hso =>
      split at hq
      all_goals
        cases hq
        simp_all [Pipeline.setTask, WritePoint.task]

/-- A worker of the pipeline updates the object as the call does, with some answer of the server. -/
theorem put_refines (he : e.effect = .updateStatus u) (ht : p.tasks h = .writing e attempt v)
    (hq : p.put h ok = some q) (hs : s.api = p.api) :
  ∃ err, q.tasks h = (s.updateStatus (handleUpdateStatus u) attempt err).point.task e
    ∧ q.api = (s.updateStatus (handleUpdateStatus u) attempt err).api
  := by
  simp only [Pipeline.put, ht, he] at hq
  split at hq
  · split at hq
    next hno =>
      cases hq
      exact ⟨some .notFound, Function.update_self .., hs.symm⟩
    next current hso =>
      split at hq
      · cases hq
        refine ⟨none, Function.update_self .., ?_⟩
        simp only [StatusWrite.updateStatus, StatusWrite.write, handleUpdateStatus, hs, hso]
        rfl
      · use some .conflict
        unfold StatusWrite.updateStatus
        split_ifs at hq ⊢
        all_goals
          cases hq
          exact ⟨Function.update_self .., hs.symm⟩
  · cases hq
    exact ⟨some .other, Function.update_self .., hs.symm⟩

end Periapsis.Horizon
