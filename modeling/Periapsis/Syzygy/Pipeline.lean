import Periapsis.Syzygy.Loop
import Periapsis.Transition.Channel
import Periapsis.Transition.System

/-!
# The pipeline of effects

The event loop pushes effects to a bounded channel, effect workers forward those for the Kubernetes
API to the bounded inbox of Horizon, and its workers execute them.
-/

namespace Periapsis

open Corev1 Periapsis.Types Foci Transition Function

namespace Types

def Effect.status : Effect → Option UpdateStatus
  | .updateStatus u => some u
  | _ => none

end Types

namespace Syzygy

def effectsBuf : Nat := 16384

def inboxBuf : Nat := 1024

def defaultEffectWorkers : Nat := 4

def maxRetries : Nat := 5

structure WorkerCounts where
  syzygy : UInt8
  horizon : UInt8

def WorkerCounts.effectWorkers (counts : WorkerCounts) : Nat :=
  if counts.syzygy = 0 then defaultEffectWorkers else counts.syzygy.toNat

def WorkerCounts.horizonWorkers (counts : WorkerCounts) : Nat :=
  counts.horizon.toNat

structure Emitted where
  place : Nat
  effect : Effect

inductive Task where
  | idle
  | executing (e : Emitted) (attempt : Nat)
  | writing (e : Emitted) (attempt : Nat) (resourceVersion : Nat)
  | exited

def Task.hasExited : Task → Bool
  | .exited => true
  | _ => false

structure PodObject where
  uid : String
  resourceVersion : Nat
  status : PodStatus

inductive DropReason where
  | effectsFull
  | inboxFull
  | horizonClosed
  | apiError
  | conflict
  deriving DecidableEq

structure Drop where
  place : Nat
  reason : DropReason
  found : Nat

structure Pipeline where
  states : States
  pushing : List Emitted
  effects : Channel Emitted effectsBuf
  holding : Nat → Option Emitted
  inbox : Channel Emitted inboxBuf
  cancelled : Bool
  closed : Bool
  /-- What the workers of Horizon do; the goroutine draining the inbox after closing is the one past
  the last worker. -/
  tasks : Nat → Task
  api : String → String → Option PodObject
  log : List (Fact ⊕ Effect)
  delivered : List Nat
  dropped : List Drop

def statuses (log : List (Fact ⊕ Effect)) : List UpdateStatus :=
  log.filterMap (Sum.elim (fun _ => none) Effect.status)

def initial (states : States) (api : String → String → Option PodObject) : Pipeline where
  states := states
  pushing := []
  effects := .empty
  holding _ := none
  inbox := .empty
  cancelled := false
  closed := false
  tasks _ := .idle
  api := api
  log := []
  delivered := []
  dropped := []

namespace Pipeline

variable (s : Pipeline)

def drop (e : Emitted) (reason : DropReason) (found : Nat) : Pipeline :=
  { s with dropped := s.dropped ++ [⟨e.place, reason, found⟩] }

def setTask (h : Nat) (task : Task) : Pipeline :=
  { s with tasks := update s.tasks h task }

def setObject (podNamespace name : String) (object : Option PodObject) :
    Pipeline :=
  { s with
    api := update s.api podNamespace (update (s.api podNamespace) name object) }

def processFact (fact : Fact) (clock : Clock) : Option Pipeline :=
  match s.pushing with
  | [] =>
    let (states, effects) := Syzygy.processFact s.states fact clock
    some
      { s with
        states := states
        pushing := effects.mapIdx fun i e => ⟨s.log.length + 1 + i, e⟩
        log := s.log ++ .inl fact :: effects.map .inr }
  | _ :: _ => none

def push : Option Pipeline :=
  match s.pushing with
  | [] => none
  | e :: rest =>
    let s := { s with pushing := rest }
    match s.effects.send e with
    | some effects => some { s with effects := effects }
    | none => some (s.drop e .effectsFull s.effects.items.length)

variable {s}

def take (counts : WorkerCounts) (s : Pipeline) (w : Nat) : Option Pipeline :=
  if w < counts.effectWorkers then
    match s.holding w, s.effects.receive with
    | none, some (e, effects) =>
      some { s with effects := effects, holding := update s.holding w (some e) }
    | _, _ => none
  else none

def send (s : Pipeline) (e : Emitted) : Pipeline :=
  if s.closed then s.drop e .horizonClosed s.inbox.items.length
  else
    match s.inbox.send e with
    | some inbox => { s with inbox := inbox, delivered := s.delivered ++ [e.place] }
    | none => s.drop e .inboxFull s.inbox.items.length

def dispatchEffect (s : Pipeline) (e : Emitted) : Pipeline :=
  match e.effect with
  | .setPodPhase _ => s
  | .persistPodState _ => s
  | .initRestartState _ => s
  | .updateStatus _ => s.send e
  | .restartContainer _ => s.send e
  | .resetUnit _ => s.send e
  | .recordEvent _ => s.send e

def dispatch (s : Pipeline) (w : Nat) : Option Pipeline :=
  match s.holding w with
  | none => none
  | some e => some ({ s with holding := update s.holding w none }.dispatchEffect e)

def receive (counts : WorkerCounts) (s : Pipeline) (h : Nat) : Option Pipeline :=
  if h < counts.horizonWorkers ∨ h = counts.horizonWorkers ∧ s.closed = true then
    match s.tasks h, s.inbox.receive with
    | .idle, some (e, inbox) => some ({ s with inbox := inbox }.setTask h (.executing e 0))
    | _, _ => none
  else none

variable (s)

def finish (h : Nat) : Option Pipeline :=
  match s.tasks h with
  | .executing e _ =>
    match e.effect with
    | .updateStatus _ => none
    | _ => some (s.setTask h .idle)
  | _ => none

def get (h : Nat) (ok : Bool) : Option Pipeline :=
  match s.tasks h with
  | .executing e attempt =>
    match e.effect with
    | .updateStatus u =>
      if ok then
        match s.api u.podNamespace u.name with
        | none => some (s.setTask h .idle)
        | some current =>
          if current.uid ≠ u.uid then some (s.setTask h .idle)
          else some (s.setTask h (.writing e attempt current.resourceVersion))
      else some ((s.drop e .apiError 0).setTask h .idle)
    | _ => none
  | _ => none

def put (h : Nat) (ok : Bool) : Option Pipeline :=
  match s.tasks h with
  | .writing e attempt resourceVersion =>
    match e.effect with
    | .updateStatus u =>
      if ok then
        match s.api u.podNamespace u.name with
        | none => some (s.setTask h .idle)
        | some current =>
          if current.uid = u.uid ∧ current.resourceVersion = resourceVersion then
            let update : PodObject :=
              { current with
                resourceVersion := current.resourceVersion + 1
                status := podStatusPayloadToCorev1 u.status }
            some ((s.setObject u.podNamespace u.name (some update)).setTask h .idle)
          else if attempt < maxRetries - 1 then
            some (s.setTask h (.executing e (attempt + 1)))
          else some ((s.drop e .conflict 0).setTask h .idle)
      else some ((s.drop e .apiError 0).setTask h .idle)
    | _ => none
  | _ => none

def modify (podNamespace name : String) : Option Pipeline :=
  (s.api podNamespace name).map fun current =>
    s.setObject podNamespace name
      (some { current with resourceVersion := current.resourceVersion + 1 })

def delete (podNamespace name : String) : Option Pipeline :=
  some (s.setObject podNamespace name none)

def create (podNamespace name : String) (object : PodObject) : Option Pipeline :=
  match s.api podNamespace name with
  | some _ => none
  | none =>
    if ∀ u ∈ statuses s.log, u.uid ≠ object.uid then
      some (s.setObject podNamespace name (some object))
    else none

def cancel : Option Pipeline :=
  some { s with cancelled := true }

variable {s}

def exit (counts : WorkerCounts) (s : Pipeline) (h : Nat) : Option Pipeline :=
  if s.cancelled = true ∧ h < counts.horizonWorkers then
    match s.tasks h with
    | .idle => some (s.setTask h .exited)
    | _ => none
  else none

def close (counts : WorkerCounts) (s : Pipeline) : Option Pipeline :=
  if s.cancelled = true ∧ ∀ h < counts.horizonWorkers, (s.tasks h).hasExited = true then
    some { s with closed := true }
  else none

end Pipeline

inductive Action where
  | fact (fact : Fact) (clock : Clock)
  | push
  | take (w : Nat)
  | dispatch (w : Nat)
  | receive (h : Nat)
  | finish (h : Nat)
  | get (h : Nat) (ok : Bool)
  | put (h : Nat) (ok : Bool)
  | modify (podNamespace name : String)
  | delete (podNamespace name : String)
  | create (podNamespace name : String) (object : PodObject)
  | cancel
  | exit (h : Nat)
  | close

def pipeline (counts : WorkerCounts) : System Pipeline Action where
  step s a :=
    match a with
    | .fact fact clock => s.processFact fact clock
    | .push => s.push
    | .take w => s.take counts w
    | .dispatch w => s.dispatch w
    | .receive h => s.receive counts h
    | .finish h => s.finish h
    | .get h ok => s.get h ok
    | .put h ok => s.put h ok
    | .modify podNamespace name => s.modify podNamespace name
    | .delete podNamespace name => s.delete podNamespace name
    | .create podNamespace name object => s.create podNamespace name object
    | .cancel => s.cancel
    | .exit h => s.exit counts h
    | .close => s.close counts

/-- The worker has the effect in hand. -/
def Pipeline.Executes (s : Pipeline) (h : Nat) (e : Emitted) : Prop :=
  ∃ attempt, s.tasks h = .executing e attempt ∨ ∃ v, s.tasks h = .writing e attempt v

inductive Move (counts : WorkerCounts) (s : Pipeline) : Pipeline → Prop
  | processed (fact : Fact) (clock : Clock) (h : s.pushing = []) :
      Move counts s
        { s with
          states := (processFact s.states fact clock).1
          pushing := (processFact s.states fact clock).2.mapIdx
            fun i e => ⟨s.log.length + 1 + i, e⟩
          log := s.log ++ .inl fact :: (processFact s.states fact clock).2.map .inr }
  | pushed (e : Emitted) (rest : List Emitted) (effects : Channel Emitted effectsBuf)
      (h : s.pushing = e :: rest) (hsend : s.effects.send e = some effects) :
      Move counts s { s with pushing := rest, effects := effects }
  | refused (e : Emitted) (rest : List Emitted)
      (h : s.pushing = e :: rest) (hsend : s.effects.send e = none) :
      Move counts s ({ s with pushing := rest }.drop e .effectsFull s.effects.items.length)
  | taken (w : Nat) (e : Emitted) (effects : Channel Emitted effectsBuf)
      (hw : w < counts.effectWorkers) (h : s.holding w = none)
      (hreceive : s.effects.receive = some (e, effects)) :
      Move counts s { s with effects := effects, holding := update s.holding w (some e) }
  | dispatched (w : Nat) (e : Emitted) (h : s.holding w = some e) :
      Move counts s ({ s with holding := update s.holding w none }.dispatchEffect e)
  | received (h : Nat) (e : Emitted) (inbox : Channel Emitted inboxBuf)
      (hh : h < counts.horizonWorkers ∨ h = counts.horizonWorkers ∧ s.closed = true)
      (htask : s.tasks h = .idle) (hreceive : s.inbox.receive = some (e, inbox)) :
      Move counts s ({ s with inbox := inbox }.setTask h (.executing e 0))
  | finished (h : Nat) (e : Emitted) (attempt : Nat) (htask : s.tasks h = .executing e attempt)
      (heffect : ∀ u, e.effect ≠ .updateStatus u) :
      Move counts s (s.setTask h .idle)
  | failed (h : Nat) (e : Emitted) (reason : DropReason) (htask : s.Executes h e) :
      Move counts s ((s.drop e reason 0).setTask h .idle)
  | skipped (h : Nat) (e : Emitted) (u : UpdateStatus) (htask : s.Executes h e)
      (heffect : e.effect = .updateStatus u)
      (hapi : ∀ current, s.api u.podNamespace u.name = some current → current.uid ≠ u.uid) :
      Move counts s (s.setTask h .idle)
  | read (h : Nat) (e : Emitted) (u : UpdateStatus) (attempt : Nat) (current : PodObject)
      (htask : s.tasks h = .executing e attempt) (heffect : e.effect = .updateStatus u)
      (hapi : s.api u.podNamespace u.name = some current) (huid : current.uid = u.uid) :
      Move counts s (s.setTask h (.writing e attempt current.resourceVersion))
  | written (h : Nat) (e : Emitted) (u : UpdateStatus) (attempt : Nat) (current : PodObject)
      (htask : s.tasks h = .writing e attempt current.resourceVersion)
      (heffect : e.effect = .updateStatus u)
      (hapi : s.api u.podNamespace u.name = some current) (huid : current.uid = u.uid) :
      Move counts s
        ((s.setObject u.podNamespace u.name
          (some
            { current with
              resourceVersion := current.resourceVersion + 1
              status := podStatusPayloadToCorev1 u.status })).setTask h .idle)
  | retried (h : Nat) (e : Emitted) (attempt v : Nat) (htask : s.tasks h = .writing e attempt v) :
      Move counts s (s.setTask h (.executing e (attempt + 1)))
  | modified (podNamespace name : String) (current : PodObject)
      (hapi : s.api podNamespace name = some current) :
      Move counts s
        (s.setObject podNamespace name
          (some { current with resourceVersion := current.resourceVersion + 1 }))
  | deleted (podNamespace name : String) : Move counts s (s.setObject podNamespace name none)
  | created (podNamespace name : String) (object : PodObject)
      (hfresh : ∀ u ∈ statuses s.log, u.uid ≠ object.uid) :
      Move counts s (s.setObject podNamespace name (some object))
  | cancelled : Move counts s { s with cancelled := true }
  | exited (h : Nat) (hh : h < counts.horizonWorkers) (htask : s.tasks h = .idle) :
      Move counts s (s.setTask h .exited)
  | closed (hexited : ∀ h < counts.horizonWorkers, (s.tasks h).hasExited = true) :
      Move counts s { s with closed := true }

section Inversion

variable {counts : WorkerCounts} {s t : Pipeline}

theorem processFact_move {fact : Fact} {clock : Clock} (h : s.processFact fact clock = some t) :
  Move counts s t
  := by
  unfold Pipeline.processFact at h
  split at h
  next hp =>
    cases h
    apply Move.processed fact clock hp
  · cases h

theorem push_move (h : s.push = some t) :
  Move counts s t
  := by
  unfold Pipeline.push at h
  split at h
  · cases h
  next e rest hp =>
    dsimp only at h
    split at h
    next effects hse =>
      cases h
      apply Move.pushed e rest effects hp hse
    next hse =>
      cases h
      apply Move.refused e rest hp hse

theorem take_move (h : s.take counts w = some t) :
  Move counts s t
  := by
  unfold Pipeline.take at h
  split at h
  next hw =>
    split at h
    next e effects hho hr =>
      cases h
      apply Move.taken w e effects hw hho hr
    · cases h
  · cases h

theorem dispatch_move (h : s.dispatch w = some t) :
  Move counts s t
  := by
  unfold Pipeline.dispatch at h
  split at h
  · cases h
  next e hho =>
    cases h
    apply Move.dispatched w e hho

theorem receive_move (hs : s.receive counts h = some t) :
  Move counts s t
  := by
  unfold Pipeline.receive at hs
  split at hs
  next hh =>
    split at hs
    next e inbox ht hr =>
      cases hs
      apply Move.received h e inbox hh ht hr
    · cases hs
  · cases hs

theorem finish_move (hs : s.finish h = some t) :
  Move counts s t
  := by
  unfold Pipeline.finish at hs
  split at hs
  next e attempt ht =>
    split at hs
    · cases hs
    next hef =>
      cases hs
      apply Move.finished h e attempt ht hef
  · cases hs

variable {ok : Bool}

theorem get_move (hs : s.get h ok = some t) :
  Move counts s t
  := by
  unfold Pipeline.get at hs
  split at hs
  next e attempt ht =>
    split at hs
    next u hef =>
      split at hs
      · split at hs
        next ha =>
          cases hs
          apply Move.skipped h e u ⟨attempt, .inl ht⟩ hef
          simp [ha]
        next current ha =>
          split at hs
          next hu =>
            cases hs
            apply Move.skipped h e u ⟨attempt, .inl ht⟩ hef
            simpa [ha] using hu
          next hu =>
            cases hs
            apply Move.read h e u attempt current ht hef ha
            simpa using hu
      · cases hs
        apply Move.failed h e .apiError ⟨attempt, .inl ht⟩
    · cases hs
  · cases hs

theorem put_move (hs : s.put h ok = some t) :
  Move counts s t
  := by
  unfold Pipeline.put at hs
  split at hs
  next e attempt v ht =>
    split at hs
    next u hef =>
      split at hs
      · split at hs
        next ha =>
          cases hs
          apply Move.skipped h e u ⟨attempt, .inr ⟨v, ht⟩⟩ hef
          simp [ha]
        next current ha =>
          split at hs
          next hsa =>
            obtain ⟨hu, rfl⟩ := hsa
            cases hs
            apply Move.written h e u attempt current ht hef ha hu
          · split at hs
            · cases hs
              apply Move.retried h e attempt v ht
            · cases hs
              apply Move.failed h e .conflict ⟨attempt, .inr ⟨v, ht⟩⟩
      · cases hs
        apply Move.failed h e .apiError ⟨attempt, .inr ⟨v, ht⟩⟩
    · cases hs
  · cases hs

variable {podNamespace name : String}

theorem modify_move (h : s.modify podNamespace name = some t) :
  Move counts s t
  := by
  obtain ⟨current, ha, rfl⟩ := Option.map_eq_some_iff.1 h
  apply Move.modified podNamespace name current ha

theorem create_move {object : PodObject} (h : s.create podNamespace name object = some t) :
  Move counts s t
  := by
  unfold Pipeline.create at h
  split at h
  · cases h
  · split at h
    next hf =>
      cases h
      apply Move.created podNamespace name object hf
    · cases h

theorem exit_move (hs : s.exit counts h = some t) :
  Move counts s t
  := by
  unfold Pipeline.exit at hs
  split at hs
  next hh =>
    split at hs
    next ht =>
      cases hs
      apply Move.exited h hh.2 ht
    · cases hs
  · cases hs

theorem close_move (h : s.close counts = some t) :
  Move counts s t
  := by
  unfold Pipeline.close at h
  split at h
  next hex =>
    cases h
    apply Move.closed hex.2
  · cases h

theorem step_move (h : (pipeline counts).step s a = some t) :
  Move counts s t
  := by
  cases a with
  | fact fact clock => exact processFact_move h
  | push => exact push_move h
  | take w => exact take_move h
  | dispatch w => exact dispatch_move h
  | receive i => exact receive_move h
  | finish i => exact finish_move h
  | get i ok => exact get_move h
  | put i ok => exact put_move h
  | modify podNamespace name => exact modify_move h
  | delete podNamespace name =>
    cases h
    exact Move.deleted podNamespace name
  | create podNamespace name object => exact create_move h
  | cancel =>
    cases h
    exact Move.cancelled
  | exit i => exact exit_move h
  | close => exact close_move h

theorem dispatchEffect_cases (s : Pipeline) (e : Emitted) :
  s.dispatchEffect e = s ∧ e.effect.status = none ∧ e.effect.restart = none
    ∨ (∃ inbox, s.inbox.send e = some inbox
        ∧ s.dispatchEffect e = { s with inbox := inbox, delivered := s.delivered ++ [e.place] })
    ∨ ∃ reason, s.dispatchEffect e = s.drop e reason s.inbox.items.length
        ∧ (reason = .horizonClosed ∨ reason = .inboxFull ∧ s.inbox.items.length = inboxBuf)
  := by
  have hse : (∃ inbox, s.inbox.send e = some inbox
        ∧ s.send e = { s with inbox := inbox, delivered := s.delivered ++ [e.place] })
      ∨ ∃ reason, s.send e = s.drop e reason s.inbox.items.length
        ∧ (reason = .horizonClosed ∨ reason = .inboxFull ∧ s.inbox.items.length = inboxBuf) := by
    unfold Pipeline.send
    split
    · right
      exact ⟨_, rfl, .inl rfl⟩
    · split
      next inbox hi =>
        left
        exact ⟨inbox, hi, rfl⟩
      next hfu =>
        right
        exact ⟨_, rfl, .inr ⟨rfl, Channel.send_eq_none.1 hfu⟩⟩
  cases hef : e.effect with
  | setPodPhase | persistPodState | initRestartState =>
    left
    simp [Pipeline.dispatchEffect, hef, Effect.status, Effect.restart]
  | _ =>
    right
    simpa only [Pipeline.dispatchEffect, hef] using hse

theorem dispatchEffect_frame (s : Pipeline) (e : Emitted) :
  (s.dispatchEffect e).states = s.states ∧ (s.dispatchEffect e).log = s.log
    ∧ (s.dispatchEffect e).pushing = s.pushing ∧ (s.dispatchEffect e).effects = s.effects
    ∧ (s.dispatchEffect e).holding = s.holding ∧ (s.dispatchEffect e).tasks = s.tasks
    ∧ (s.dispatchEffect e).closed = s.closed ∧ s.delivered ⊆ (s.dispatchEffect e).delivered
    ∧ s.dropped ⊆ (s.dispatchEffect e).dropped
  := by
  rcases dispatchEffect_cases s e with ⟨heq, -⟩ | ⟨inbox, -, heq⟩ | ⟨reason, heq, -⟩
  · rw [heq]
    simp
  · rw [heq]
    simp
  · rw [heq]
    simp [Pipeline.drop]

end Inversion

def onePod (state : PodState) : States :=
  update (fun _ => none) state.uid (some state)

def webPod : PodState :=
  newPodState "u" "default" "web" "" ⟨.always, [{ name := "a" }]⟩ {}

def poll (state : Perigeos.MachineState) : Fact :=
  .containerState ⟨"u", "a", state, 1⟩

end Syzygy

end Periapsis
