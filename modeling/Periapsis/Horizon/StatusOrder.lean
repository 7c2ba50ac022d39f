import Periapsis.Syzygy.Pipeline

/-!
# The order of status writes

Several workers take from either channel, and a status write can overtake an earlier one of the same
pod.
-/

namespace Periapsis.Horizon

open Periapsis.Types Foci Transition Syzygy List Function Effect Pipeline

def lastStatus (emitted : List UpdateStatus) (uid : String) : Option UpdateStatus :=
  (emitted.filter (·.uid = uid)).getLast?

def Reflects (api : String → String → Option PodObject) (emitted : List UpdateStatus) : Prop :=
  ∀ u, lastStatus emitted u.uid = some u →
    ∀ object, api u.podNamespace u.name = some object → object.uid = u.uid →
      object.status = podStatusPayloadToCorev1 u.status

structure Complete (s : Pipeline) : Prop where
  pushing_eq : s.pushing = []
  effects_eq : s.effects.items = []
  holding_eq : ∀ w, s.holding w = none
  inbox_eq : s.inbox.items = []
  tasks_eq : ∀ h, s.tasks h = .idle ∨ s.tasks h = .exited

variable {counts : WorkerCounts} {s t : Pipeline}
  {api api' : String → String → Option PodObject} {emitted : List UpdateStatus}
  {u : UpdateStatus}

theorem lastStatus_concat (uid : String) :
  lastStatus (emitted ++ [u]) uid = if u.uid = uid then some u else lastStatus emitted uid
  := by
  unfold lastStatus
  split
  next hud =>
    simp [hud]
  next hud =>
    simp [hud]

variable {podNamespace name : String}

theorem setObject_api :
  (s.setObject podNamespace name object).api podNamespace' name'
    = if podNamespace' = podNamespace ∧ name' = name then object else s.api podNamespace' name'
  := by
  unfold setObject
  by_cases hsp : podNamespace' = podNamespace
  · subst hsp
    by_cases hna : name' = name
    all_goals simp [hna]
  · simp [hsp]

theorem Reflects.of_api (h : Reflects api emitted)
    (hap : ∀ podNamespace name object, api' podNamespace name = some object →
      (∃ current, api podNamespace name = some current ∧ current.uid = object.uid
        ∧ current.status = object.status)
      ∨ ∀ u ∈ emitted, u.uid ≠ object.uid) :
  Reflects api' emitted
  := by
  intro u hu object hob hud
  rcases hap _ _ object hob with ⟨current, hcu, hui, hsu⟩ | hf
  · rw [← hsu]
    apply h u hu current hcu (hui.trans hud)
  · exfalso
    have hme := mem_filter.1 (mem_of_getLast? hu)
    apply hf u hme.1 hud.symm

theorem Reflects.skip (h : Reflects api emitted)
    (hap : ∀ current, api u.podNamespace u.name = some current → current.uid ≠ u.uid) :
  Reflects api (emitted ++ [u])
  := by
  intro v hv object hob hud
  rw [lastStatus_concat] at hv
  split at hv
  · cases hv
    exact absurd hud (hap object hob)
  · apply h v hv object hob hud

theorem Reflects.write {current : PodObject} (h : Reflects s.api emitted)
    (hud : current.uid = u.uid) :
  Reflects
    (s.setObject u.podNamespace u.name
      (some
        { current with
          resourceVersion := current.resourceVersion + 1
          status := podStatusPayloadToCorev1 u.status })).api
    (emitted ++ [u])
  := by
  intro v hv object hob hoj
  rw [setObject_api] at hob
  rw [lastStatus_concat] at hv
  split at hv
  · cases hv
    rw [if_pos ⟨rfl, rfl⟩] at hob
    cases hob
    rfl
  next hne =>
    split at hob
    · cases hob
      exact absurd (hud.symm.trans hoj) hne
    · apply h v hv object hob hoj

/-- The effect that a worker has in hand. -/
def executing : Task → List Emitted
  | .idle => []
  | .executing e _ => [e]
  | .writing e _ _ => [e]
  | .exited => []

def turn (counts : WorkerCounts) (s : Pipeline) : Nat :=
  if s.closed then counts.horizonWorkers else 0

structure Sequential (counts : WorkerCounts) (s : Pipeline) : Prop where
  exited : s.closed = true → ∀ h < counts.horizonWorkers, (s.tasks h).hasExited = true
  single : ∀ h, h ≠ turn counts s → executing (s.tasks h) = []
  first : ∀ w, w ≠ 0 → s.holding w = none

variable {task : Task} {h : Nat} {e : Emitted} {actions : List Action}

theorem executing_of_hasExited (h : task.hasExited) :
  executing task = []
  := by
  cases task with
  | exited => rfl
  | _ => cases h

theorem executing_of_executes (ht : s.Executes h e) :
  executing (s.tasks h) = [e]
  := by
  obtain ⟨attempt, ht | ⟨v, ht⟩⟩ := ht
  all_goals
    rw [ht]
    rfl

theorem Sequential.turn_of_executing (hs : Sequential counts s) (ht : executing (s.tasks h) ≠ []) :
  h = turn counts s
  := by
  by_contra hne
  apply ht (hs.single h hne)

theorem Sequential.turn_of_receives (hs : Sequential counts s)
    (hco : counts.horizonWorkers ≤ 1) (ht : s.tasks h = .idle)
    (hh : h < counts.horizonWorkers ∨ h = counts.horizonWorkers ∧ s.closed) :
  h = turn counts s
  := by
  unfold turn
  split
  next hcl =>
    rcases hh with hlt | ⟨heq, -⟩
    · have hex := hs.exited hcl h hlt
      rw [ht] at hex
      cases hex
    · apply heq
  · rcases hh with hlt | ⟨-, hcl⟩
    · omega
    · contradiction

theorem Sequential.setTask (hs : Sequential counts s) (hal : (s.tasks h).hasExited = false)
    (htu : h = turn counts s ∨ executing task = []) :
  Sequential counts (s.setTask h task)
  := by
  refine ⟨?_, ?_, hs.first⟩
  · intro hcl i hi
    have hex := hs.exited hcl i hi
    have hne : i ≠ h := by
      rintro rfl
      rw [hal] at hex
      cases hex
    simpa [Pipeline.setTask, update_of_ne hne] using hex
  · intro i hi
    by_cases hsa : i = h
    · subst hsa
      simpa [setTask] using htu.resolve_left hi
    · simpa [Pipeline.setTask, update_of_ne hsa] using hs.single i hi

theorem hasExited_of_executing (h : executing task ≠ []) :
  task.hasExited = false
  := by
  cases task with
  | exited => exact absurd rfl h
  | _ => rfl

section

variable (hs : Sequential counts s)
include hs

theorem Sequential.setTask_executing (task : Task) (ht : executing (s.tasks h) ≠ []) :
  Sequential counts (s.setTask h task)
  := hs.setTask (hasExited_of_executing ht) (.inl (hs.turn_of_executing ht))

theorem Sequential.close (hex : ∀ h < counts.horizonWorkers, (s.tasks h).hasExited) :
  Sequential counts { s with closed := true }
  := by
  refine ⟨fun _ => hex, ?_, hs.first⟩
  intro h hne
  rcases lt_or_gt_of_ne hne with hlt | hgt
  · apply executing_of_hasExited (hex h hlt)
  · apply hs.single
    have hle : turn counts s ≤ counts.horizonWorkers := by
      unfold turn
      split
      · rfl
      · apply Nat.zero_le
    apply ne_of_gt (hle.trans_lt hgt)

theorem Sequential.executing_close (hco : counts.horizonWorkers ≤ 1)
    (hex : ∀ h < counts.horizonWorkers, (s.tasks h).hasExited) :
  executing (s.tasks counts.horizonWorkers) = executing (s.tasks (turn counts s))
  := by
  unfold turn
  split
  · rfl
  next hop =>
    rcases Nat.eq_zero_or_pos counts.horizonWorkers with hz | hpo
    · rw [hz]
    · have hl : counts.horizonWorkers ≠ turn counts s := by
        rw [turn, if_neg hop]
        omega
      rw [hs.single _ hl, executing_of_hasExited (hex 0 hpo)]

theorem Sequential.setObject (podNamespace name : String) (object : Option PodObject) :
  Sequential counts (s.setObject podNamespace name object)
  := ⟨hs.exited, hs.single, hs.first⟩

theorem Sequential.step (hef : counts.effectWorkers = 1) (hho : counts.horizonWorkers ≤ 1)
    (hm : Move counts s t) :
  Sequential counts t
  := by
  cases hm with
  | taken w e effects hw hhl hre =>
    refine ⟨hs.exited, hs.single, ?_⟩
    intro w' hw'
    have hne : w' ≠ w := by omega
    simpa [update_of_ne hne] using hs.first w' hw'
  | dispatched w e hhl =>
    obtain ⟨-, -, -, -, hhd, hta, hcl, -⟩ :=
      dispatchEffect_frame { s with holding := update s.holding w none } e
    refine ⟨?_, ?_, ?_⟩
    · rw [hta, hcl]
      apply hs.exited
    · rw [turn, hta, hcl]
      apply hs.single
    · rw [hhd]
      intro w' hw'
      dsimp only
      rw [update_apply]
      split
      · rfl
      · apply hs.first w' hw'
  | received h e inbox hh ht hre =>
    have hnx : Sequential counts { s with inbox := inbox } := ⟨hs.exited, hs.single, hs.first⟩
    apply hnx.setTask
    · simp [ht, Task.hasExited]
    · left
      apply hs.turn_of_receives hho ht hh
  | finished h e attempt ht => exact hs.setTask_executing .idle (by simp [ht, executing])
  | failed h e reason ht =>
    have hnx : Sequential counts (s.drop e reason 0) := ⟨hs.exited, hs.single, hs.first⟩
    apply hnx.setTask_executing
    rw [show executing ((s.drop e reason 0).tasks h) = [e] from executing_of_executes ht]
    simp
  | skipped h e u ht => exact hs.setTask_executing .idle (by simp [executing_of_executes ht])
  | read _ _ _ _ _ ht | retried _ _ _ _ ht =>
    exact hs.setTask_executing _ (by simp [ht, executing])
  | written h e u attempt current ht =>
    apply (hs.setObject _ _ _).setTask_executing
    simp [Pipeline.setObject, ht, executing]
  | exited h hh ht => exact hs.setTask (by simp [ht, Task.hasExited]) (.inr rfl)
  | closed hex => exact hs.close hex
  | _ => exact ⟨hs.exited, hs.single, hs.first⟩

end

/-- The statuses among effects. -/
def statusesOf (effects : List Emitted) : List UpdateStatus :=
  effects.filterMap (·.effect.status)

@[simp]
theorem statusesOf_nil :
  statusesOf [] = []
  := rfl

variable {l : List Emitted}

@[simp]
theorem statusesOf_append :
  statusesOf (l ++ m) = statusesOf l ++ statusesOf m
  := filterMap_append ..

@[simp]
theorem statusesOf_cons :
  statusesOf (e :: l) = e.effect.status.toList ++ statusesOf l
  := by
  unfold statusesOf
  rw [filterMap_cons]
  split
  next hsu =>
    simp [hsu]
  next u hsu =>
    simp [hsu]

def queued (s : Pipeline) : List Emitted :=
  s.inbox.items ++ (s.holding 0).toList ++ s.effects.items ++ s.pushing

def inflight (counts : WorkerCounts) (s : Pipeline) : List Emitted :=
  executing (s.tasks (turn counts s)) ++ queued s

def Ordered (counts : WorkerCounts) (s : Pipeline) : Prop :=
  s.dropped = [] → ∃ done, statuses s.log = done ++ statusesOf (inflight counts s)
    ∧ Reflects s.api done

theorem Sequential.inflight_eq (hs : Sequential counts s) (ht : executing (s.tasks h) = [e]) :
  inflight counts s = e :: queued s
  := by
  obtain rfl := hs.turn_of_executing (h := h) (by simp [ht])
  rw [inflight, ht, singleton_append]

theorem inflight_setTask_turn {s : Pipeline} :
  inflight counts (s.setTask (turn counts s) task) = executing task ++ queued s
  := by
  have hsl : executing ((s.setTask (turn counts s) task).tasks (turn counts s))
      = executing task := by
    simp [setTask]
  rw [← hsl]
  rfl

theorem Sequential.inflight_setTask (hs : Sequential counts s) (ht : executing (s.tasks h) ≠ []) :
  inflight counts (s.setTask h task) = executing task ++ queued s
  := by
  obtain rfl := hs.turn_of_executing ht
  apply inflight_setTask_turn

section

variable (ho : Ordered counts s)
include ho

theorem Ordered.keep (hd : t.dropped = [] → s.dropped = []) (hlg : t.log = s.log)
    (hin : statusesOf (inflight counts t) = statusesOf (inflight counts s)) (hap : t.api = s.api) :
  Ordered counts t
  := by
  intro hn
  rw [hlg, hin, hap]
  apply ho (hd hn)

theorem Ordered.setTask (hs : Sequential counts s) (ht : executing (s.tasks h) = [e])
    (hnx : statusesOf (executing task) = statusesOf [e]) :
  Ordered counts (s.setTask h task)
  := by
  refine ho.keep id rfl ?_ rfl
  rw [hs.inflight_setTask (by simp [ht]), hs.inflight_eq ht]
  simp [hnx]

theorem Ordered.done (hd : t.dropped = s.dropped) (hlg : t.log = s.log)
    (hin : statusesOf (inflight counts s) = u :: statusesOf (inflight counts t))
    (hap : ∀ done, Reflects s.api done → Reflects t.api (done ++ [u])) :
  Ordered counts t
  := by
  intro hn
  obtain ⟨done, hst, hr⟩ := ho (hd ▸ hn)
  use done ++ [u]
  constructor
  · rw [hlg, hst, hin]
    simp
  · apply hap done hr

theorem Ordered.setObject {change : Option PodObject}
    (hch : ∀ object, change = some object →
      (∃ current, s.api podNamespace name = some current ∧ current.uid = object.uid
        ∧ current.status = object.status)
      ∨ ∀ u ∈ statuses s.log, u.uid ≠ object.uid) :
  Ordered counts (s.setObject podNamespace name change)
  := by
  intro hn
  obtain ⟨done, hst, hr⟩ := ho hn
  use done, hst
  apply hr.of_api
  intro podNamespace' name' object hob
  rw [setObject_api] at hob
  split at hob
  next hsa =>
    obtain ⟨rfl, rfl⟩ := hsa
    apply (hch object hob).imp_right
    intro hf u hu
    apply hf
    rw [hst]
    apply mem_append_left _ hu
  · left
    use object, hob

end

theorem Ordered.dropped (h : t.dropped ≠ []) :
  Ordered counts t
  := by
  intro hn
  contradiction

variable {effects : List Effect}

theorem statusesOf_mapIdx (place : Nat → Nat) :
  statusesOf (effects.mapIdx fun i e => ⟨place i, e⟩) = effects.filterMap status
  := by
  induction effects generalizing place with
  | nil => rfl
  | cons e effects ih =>
    rw [mapIdx_cons, statusesOf_cons, ih fun i => place (i + 1), filterMap_cons]
    cases e.status with
    | _ => rfl

theorem statuses_processed (log : List (Fact ⊕ Effect)) :
  statuses (log ++ .inl fact :: effects.map .inr)
    = statuses log ++ effects.filterMap status
  := by
  rw [statuses, filterMap_append, filterMap_cons_none rfl, filterMap_map]
  rfl

theorem Ordered.processed (ho : Ordered counts s) (hp : s.pushing = [])
    (states : States) (fact : Fact) (effects : List Effect) :
  Ordered counts
    { s with
      states := states
      pushing := effects.mapIdx fun i e => ⟨s.log.length + 1 + i, e⟩
      log := s.log ++ .inl fact :: effects.map .inr }
  := by
  intro hn
  obtain ⟨done, hst, hr⟩ := ho hn
  use done
  refine ⟨?_, hr⟩
  rw [statuses_processed, hst]
  simp [inflight, queued, turn, hp, statusesOf_mapIdx]

theorem status_eq_none {e : Effect} (h : ∀ u, e ≠ .updateStatus u) :
  e.status = none
  := by
  cases e with
  | updateStatus u => exact absurd rfl (h u)
  | _ => rfl

theorem Ordered.dispatched (ho : Ordered counts s) (hhl : s.holding 0 = some e) :
  Ordered counts ({ s with holding := update s.holding 0 none }.dispatchEffect e)
  := by
  rcases dispatchEffect_cases { s with holding := update s.holding 0 none } e with
    ⟨heq, hlo, -⟩ | ⟨inbox, hse, heq⟩ | ⟨reason, heq, -⟩
  · rw [heq]
    refine ho.keep id rfl ?_ rfl
    simp [inflight, queued, turn, hhl, hlo]
  · obtain ⟨-, hit⟩ := Channel.send_eq_some.1 hse
    rw [heq]
    refine ho.keep id rfl ?_ rfl
    simp [inflight, queued, turn, hhl, hit]
  · rw [heq]
    apply Ordered.dropped
    simp [Pipeline.drop]

theorem Ordered.step (ho : Ordered counts s) (hs : Sequential counts s)
    (hef : counts.effectWorkers = 1) (hho : counts.horizonWorkers ≤ 1) (hm : Move counts s t) :
  Ordered counts t
  := by
  cases hm with
  | processed fact clock hp => exact ho.processed hp _ fact _
  | pushed e rest effects hp hse =>
    obtain ⟨-, hit⟩ := Channel.send_eq_some.1 hse
    refine ho.keep id rfl ?_ rfl
    simp [inflight, queued, turn, hp, hit]
  | refused => exact Ordered.dropped (by simp [Pipeline.drop])
  | taken w e effects hw hhl hre =>
    have hit := Channel.receive_eq_some.1 hre
    obtain rfl : w = 0 := by omega
    refine ho.keep id rfl ?_ rfl
    simp [inflight, queued, turn, hhl, hit]
  | dispatched w e hhl =>
    obtain rfl : w = 0 := by
      by_contra hne
      rw [hs.first w hne] at hhl
      cases hhl
    apply ho.dispatched hhl
  | received h e inbox hh ht hre =>
    obtain rfl := hs.turn_of_receives hho ht hh
    have hit := Channel.receive_eq_some.1 hre
    refine ho.keep id rfl ?_ rfl
    have hnx : inflight counts
        ({ s with inbox := inbox }.setTask (turn counts s) (.executing e 0))
          = [e] ++ queued { s with inbox := inbox } := inflight_setTask_turn
    rw [hnx, inflight, ht]
    simp [queued, hit, executing]
  | finished h e attempt ht hec =>
    apply ho.setTask hs (e := e)
    · simp [ht, executing]
    · simp [executing, status_eq_none hec]
  | failed => exact Ordered.dropped (by simp [Pipeline.drop, Pipeline.setTask])
  | skipped h e u ht hec hap =>
    have hee := executing_of_executes ht
    refine ho.done (u := u) rfl rfl ?_ fun done hdo => hdo.skip hap
    rw [hs.inflight_setTask (by simp [hee]), hs.inflight_eq hee]
    simp [hec, status, executing]
  | read _ _ _ _ _ ht | retried _ _ _ _ ht =>
    refine ho.setTask hs ?_ rfl
    simp [ht, executing]
  | written h e u attempt current ht hec hap hud =>
    have hee : executing (s.tasks h) = [e] := by simp [ht, executing]
    refine ho.done (u := u) rfl rfl ?_ fun done hdo => hdo.write hud
    rw [hs.inflight_eq hee, (hs.setObject _ _ _).inflight_setTask]
    · simp [hec, Effect.status, executing, queued, Pipeline.setObject]
    · simp [Pipeline.setObject, hee]
  | modified podNamespace name current hap =>
    apply ho.setObject
    rintro object ⟨⟩
    left
    use current, hap
  | deleted podNamespace name =>
    apply ho.setObject
    rintro object ⟨⟩
  | created podNamespace name object hf =>
    apply ho.setObject
    rintro object ⟨⟩
    right
    apply hf
  | cancelled => exact ho
  | exited h hh ht =>
    refine ho.keep id rfl ?_ rfl
    have hsa : executing ((s.setTask h .exited).tasks (turn counts s))
        = executing (s.tasks (turn counts s)) := by
      by_cases htu : turn counts s = h
      · simp [Pipeline.setTask, htu, ht, executing]
      · simp [Pipeline.setTask, htu]
    unfold inflight
    rw [← hsa]
    rfl
  | closed hex =>
    refine ho.keep id rfl ?_ rfl
    rw [inflight, inflight, ← hs.executing_close hho hex]
    rfl

theorem initial_sequential {states : States} (api : String → String → Option PodObject) :
  Sequential counts (initial states api) ∧ Ordered counts (initial states api)
  := by
  constructor
  · refine ⟨?_, fun _ _ => rfl, fun _ _ => rfl⟩
    intro hcl
    cases hcl
  · intro _
    use [], rfl
    intro u hu
    cases hu

theorem reflects_of_sequential (hef : counts.effectWorkers = 1)
    (hho : counts.horizonWorkers ≤ 1) {states : States}
    (hru : (pipeline counts).run (initial states api) actions = some s) (hc : Complete s)
    (hd : s.dropped = []) :
  Reflects s.api (statuses s.log)
  := by
  have hiv : Sequential counts s ∧ Ordered counts s := by
    apply (pipeline counts).run_induction (P := fun s => Sequential counts s ∧ Ordered counts s)
      (initial_sequential api) _ ((pipeline counts).meets_true _ actions) hru
    intro u a v ⟨hs, ho⟩ _ hse
    have hm := step_move hse
    exact ⟨hs.step hef hho hm, ho.step hs hef hho hm⟩
  obtain ⟨done, hst, hr⟩ := hiv.2 hd
  have hid : executing (s.tasks (turn counts s)) = [] := by
    rcases hc.tasks_eq (turn counts s) with ht | ht
    all_goals
      rw [ht]
      rfl
  have hn : inflight counts s = [] := by
    simp [inflight, queued, hid, hc.pushing_eq, hc.effects_eq, hc.holding_eq, hc.inbox_eq]
  rw [hst, hn]
  simpa using hr

/-- The API server with one pending pod. -/
def webObject : String → String → Option PodObject := fun podNamespace name =>
  if podNamespace = "default" ∧ name = "web" then
    some ⟨"u", 0, podStatusPayloadToCorev1 ⟨.pending, [], [], "", ""⟩⟩
  else none

def Overtakes (counts : WorkerCounts) (actions : List Action) : Prop :=
  ∃ s, (pipeline counts).run (initial (onePod webPod) webObject) actions = some s
    ∧ Complete s ∧ s.dropped = [] ∧ ¬ Reflects s.api (statuses s.log)

def Within (counts : WorkerCounts) : Action → Prop
  | .receive h => h < counts.horizonWorkers
  | .close => False
  | _ => True

variable {counts' : WorkerCounts}

theorem step_mono (hef : counts.effectWorkers ≤ counts'.effectWorkers)
    (hho : counts.horizonWorkers = counts'.horizonWorkers ∨ counts.horizonWorkers ≤
      counts'.horizonWorkers ∧ Within counts a) (h : (pipeline counts).step s a = some t) :
  (pipeline counts').step s a = some t
  := by
  cases a with
  | take w =>
    change s.take counts w = some t at h
    change s.take counts' w = some t
    unfold Pipeline.take at h ⊢
    split_ifs at h
    rw [if_pos (by omega)]
    apply h
  | receive i =>
    change s.receive counts i = some t at h
    change s.receive counts' i = some t
    unfold receive at h ⊢
    rcases hho with hsa | ⟨hle, hlt⟩
    · rwa [hsa] at h
    · have hi : i < counts.horizonWorkers := hlt
      rw [if_pos (.inl hi)] at h
      rw [if_pos (.inl (hi.trans_le hle))]
      apply h
  | exit i =>
    change s.exit counts i = some t at h
    change s.exit counts' i = some t
    unfold exit at h ⊢
    split_ifs at h with hei
    rw [if_pos ⟨hei.1, by omega⟩]
    apply h
  | close =>
    change s.close counts = some t at h
    change s.close counts' = some t
    unfold close at h ⊢
    rcases hho with hsa | ⟨-, hfa⟩
    · rwa [hsa] at h
    · cases hfa
  | _ => exact h

theorem Overtakes.mono (h : Overtakes counts actions)
    (hef : counts.effectWorkers ≤ counts'.effectWorkers)
    (hho : counts.horizonWorkers = counts'.horizonWorkers ∨ counts.horizonWorkers ≤
      counts'.horizonWorkers ∧ ∀ a ∈ actions, Within counts a) :
  Overtakes counts' actions
  := by
  obtain ⟨s, hru, hrs⟩ := h
  use s
  refine ⟨?_, hrs⟩
  apply (pipeline counts).run_mono _ hru
  intro a ha u v hs
  apply step_mono hef _ hs
  apply hho.imp_right
  exact fun ⟨hle, hwi⟩ => ⟨hle, hwi a ha⟩

def polls : List Action :=
  [.fact (poll .running) {}, .push, .push, .fact (poll .creating) {}, .push, .push]

def dispatchSwapped : List Action :=
  [.take 0, .take 1, .dispatch 1, .take 1, .dispatch 1, .dispatch 0, .take 0, .dispatch 0]

def dispatchInOrder : List Action :=
  [.take 0, .dispatch 0, .take 0, .dispatch 0, .take 0, .dispatch 0, .take 0, .dispatch 0]

def writeInOrder : List Action :=
  [.receive 0, .get 0 true, .put 0 true, .receive 0, .get 0 true, .put 0 true]

def writeSwapped : List Action :=
  [.receive 0, .receive 1, .get 1 true, .put 1 true, .get 0 true, .put 0 true]

theorem not_reflects (hl : lastStatus emitted "u" = some u) (hud : u.uid = "u")
    (hob : api u.podNamespace u.name = some object) (hoj : object.uid = "u")
    (hph : object.status.phase ≠ (podStatusPayloadToCorev1 u.status).phase) :
  ¬ Reflects api emitted
  := by
  intro h
  apply hph
  rw [h u (hud ▸ hl) object hob (hoj.trans hud.symm)]

theorem overtakes_of_run
    (hru : (pipeline counts).run (initial (onePod webPod) webObject) actions = some s)
    (hq : s.pushing = [] ∧ s.effects.items = [] ∧ s.inbox.items = [])
    (hid : ∀ i, s.holding i = none ∧ s.tasks i = .idle) (hd : s.dropped = [])
    (hov : ¬ Reflects s.api (statuses s.log)) :
  Overtakes counts actions
  := by
  obtain ⟨hp, hef, hib⟩ := hq
  refine ⟨s, hru, ⟨hp, hef, fun w => (hid w).1, hib, fun h => ?_⟩, hd, hov⟩
  left
  apply (hid h).2

theorem overtakes_effectWorkers :
  Overtakes ⟨2, 1⟩ (polls ++ dispatchSwapped ++ writeInOrder)
  := by
  apply overtakes_of_run rfl ⟨rfl, rfl, rfl⟩ _ rfl (not_reflects rfl rfl rfl rfl (by decide))
  intro i
  match i with
  | 0 | 1 | i + 2 => exact ⟨rfl, rfl⟩

theorem overtakes_drained :
  Overtakes ⟨2, 0⟩ (polls ++ dispatchSwapped ++ [.cancel, .close] ++ writeInOrder)
  := by
  apply overtakes_of_run rfl ⟨rfl, rfl, rfl⟩ _ rfl (not_reflects rfl rfl rfl rfl (by decide))
  intro i
  match i with
  | 0 | 1 | i + 2 => exact ⟨rfl, rfl⟩

theorem overtakes_horizonWorkers :
  Overtakes ⟨1, 2⟩ (polls ++ dispatchInOrder ++ writeSwapped)
  := by
  apply overtakes_of_run rfl ⟨rfl, rfl, rfl⟩ _ rfl (not_reflects rfl rfl rfl rfl (by decide))
  intro i
  match i with
  | 0 | 1 | i + 2 => exact ⟨rfl, rfl⟩

theorem effectWorkers_pos (counts : WorkerCounts) :
  0 < counts.effectWorkers
  := by
  unfold WorkerCounts.effectWorkers
  split
  · decide
  next hne =>
    apply Nat.pos_of_ne_zero
    intro hz
    apply hne
    apply UInt8.toNat_inj.1 hz

theorem exists_overtakes (h : 2 ≤ counts.effectWorkers ∨ 2 ≤ counts.horizonWorkers) :
  ∃ actions, Overtakes counts actions
  := by
  by_cases hho : 2 ≤ counts.horizonWorkers
  · use polls ++ dispatchInOrder ++ writeSwapped
    apply overtakes_horizonWorkers.mono (effectWorkers_pos counts) (.inr ⟨hho, _⟩)
    simp [polls, dispatchInOrder, writeSwapped, Within, WorkerCounts.horizonWorkers]
  · have hef := h.resolve_right hho
    rcases Nat.eq_zero_or_pos counts.horizonWorkers with hz | hpo
    · use polls ++ dispatchSwapped ++ [.cancel, .close] ++ writeInOrder
      apply overtakes_drained.mono hef (.inl hz.symm)
    · use polls ++ dispatchSwapped ++ writeInOrder
      apply overtakes_effectWorkers.mono hef (.inr ⟨hpo, _⟩)
      simp [polls, dispatchSwapped, writeInOrder, Within, WorkerCounts.horizonWorkers]

/-- Once every effect was executed the pod objects hold the last statuses emitted, if and only if
there is one effect worker and at most one worker of Horizon. -/
theorem statusOrdered_iff_sequential (counts : WorkerCounts) :
  (∀ states api actions s, (pipeline counts).run (initial states api) actions = some s →
      Complete s → s.dropped = [] → Reflects s.api (statuses s.log))
    ↔ counts.effectWorkers = 1 ∧ counts.horizonWorkers ≤ 1
  := by
  constructor
  · intro h
    have hpo := effectWorkers_pos counts
    by_contra hco
    obtain ⟨actions, s, hru, hc, hd, hov⟩ :
        ∃ actions, Overtakes counts actions := by
      apply exists_overtakes
      omega
    apply hov
    apply h (onePod webPod) webObject actions s hru hc hd
  · rintro ⟨hef, hho⟩ states api actions s hru hc hd
    apply reflects_of_sequential hef hho hru hc hd

theorem status_overtaken :
  Overtakes ⟨0, 8⟩ (polls ++ dispatchInOrder ++ writeSwapped)
  := by
  apply overtakes_horizonWorkers.mono (by decide) (.inr ⟨by decide, _⟩)
  simp [polls, dispatchInOrder, writeSwapped, Within, WorkerCounts.horizonWorkers]

end Periapsis.Horizon
