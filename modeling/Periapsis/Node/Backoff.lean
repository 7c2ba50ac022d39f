import Periapsis.Foci.Restart
import Periapsis.Foci.Representation
import Periapsis.Node.Records

/-!
# The delays before restarts

The watcher takes the delay from the store, and the reducer sends it with the restart it orders.
-/

namespace Periapsis.Node

open Corev1 Periapsis.Types Transition List Option Function

def nextDelay (d : Duration) : Duration :=
  Foci.min (d * 2) Foci.maxBackoff

theorem capped_eq_nextDelay (d : Duration) :
  (if 5 * minute < d * 2 then 5 * minute else d * 2) = nextDelay d
  := by
  have hm : Foci.maxBackoff = 5 * minute := rfl
  unfold nextDelay Foci.min
  rw [hm]
  simp only [Int64.lt_iff_toInt_lt]
  split
  · rw [if_neg (by omega)]
  · split
    · rfl
    · apply Int64.toInt_inj.1
      omega

section Store

open PodStore

variable {s : PodStore} {uid name : String} {d : Duration}

def bumped (s : PodStore) (uid name : String) : StoreOp → Option Duration
  | .bumpBackoff uid' name' =>
    if uid' = uid ∧ name' = name then some (s.bumpBackoff uid name).2.2 else none
  | _ => none

theorem bumped_eq_none {uid : String} (h : op ≠ .bumpBackoff uid name) :
  bumped s uid name op = none
  := by
  cases op with
  | bumpBackoff uid' name' =>
    rw [bumped, if_neg]
    rintro ⟨rfl, rfl⟩
    exact h rfl
  | _ => rfl

def restartDelays (uid name : String) : Mealy PodStore StoreOp Duration where
  step s op := (s.apply op, (bumped s uid name op).toList)

def Delay (uid name : String) (s : PodStore) (d : Duration) : Prop :=
  ∃ rs, s.restartState uid name = some rs ∧ rs.backoff = d

theorem bumpBackoff_delay (hs : Delay uid name s d) :
  (s.bumpBackoff uid name).2.2 = d ∧ Delay uid name (s.bumpBackoff uid name).1 (nextDelay d)
  := by
  obtain ⟨rs, hrs, rfl⟩ := hs
  unfold bumpBackoff
  rw [hrs]
  dsimp only
  use rfl
  obtain ⟨ps, hps, hr⟩ := bind_eq_some_iff.1 hrs
  rw [capped_eq_nextDelay]
  refine ⟨{ rs with count := rs.count + 1, backoff := nextDelay rs.backoff }, ?_, rfl⟩
  rw [restartState, PodStore.updateRestartState, lookup_update, if_pos rfl, hps]
  simp [hr]

theorem initRestarts_backoff
    {containers : List ContainerInitPayload} (h : name ∈ containers.map ContainerInitPayload.name)
    (now : Nat → Time) :
  ∃ rs, initRestarts containers now name = some rs ∧ rs.backoff = restartBackoffInit
  := by
  induction containers using reverseRecOn with
  | nil => simp at h
  | append_singleton containers c ih =>
    have hls : initRestarts (containers ++ [c]) now
        = update (initRestarts containers now) c.name
            (some { backoff := restartBackoffInit, lastStarted := now containers.length }) := by
      simp [initRestarts, zipIdx_append]
    rw [hls]
    by_cases hc : c.name = name
    · rw [hc, update_self]
      exact ⟨_, rfl, rfl⟩
    · rw [update_of_ne (Ne.symm hc)]
      apply ih
      simpa [Ne.symm hc] using h

theorem initRestartState_delay
    {pod : ApiPod} (hp : s.pods.lookup pod.uid ≠ none) (hna : name ∈ pod.containerNames)
    (started probed : Nat → Time) :
  Delay pod.uid name (s.initRestartState pod started probed) restartBackoffInit
  := by
  obtain ⟨ps, hps⟩ := ne_none_iff_exists'.1 hp
  unfold Delay restartState initRestartState initRestartStateFrom
  rw [lookup_update, if_pos rfl, hps]
  apply initRestarts_backoff
  simpa [Pod.containerNames, comp_def] using hna

theorem Delay.apply (hs : Delay uid name s d) {op : StoreOp} (hop : ¬ op.Resets uid name)
    (hbu : op ≠ .bumpBackoff uid name) :
  Delay uid name (s.apply op) d
  := by
  obtain ⟨rs, hrs, rfl⟩ := hs
  cases s.apply_records op uid with
  | @changed f hr hb =>
    refine ⟨f name rs, ?_, hb name hop hbu rs⟩
    rw [hr, hrs, map_some]
  | replaced hre | begun hre => exact absurd (hre name) hop
  | probed _ hr =>
    use rs
    rw [hr]
    exact ⟨hrs, rfl⟩

theorem restartDelays_iterates (s : PodStore) (op : StoreOp) (hop : ¬ op.Resets uid name) :
  (restartDelays uid name).Iterates (Delay uid name) id nextDelay id s op
  := by
  intro d hs
  by_cases hbu : op = .bumpBackoff uid name
  · right
    subst hbu
    obtain ⟨hde, hne⟩ := bumpBackoff_delay hs
    refine ⟨?_, hne⟩
    simp [restartDelays, bumped, hde]
  · left
    refine ⟨?_, hs.apply hop hbu⟩
    simp [restartDelays, bumped_eq_none hbu]

end Store

section Reducer

open Foci

variable {state : Foci.PodState} {name : String} {d : Duration}

def FactResets (name : String) (input : Fact × Clock) : Prop :=
  match input with
  | (.backoffReset f, _) => f.containerName = name
  | (.containerState f, clock) =>
    f.container = name ∧ f.state = .running ∧ clock.started ≠ 0
      ∧ Foci.restartBackoffReset.toInt < clock.since - clock.started
  | (.podEvict _, _) => True
  | (fact, _) => Drops name fact

def LastDelay (name : String) (state : Foci.PodState) (d : Duration) : Prop :=
  ∃ cv, state.lookup name = some cv ∧ cv.backoff = d

def delaysOf (name : String) (effects : List Effect) : List Duration :=
  (restartsOf name effects).map RestartContainer.backoff

variable {fact : Fact}

theorem made_backoff {touch : Touch} (h : touch.Made state clock cv fact)
    (hf : ¬ FactResets cv.name (fact, clock)) (hrt : touch.effects.filterMap Effect.restart = []) :
  touch.container.backoff = cv.backoff
  := by
  cases h with
  | started hrp _ hk _ =>
    apply hk
    intro hst
    cases fact with
    | containerState f => exact hf ⟨hrp.2, hrp.1, hst⟩
    | _ => exact hst
  | restarted => simp [restartEffect, Effect.restart] at hrt
  | unmoved _ hc _ => exact hc.backoff_eq
  | reset f hna heq =>
    subst heq
    exact absurd hna hf

theorem mem_of_not_factResets {pod : Pod} (hp : fact.pod = some pod)
    (hf : ¬ FactResets name (fact, clock)) :
  name ∈ pod.containerNames
  := by
  by_contra hna
  apply hf
  cases fact with
  | spec | podAdmit => exact ⟨pod, hp, hna⟩
  | _ => cases hp

theorem reducer_iterates (state : Foci.PodState) (input : Fact × Clock)
    (hip : ¬ FactResets name input) :
  reducer.Iterates (LastDelay name) (delaysOf name) nextDelay nextDelay state input
  := by
  rintro d ⟨cv, hcv, rfl⟩
  obtain ⟨fact, clock⟩ := input
  have hse := reduce_step state fact clock
  change delaysOf name (reduce state fact clock).2 = []
      ∧ LastDelay name (reduce state fact clock).1 cv.backoff
    ∨ delaysOf name (reduce state fact clock).2 = [nextDelay cv.backoff]
      ∧ LastDelay name (reduce state fact clock).1 (nextDelay cv.backoff)
  generalize reduce state fact clock = result at hse ⊢
  cases hse with
  | ignored => exact .inl ⟨rfl, cv, hcv, rfl⟩
  | @touched idx touch ht =>
    have hla := touched_lawful ht
    have hl : (conclude state clock idx touch).1.lookup name = _ := lookup_conclude ht
    by_cases hna : name = (state.container idx).name
    · rw [if_pos hna] at hl
      subst hna
      rw [lookup_of_touched ht] at hcv
      cases hcv
      rcases hla.restart with ⟨hno, -⟩ | ⟨hon, -, hb, -⟩
      · left
        refine ⟨?_, _, hl, ?_⟩
        · simp [delaysOf, restartsOf, hno]
        · apply made_backoff (touched_made ht) hip hno
      · right
        refine ⟨?_, _, hl, hb⟩
        simp [delaysOf, restartsOf, hon, restartEffect, Effect.restart, hb, nextDelay]
    · rw [if_neg hna] at hl
      left
      refine ⟨?_, cv, hl.trans hcv, rfl⟩
      have hno := hla.restartsOf_ne (Ne.symm hna)
      rw [restartsOf] at hno
      simp [delaysOf, restartsOf, hno]
  | @synced pod hp =>
    left
    obtain ⟨image, hl⟩ := lookup_syncSpec hcv (mem_of_not_factResets hp hip) clock
    refine ⟨?_, _, hl, rfl⟩
    simp [delaysOf, restartsOf]
  | evicted hev =>
    cases fact with
    | podEvict f => exact absurd trivial hip
    | _ => cases hev

end Reducer

theorem iterate_nextDelay_eq_iff (n : Nat) :
  nextDelay^[n] restartBackoffInit = nextDelay^[n + 1] restartBackoffInit ↔ 5 ≤ n
  := by
  have hli : nextDelay^[5] restartBackoffInit = Foci.maxBackoff := by decide
  have hfi : nextDelay Foci.maxBackoff = Foci.maxBackoff := by decide
  constructor
  · intro h
    by_contra hlt
    have hca : n = 0 ∨ n = 1 ∨ n = 2 ∨ n = 3 ∨ n = 4 := by omega
    rcases hca with rfl | rfl | rfl | rfl | rfl
    all_goals exact absurd h (by decide)
  · intro h
    obtain ⟨k, rfl⟩ := Nat.exists_eq_add_of_le' h
    rw [iterate_add_apply, hli, iterate_fixed hfi, add_right_comm,
      iterate_add_apply, hli, iterate_fixed hfi]

/-- The store and the reducer delay the `n`-th restart of a new container alike exactly when `n` is
at least 6. -/
theorem delays_agree_iff (store : PodStore) (pod : ApiPod) {name : String}
    (hpod : store.pods.lookup pod.uid ≠ none) (hname : name ∈ pod.containerNames)
    (started probed : Nat → Time) {ops : List StoreOp} (hops : ∀ op ∈ ops, ¬ op.Resets pod.uid name)
    {state : Foci.PodState} {cs : Foci.ContainerSpec} {now : Time}
    (hfresh : state.lookup name = some (Foci.newContainerState cs now))
    {inputs : List (Fact × Foci.Clock)} (hinputs : ∀ i ∈ inputs, ¬ FactResets name i)
    (n : Nat) (hn : 1 ≤ n) {d : Duration} {e : RestartContainer}
    (hd : ((restartDelays pod.uid name).outputs (store.initRestartState pod started probed)
      ops)[n - 1]? = some d)
    (he : (Foci.restartsOf name (Foci.reducer.outputs state inputs))[n - 1]? = some e) :
  d = e.backoff ↔ 6 ≤ n
  := by
  have hle : d = nextDelay^[n - 1] restartBackoffInit :=
    (restartDelays pod.uid name).observed_eq_iterate rfl (fun _ _ => rfl)
      (fun s op => restartDelays_iterates s op)
      ((restartDelays pod.uid name).meets_of_forall _ hops)
      (initRestartState_delay hpod hname started probed) hd
  have hrd : e.backoff = nextDelay (nextDelay^[n - 1] restartBackoffInit) := by
    apply Foci.reducer.observed_eq_iterate rfl _ reducer_iterates
      (Foci.reducer.meets_of_forall _ hinputs) ⟨_, hfresh, rfl⟩
    · rw [delaysOf, getElem?_map, he]
      rfl
    · intro effects effects'
      simp [delaysOf]
  rw [hle, hrd, ← iterate_succ_apply' nextDelay, iterate_nextDelay_eq_iff]
  omega

def webPod : ApiPod :=
  { spec := ⟨.always, [{ name := "a" }]⟩, uid := "u", podNamespace := "default", name := "web" }

def webStore : PodStore :=
  (newPodStore.registerHydrated "u" webPod "").initRestartState webPod (fun _ => 0) fun _ => 0

def webState : Foci.PodState :=
  Foci.newPodState "u" "default" "web" "" webPod.toPod {}

def crash : List (Fact × Foci.Clock) :=
  [(.containerState ⟨"u", "a", .running, 0⟩, {}), (.containerState ⟨"u", "a", .failed, 1⟩, {})]

theorem delays_agree_sixth :
  ∃ d e, ((restartDelays "u" "a").outputs webStore
        (replicate 6 (.bumpBackoff "u" "a")))[6 - 1]? = some d
    ∧ (Foci.restartsOf "a"
        (Foci.reducer.outputs webState (replicate 6 crash).flatten))[6 - 1]? = some e
    ∧ d = e.backoff
  := by
  have ho : ∀ op ∈ replicate 6 (StoreOp.bumpBackoff "u" "a"), ¬ op.Resets "u" "a" := by
    intro op hop
    rw [eq_of_mem_replicate hop]
    exact id
  have hin : ∀ i ∈ (replicate 6 crash).flatten, ¬ FactResets "a" i := by
    intro i hi
    obtain ⟨is, his, hi⟩ := mem_flatten.mp hi
    rw [eq_of_mem_replicate his, crash, mem_pair] at hi
    rcases hi with rfl | rfl
    all_goals simp [FactResets]
  have hd : ((restartDelays "u" "a").outputs webStore
      (replicate 6 (.bumpBackoff "u" "a")))[6 - 1]? = some (5 * minute) := by decide
  have he : (Foci.restartsOf "a"
      (Foci.reducer.outputs webState (replicate 6 crash).flatten))[6 - 1]?
        = some ⟨"u", "default", "web", "a", 6, 5 * minute⟩ := by decide
  refine ⟨_, _, hd, he, ?_⟩
  exact (delays_agree_iff (newPodStore.registerHydrated "u" webPod "") webPod (by decide)
    (by decide) _ _ ho rfl hin 6 (by decide) hd he).mpr (by decide)

theorem delays_differ_first :
  ∃ d e, ((restartDelays "u" "a").outputs webStore [.bumpBackoff "u" "a"])[0]? = some d
    ∧ (Foci.restartsOf "a" (Foci.reducer.outputs webState crash))[0]? = some e
    ∧ d = 10 * second ∧ e.backoff = 20 * second
  := by
  exact ⟨_, _, rfl, rfl, by decide, by decide⟩

end Periapsis.Node
