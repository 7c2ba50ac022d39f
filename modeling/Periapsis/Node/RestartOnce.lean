import Periapsis.Node.Backoff
import Periapsis.Node.WatcherStep

/-!
# One restart at a time

The mark of a container is taken before its restart is counted, and given back by the goroutine that
was launched.
-/

namespace Periapsis.Node

open Transition List Option Function PodStore Thread

namespace Watcher

variable {w w' : Watcher} {c : WatcherCall} {r : CallReadings} {result : Watcher × List Thread}

theorem CallStep.exclusive (h : CallStep w c r result)
    (hw : Exclusive holds w.restarting w.threads) (hc : w.threads[i]? = some (.call c)) :
  Exclusive holds result.1.restarting (splice w.threads i result.2)
  := by
  have hh (point : CallPoint) (hp : c.point = point) :
      holds (.call c) = holds (.call (c.next point)) := by
    rw [← hp]
    rfl
  cases h with
  | notDue hp | readiness hp | marked hp | startupDue hp | livenessDue hp | readinessDue hp
  | livenessFailed hp | resetProbeState hp | notCounted hp | counted hp | launch hp =>
    apply hw.splice hc
    rw [hh _ hp]
    rfl
  | startup hp hts =>
    apply hw.splice hc
    rw [hh _ hp, hts]
    split
    all_goals rfl
  | livenessPassed hp _ hts =>
    apply hw.splice hc
    rw [hh _ hp]
    rcases hts with rfl | ⟨probe, -, rfl⟩
    all_goals rfl
  | maybeRestart hp hts =>
    apply hw.splice hc
    rw [hh _ hp]
    rcases hts with rfl | rfl
    all_goals rfl
  | acquire hp hfr => exact hw.acquire hc (hh _ hp) rfl hfr
  | release hp => exact hw.release hc (hh _ hp) rfl

theorem RunStep.exclusive {run : RestartRun} {now : Time} {ok : Bool}
    (h : RunStep w run now ok result) (hw : Exclusive holds w.restarting w.threads)
    (hru : w.threads[i]? = some (.restart run)) :
  Exclusive holds result.1.restarting (splice w.threads i result.2)
  := by
  cases h with
  | released => exact hw.release hru rfl rfl
  | completed | failed => exact hw.splice hru rfl

theorem WatcherStep.exclusive (h : WatcherStep w a w')
    (hw : Exclusive holds w.restarting w.threads) :
  Exclusive holds w'.restarting w'.threads
  := by
  cases h with
  | pollBegin | quiet | store => exact hw
  | running | stable => exact hw.append rfl
  | fanOut _ _ _ hth =>
    rcases hth with rfl | rfl
    · exact hw
    · exact hw.append rfl
  | ended _ _ _ hth =>
    rcases hth with rfl | ⟨-, rfl⟩
    · exact hw
    · exact hw.append rfl
  | call hc hr =>
    have hex := hr.exclusive hw hc
    rw [← hr.threads_eq] at hex
    exact hex
  | restart hru hr =>
    have hex := hr.exclusive hw hru
    rw [← hr.threads_eq] at hex
    exact hex

theorem exclusive_run {store : PodStore} (hru : watcher.run (newWatcher store) as = some w) :
  Exclusive holds w.restarting w.threads
  := by
  apply watcher.run_induction
    (P := fun w : Watcher => Exclusive holds w.restarting w.threads)
    (C := fun _ _ => True) Exclusive.nil _ (watcher.meets_true _ _) hru
  intro u a v hu _ hv
  apply (step_step hv).exclusive hu

end Watcher

/-- What is kept of the restarts of a container. -/
def PodStore.kept (s : PodStore) (uid name : String) : Option (Int32 × Duration) :=
  (s.restartState uid name).map fun rs => (rs.count, rs.backoff)

def StoreOp.KeepsRestarts (uid name : String) (op : StoreOp) : Prop :=
  ¬ op.Resets uid name ∧ ∀ count, op ≠ .patchRestartCount uid name count

namespace PodStore

variable {s s' : PodStore} {uid uid' name name' : String}

theorem kept_of_restartState (h : s'.restartState uid name = s.restartState uid name) :
  s'.kept uid name = s.kept uid name
  := by
  rw [kept, kept, h]

theorem kept_updateRestartState
    (h : uid' = uid → name' = name → ∀ rs, (f rs).count = rs.count ∧ (f rs).backoff = rs.backoff) :
  (s.updateRestartState uid' name' f).kept uid name = s.kept uid name
  := by
  rw [kept, restartState_updateRestartState]
  split
  next heq =>
    obtain ⟨rfl, rfl⟩ := heq
    rw [Option.map_map, kept]
    congr 1
    funext rs
    obtain ⟨hco, hb⟩ := h rfl rfl rs
    rw [comp_apply, hco, hb]
  · rfl

theorem kept_apply {op : StoreOp} (ho : op.byOthers) (hop : op.KeepsRestarts uid name) :
  (s.apply op).kept uid name = s.kept uid name
  := by
  obtain ⟨hr, hpa⟩ := hop
  have hbu : op ≠ .bumpBackoff uid name := by
    rintro rfl
    cases ho
  have hcn : ¬ op.Counts uid name := by
    cases op with
    | patchRestartCount uid' name' count =>
      rintro ⟨rfl, rfl⟩
      exact hpa count rfl
    | bumpBackoff | incrementRestart => cases ho
    | _ => exact id
  cases s.apply_records op uid with
  | @changed f hrt hb hco =>
    rw [kept, hrt, Option.map_map, kept]
    congr 1
    funext rs
    rw [comp_apply, hb name hr hbu, hco name hcn]
  | replaced hrp => exact absurd (hrp name) hr
  | begun hbg => exact absurd (hbg name) hr
  | probed _ hrt => exact kept_of_restartState (hrt name)

theorem kept_bumpBackoff (s : PodStore) (uid name : String) :
  s.kept uid name = none ∧ s.bumpBackoff uid name = (s, 0, 0)
    ∨ ∃ k, s.kept uid name = some k ∧ (s.bumpBackoff uid name).2 = (k.1 + 1, k.2)
      ∧ (s.bumpBackoff uid name).1.kept uid name = some (k.1 + 1, nextDelay k.2)
  := by
  unfold bumpBackoff
  cases hrs : s.restartState uid name with
  | none =>
    left
    rw [kept, hrs]
    exact ⟨rfl, rfl⟩
  | some rs =>
    right
    refine ⟨(rs.count, rs.backoff), ?_, rfl, ?_⟩
    · rw [kept, hrs]
      rfl
    · rw [kept, restartState_updateRestartState, if_pos ⟨rfl, rfl⟩, hrs, ← capped_eq_nextDelay]
      rfl

theorem kept_bumpBackoff_of_ne (h : ¬ (uid' = uid ∧ name' = name)) :
  (s.bumpBackoff uid' name').1.kept uid name = s.kept uid name
  := by
  unfold bumpBackoff
  split
  · rfl
  · apply kept_updateRestartState
    intro hui hn
    exact absurd ⟨hui, hn⟩ h

end PodStore

/-- The event is about the container. -/
def RestartEvent.concerns (uid name : String) : RestartEvent → Bool
  | .launched r => r.uid = uid ∧ r.containerName = name
  | .backoffReset uid' name' => uid' = uid ∧ name' = name

def restartLedger : System (Int32 × Duration) RestartEvent where
  step kept
    | .launched r =>
      if r.count = kept.1 + 1 ∧ r.backoff = kept.2 then some (kept.1 + 1, nextDelay kept.2)
      else none
    | .backoffReset _ _ => some (kept.1, restartBackoffInit)

def launchCount (events : List RestartEvent) : Nat :=
  events.countP fun e => match e with
    | .launched _ => true
    | .backoffReset _ _ => false

def Thread.launching (uid name : String) : Thread → Option (Int32 × Duration)
  | .call c =>
    match c.point with
    | .launch count backoff =>
      if c.uid = uid ∧ c.container.name = name then some (count, backoff) else none
    | _ => none
  | .restart _ => none

def Thread.restarts (uid name : String) : Thread → Bool
  | .call _ => false
  | .restart r => r.uid = uid ∧ r.containerName = name

namespace Watcher

def restartEvents (w : Watcher) (uid name : String) : List RestartEvent :=
  w.events.filter (RestartEvent.concerns uid name)

def pending (w : Watcher) (uid name : String) : List (Int32 × Duration) :=
  w.threads.filterMap (Thread.launching uid name)

def KeepsRestartState (uid name : String) (_ : Watcher) : WatcherAction → Prop
  | .store op => op.KeepsRestarts uid name
  | _ => True

inductive Books (uid name : String) (w w' : Watcher) : Prop
  | aside (hkept : w'.store.kept uid name = w.store.kept uid name)
      (hevents : w'.restartEvents uid name = w.restartEvents uid name)
      (hpending : w'.pending uid name = w.pending uid name)
  | counted {k : Int32 × Duration} (hkept : w.store.kept uid name = some k)
      (hkept' : w'.store.kept uid name = some (k.1 + 1, nextDelay k.2))
      (hevents : w'.restartEvents uid name = w.restartEvents uid name)
      (hpending : w.pending uid name = []) (hpending' : w'.pending uid name = [(k.1 + 1, k.2)])
  | overflow {k : Int32 × Duration} (hkept : w.store.kept uid name = some k)
      (hzero : k.1 + 1 = 0) (hevents : w'.restartEvents uid name = w.restartEvents uid name)
      (hpending : w.pending uid name = [])
  | launched {run : RestartRun} (hkept : w'.store.kept uid name = w.store.kept uid name)
      (hevents : w'.restartEvents uid name = w.restartEvents uid name ++ [.launched run])
      (hpending : w.pending uid name = [(run.count, run.backoff)])
      (hpending' : w'.pending uid name = [])
  | reset (hkept : w'.store.kept uid name
        = (w.store.kept uid name).map fun k => (k.1, restartBackoffInit))
      (hevents : w'.restartEvents uid name
        = w.restartEvents uid name ++ [.backoffReset uid name])
      (hpending : w.pending uid name = []) (hpending' : w'.pending uid name = [])

variable {w w' : Watcher} {c : WatcherCall} {r : CallReadings} {result : Watcher × List Thread}
  {uid name : String} {i : Nat}

theorem holds_of_launching {t : Thread} (h : t.launching uid name = some x) :
  t.holds = some (containerKey uid name)
  := by
  cases t with
  | restart => cases h
  | call c =>
    unfold launching at h
    dsimp only at h
    split at h
    next hp =>
      split at h
      next heq =>
        obtain ⟨rfl, rfl⟩ := heq
        simp [holds, hp, Target.key]
      · cases h
    · cases h

theorem length_pending_le (hw : Exclusive holds w.restarting w.threads) :
  (w.pending uid name).length ≤ 1
  := by
  rw [pending, length_filterMap_eq_countP]
  apply hw.countP_le_one (k := containerKey uid name)
  intro t ht
  obtain ⟨x, hx⟩ := isSome_iff_exists.1 ht
  apply holds_of_launching hx

theorem pending_eq_nil_of_bumpBackoff (hw : Exclusive holds w.restarting w.threads)
    (hc : w.threads[i]? = some (.call c)) (hp : c.point = .bumpBackoff) :
  w.pending c.uid c.container.name = []
  := by
  have hhe : holds (.call c) = some (containerKey c.uid c.container.name) := by
    simp [holds, hp, Target.key]
  rw [pending, filterMap_eq_nil_iff]
  intro t ht
  rw [eq_none_iff_forall_ne_some]
  intro x hx
  obtain rfl := hw.eq_of_holds (mem_of_getElem? hc) ht hhe (holds_of_launching hx)
  simp [launching, hp] at hx

theorem pending_eq_nil_of_idle (h : w.idle) :
  w.pending uid name = []
  := by
  rw [pending, filterMap_eq_nil_iff]
  intro t ht
  have hca := all_eq_true.1 h t ht
  cases t with
  | call c => cases hca
  | restart run => rfl

theorem Books.aside_call {point : CallPoint} (hp : c.point = point)
    (hc : w.threads[i]? = some (.call c)) (hth : result.1.threads = w.threads)
    (hts : result.2.filterMap (launching uid name)
      = (launching uid name (.call (c.next point))).toList)
    (hke : result.1.store.kept uid name = w.store.kept uid name)
    (hev : result.1.restartEvents uid name = w.restartEvents uid name) :
  Books uid name w (replace i result)
  := by
  refine .aside hke hev ?_
  have hlu : launching uid name (.call c)
      = launching uid name (.call (c.next point)) := by
    rw [← hp]
    rfl
  rw [← hlu] at hts
  have hpe := filterMap_splice_eq hc hts
  rw [← hth] at hpe
  exact hpe.trans (congrArg _ hth)

theorem kept_evalProbe {w : Watcher} :
  (w.evalProbe c f).1.store.kept uid name = w.store.kept uid name
  := kept_of_restartState (restartState_update_of_restarts _ _ fun _ => rfl)

theorem Books.of_counted (hw : Exclusive holds w.restarting w.threads)
    (hc : w.threads[i]? = some (.call c)) (hp : c.point = .bumpBackoff)
    (hco : (w.store.bumpBackoff c.uid c.container.name).2.1 ≠ 0) :
  Books uid name w
    (replace i ({ w with store := (w.store.bumpBackoff c.uid c.container.name).1 },
      [.call (c.next (.launch (w.store.bumpBackoff c.uid c.container.name).2.1
        (w.store.bumpBackoff c.uid c.container.name).2.2))]))
  := by
  by_cases heq : c.uid = uid ∧ c.container.name = name
  · obtain ⟨rfl, rfl⟩ := heq
    rcases w.store.kept_bumpBackoff c.uid c.container.name with ⟨-, hno⟩ | ⟨k, hk, h2, hk'⟩
    · rw [hno] at hco
      exact absurd rfl hco
    · have hem := pending_eq_nil_of_bumpBackoff hw hc hp
      refine .counted hk hk' rfl hem ?_
      obtain ⟨a, b, hl, hsp⟩ := filterMap_splice (launching c.uid c.container.name)
        [.call (c.next (.launch (w.store.bumpBackoff c.uid c.container.name).2.1
          (w.store.bumpBackoff c.uid c.container.name).2.2))] hc
      have hbo := hl.symm.trans hem
      simp only [append_eq_nil_iff] at hbo
      obtain ⟨⟨rfl, -⟩, rfl⟩ := hbo
      apply hsp.trans
      simp [launching, WatcherCall.next, h2]
  · refine .aside_call hp hc rfl ?_ (kept_bumpBackoff_of_ne heq) rfl
    simp [launching, WatcherCall.next, heq]

theorem Books.of_notCounted (hw : Exclusive holds w.restarting w.threads)
    (hc : w.threads[i]? = some (.call c)) (hp : c.point = .bumpBackoff)
    (hco : (w.store.bumpBackoff c.uid c.container.name).2.1 = 0) :
  Books uid name w
    (replace i ({ w with store := (w.store.bumpBackoff c.uid c.container.name).1 },
      [.call (c.next .release)]))
  := by
  by_cases heq : c.uid = uid ∧ c.container.name = name
  · obtain ⟨rfl, rfl⟩ := heq
    rcases w.store.kept_bumpBackoff c.uid c.container.name with ⟨-, hno⟩ | ⟨k, hk, h2, -⟩
    · refine .aside_call hp hc rfl rfl ?_ rfl
      rw [hno]
    · rw [h2] at hco
      exact .overflow hk hco rfl (pending_eq_nil_of_bumpBackoff hw hc hp)
  · exact .aside_call hp hc rfl rfl (kept_bumpBackoff_of_ne heq) rfl

variable {count : Int32}

theorem Books.of_launch (hw : Exclusive holds w.restarting w.threads)
    (hc : w.threads[i]? = some (.call c)) {backoff : Duration}
    (hp : c.point = .launch count backoff) :
  Books uid name w
    (replace i
      ({ w with
          events := w.events
            ++ [.launched ⟨c.uid, c.pod, c.container.name, count, backoff, false⟩] },
        [.restart ⟨c.uid, c.pod, c.container.name, count, backoff, false⟩]))
  := by
  by_cases heq : c.uid = uid ∧ c.container.name = name
  · obtain ⟨a, b, hl, hsp⟩ := filterMap_splice (launching uid name)
      [.restart ⟨c.uid, c.pod, c.container.name, count, backoff, false⟩] hc
    have hlu : launching uid name (.call c) = some (count, backoff) := by
      simp [launching, hp, heq]
    have hle : (w.pending uid name).length ≤ 1 := length_pending_le hw
    rw [hlu] at hl
    rw [pending, hl] at hle
    simp only [toList_some, length_append, length_singleton] at hle
    obtain rfl := eq_nil_of_length_eq_zero (by omega : a.length = 0)
    obtain rfl := eq_nil_of_length_eq_zero (by omega : b.length = 0)
    refine @Books.launched _ _ _ _ ⟨c.uid, c.pod, c.container.name, count, backoff, false⟩ rfl ?_
      hl hsp
    simp [restartEvents, replace, filter_append, RestartEvent.concerns, heq]
  · refine .aside_call hp hc rfl ?_ rfl ?_
    · simp [launching, WatcherCall.next, heq]
    · simp [restartEvents, filter_append, RestartEvent.concerns, heq]

theorem CallStep.books (h : CallStep w c r result)
    (hw : Exclusive holds w.restarting w.threads) (hc : w.threads[i]? = some (.call c)) :
  Books uid name w (replace i result)
  := by
  cases h with
  | notDue hp hst | startupDue hp hst | livenessDue hp hst
  | readinessDue hp _ hst =>
    exact .aside_call hp hc rfl rfl
      (kept_of_restartState (hst.restartState uid name)) rfl
  | startup hp hts =>
    refine .aside_call hp hc rfl ?_ kept_evalProbe rfl
    rw [hts]
    split
    all_goals rfl
  | livenessFailed hp | readiness hp => exact .aside_call hp hc rfl rfl kept_evalProbe rfl
  | livenessPassed hp hst hts =>
    refine .aside_call hp hc rfl ?_ ?_ rfl
    · rcases hts with rfl | ⟨probe, -, rfl⟩
      all_goals rfl
    · apply (kept_of_restartState (hst.restartState uid name)).trans
      apply kept_evalProbe
  | resetProbeState hp =>
    refine .aside_call hp hc rfl rfl ?_ rfl
    exact kept_of_restartState
      (restartState_update_of_restarts _ _ fun _ => rfl)
  | maybeRestart hp hts =>
    refine .aside_call hp hc rfl ?_ rfl rfl
    rcases hts with rfl | rfl
    all_goals rfl
  | marked hp | acquire hp | release hp =>
    exact .aside_call hp hc rfl rfl rfl rfl
  | notCounted hp hco => apply Books.of_notCounted hw hc hp hco
  | counted hp hco => apply Books.of_counted hw hc hp hco
  | launch hp => apply Books.of_launch hw hc hp

theorem RunStep.books {run : RestartRun} {now : Time} {ok : Bool} (h : RunStep w run now ok result)
    (hru : w.threads[i]? = some (.restart run)) :
  Books uid name w (replace i result)
  := by
  cases h with
  | released | failed => exact .aside rfl rfl (filterMap_splice_eq hru rfl)
  | completed =>
    refine .aside ?_ rfl (filterMap_splice_eq hru rfl)
    exact kept_updateRestartState fun _ _ _ => ⟨rfl, rfl⟩

theorem WatcherStep.books (h : WatcherStep w a w')
    (hw : Exclusive holds w.restarting w.threads) (ha : KeepsRestartState uid name w a) :
  Books uid name w w'
  := by
  have hs (t : Target) (point : CallPoint)
      (hp : launching uid name (.call { t with point := point }) = none) :
      (w.threads ++ [Thread.call { t with point := point }]).filterMap (Thread.launching uid name)
        = w.pending uid name := by
    rw [filterMap_append, filterMap_cons_none hp]
    apply append_nil
  cases h with
  | pollBegin | quiet => exact .aside rfl rfl rfl
  | fanOut _ hst _ hth =>
    refine .aside (kept_of_restartState (hst.restartState uid name)) rfl ?_
    rcases hth with rfl | rfl
    · rfl
    · exact hs _ .runProbes rfl
  | running => exact .aside rfl rfl (hs _ .runProbes rfl)
  | @stable now p t seenRunning hi =>
    by_cases heq : t.uid = uid ∧ t.container.name = name
    · obtain ⟨rfl, rfl⟩ := heq
      have hem : w.pending t.uid t.container.name = [] := pending_eq_nil_of_idle hi
      refine .reset ?_ ?_ hem ((hs _ .runProbes rfl).trans hem)
      · rw [kept, resetBackoff, restartState_updateRestartState,
          if_pos ⟨rfl, rfl⟩, PodStore.kept, Option.map_map, Option.map_map]
        rfl
      · simp [restartEvents, filter_append, RestartEvent.concerns]
    · refine .aside ?_ ?_ (hs _ .runProbes rfl)
      · apply kept_updateRestartState
        intro hui hn
        exact absurd ⟨hui, hn⟩ heq
      · simp [restartEvents, filter_append, RestartEvent.concerns, heq]
  | ended _ _ _ hth =>
    refine .aside ?_ rfl ?_
    · apply kept_of_restartState
      apply restartState_update_of_restarts
      intro ps
      obtain ⟨status, heq⟩ := ps.setContainerState_eq _ _ _ _
      rw [heq]
    · rcases hth with rfl | ⟨-, rfl⟩
      · rfl
      · exact hs _ .maybeRestart rfl
  | call hc hr => apply hr.books hw hc
  | restart hru hr => apply hr.books hru
  | store hop => exact .aside (kept_apply hop ha) rfl rfl

/-- The number of restarts is that of the launches, and one more while a restart is counted and not
launched yet; numbers and delays are those of the ledger. -/
structure Recorded (uid name : String) (first : Int32 × Duration) (events : List RestartEvent)
    (w : Watcher) (k : Int32 × Duration) : Prop where
  ledger : restartLedger.run first events = some k
  count : k.1.toInt = first.1.toInt + launchCount events
  kept : w.pending uid name = [] ∧ w.store.kept uid name = some k
    ∨ w.pending uid name = [(k.1 + 1, k.2)]
      ∧ w.store.kept uid name = some (k.1 + 1, nextDelay k.2)

theorem toInt_add_one (h0 : 0 ≤ count.toInt) (h : count.toInt + 1 < 2 ^ 31) :
  (count + 1).toInt = count.toInt + 1
  := by
  rw [Int32.toInt_add]
  apply Int.bmod_eq_of_le
  all_goals
    have hon : (1 : Int32).toInt = 1 := rfl
    omega

theorem add_one_ne_zero (h0 : 0 ≤ count.toInt) :
  count + 1 ≠ 0
  := by
  intro hz
  have hco : count = -1 := by
    rw [← Int32.add_right_inj (1 : Int32), Int32.add_comm, hz]
    rfl
  rw [hco] at h0
  exact absurd h0 (by decide)

variable {first k : Int32 × Duration} {events : List RestartEvent}

theorem Recorded.kept_of_pending_nil (h : Recorded uid name first events w k)
    (hpe : w.pending uid name = []) :
  w.store.kept uid name = some k
  := by
  rcases h.kept with ⟨-, hke⟩ | ⟨hon, -⟩
  · exact hke
  · cases hpe.symm.trans hon

theorem Recorded.count_eq (h : Recorded uid name first events w k) (h0 : 0 ≤ first.1.toInt)
    (hfe : first.1.toInt + launchCount events + (w.pending uid name).length < 2 ^ 31) :
  ∃ rs, w.store.restartState uid name = some rs
    ∧ rs.count.toInt = first.1.toInt + launchCount events + (w.pending uid name).length
  := by
  have hco := h.count
  rcases h.kept with ⟨hpe, hke⟩ | ⟨hpe, hke⟩
  · obtain ⟨rs, hrs, rfl⟩ := map_eq_some_iff.1 hke
    refine ⟨rs, hrs, ?_⟩
    rw [hpe, length_nil]
    simpa using hco
  · obtain ⟨rs, hrs, heq⟩ := map_eq_some_iff.1 hke
    refine ⟨rs, hrs, ?_⟩
    rw [hpe, length_singleton] at hfe ⊢
    have hrt : rs.count = k.1 + 1 := congrArg Prod.fst heq
    rw [hrt, toInt_add_one (by omega) (by omega)]
    omega

theorem Books.recorded (h : Books uid name w w') (h0 : 0 ≤ first.1.toInt)
    (hw : first.1.toInt + launchCount events + (w.pending uid name).length < 2 ^ 31 →
      ∃ k, Recorded uid name first events w k) :
  ∃ events', w'.restartEvents uid name = w.restartEvents uid name ++ events'
    ∧ (first.1.toInt + launchCount (events ++ events') + (w'.pending uid name).length < 2 ^ 31 →
      ∃ k, Recorded uid name first (events ++ events') w' k)
  := by
  cases h with
  | aside hke hev hpe =>
    refine ⟨[], by rw [hev, append_nil], ?_⟩
    rw [append_nil, hpe]
    intro hfe
    obtain ⟨k, hk⟩ := hw hfe
    refine ⟨k, hk.ledger, hk.count, ?_⟩
    rw [hpe, hke]
    exact hk.kept
  | @counted k hke hkp hev hpe hpn =>
    refine ⟨[], by rw [hev, append_nil], ?_⟩
    rw [append_nil, hpn, length_singleton]
    intro hfe
    obtain ⟨k', hk'⟩ := hw (by rw [hpe, length_nil]; omega)
    cases hke.symm.trans (hk'.kept_of_pending_nil hpe)
    exact ⟨k, hk'.ledger, hk'.count, .inr ⟨hpn, hkp⟩⟩
  | @overflow k hke hz hev hpe =>
    refine ⟨[], by rw [hev, append_nil], ?_⟩
    rw [append_nil]
    intro hfe
    obtain ⟨k', hk'⟩ := hw (by rw [hpe, length_nil]; omega)
    cases hke.symm.trans (hk'.kept_of_pending_nil hpe)
    -- The number began at 0 or above and was only counted up, so it is not -1.
    have hco := hk'.count
    exact absurd hz (add_one_ne_zero (by omega))
  | @launched run hke hev hpe hpn =>
    refine ⟨[.launched run], hev, ?_⟩
    have hla : launchCount (events ++ [.launched run]) = launchCount events + 1 := by
      simp [launchCount]
    intro hfe
    obtain ⟨k, hk⟩ := hw (by rw [hpe, length_singleton]; omega)
    have hco := hk.count
    rcases hk.kept with ⟨hni, -⟩ | ⟨hon, hkp⟩
    · cases hpe.symm.trans hni
    · have hg : run.count = k.1 + 1 ∧ run.backoff = k.2 := by
        simpa using hpe.symm.trans hon
      refine ⟨(k.1 + 1, nextDelay k.2), ?_, ?_, .inl ⟨hpn, hke.trans hkp⟩⟩
      · rw [restartLedger.run_concat hk.ledger]
        exact if_pos hg
      · rw [hla, toInt_add_one (by omega) (by omega)]
        omega
  | reset hke hev hpe hpn =>
    refine ⟨[.backoffReset uid name], hev, ?_⟩
    have hla : launchCount (events ++ [.backoffReset uid name]) = launchCount events := by
      simp [launchCount]
    intro hfe
    obtain ⟨k, hk⟩ := hw (by rw [hpe, length_nil]; omega)
    refine ⟨(k.1, restartBackoffInit), ?_, ?_, .inl ⟨hpn, ?_⟩⟩
    · rw [restartLedger.run_concat hk.ledger]
      rfl
    · rw [hla]
      exact hk.count
    · rw [hke, hk.kept_of_pending_nil hpe]
      rfl

/-- At every moment there is at most one goroutine that restarts a container. -/
theorem restarts_counted {store : PodStore} {before as : List WatcherAction} {w₀ w : Watcher}
    (hbefore : watcher.run (newWatcher store) before = some w₀)
    (hrun : watcher.run w₀ as = some w) :
  (∀ uid name, w.threads.countP (Thread.restarts uid name) ≤ 1)
    ∧ ∀ uid name rs, w₀.store.restartState uid name = some rs → 0 ≤ rs.count.toInt →
      w₀.pending uid name = [] → watcher.Meets (KeepsRestartState uid name) w₀ as →
        ∃ events, w.restartEvents uid name = w₀.restartEvents uid name ++ events
          ∧ (rs.count.toInt + launchCount events + (w.pending uid name).length < 2 ^ 31 →
            (∃ rs', w.store.restartState uid name = some rs'
                ∧ rs'.count.toInt
                  = rs.count.toInt + launchCount events + (w.pending uid name).length)
              ∧ ∃ k, Recorded uid name (rs.count, rs.backoff) events w k)
  := by
  have hex := exclusive_run hbefore
  constructor
  · intro uid name
    have hw : Exclusive holds w.restarting w.threads :=
      exclusive_run (watcher.run_append.mpr ⟨w₀, hbefore, hrun⟩)
    apply hw.countP_le_one (k := containerKey uid name)
    intro t ht
    cases t with
    | call c => cases ht
    | restart run =>
      obtain ⟨rfl, rfl⟩ := of_decide_eq_true ht
      rfl
  · intro uid name rs hrs h0 hpe hm
    have hf : 0 ≤ Int32.toInt (rs.count, rs.backoff).1 := h0
    let P (w : Watcher) : Prop :=
      Exclusive holds w.restarting w.threads
        ∧ ∃ events, w.restartEvents uid name = w₀.restartEvents uid name ++ events
          ∧ (rs.count.toInt + launchCount events + (w.pending uid name).length < 2 ^ 31 →
            ∃ k, Recorded uid name (rs.count, rs.backoff) events w k)
    have hP : P w := by
      apply watcher.run_induction _ _ hm hrun
      · refine ⟨hex, [], by rw [append_nil], ?_⟩
        intro _
        refine ⟨(rs.count, rs.backoff), rfl, by simp [launchCount], .inl ⟨hpe, ?_⟩⟩
        rw [kept, hrs]
        rfl
      · rintro u a v ⟨hu, events, hev, hre⟩ ha hv
        have hse := step_step hv
        obtain ⟨events', hee, hrc⟩ := (hse.books hu ha).recorded hf hre
        refine ⟨hse.exclusive hu, events ++ events', ?_, hrc⟩
        rw [hee, hev, append_assoc]
    obtain ⟨-, events, hev, hre⟩ := hP
    refine ⟨events, hev, ?_⟩
    intro hfe
    obtain ⟨k, hk⟩ := hre hfe
    exact ⟨hk.count_eq hf hfe, k, hk⟩

end Watcher

theorem restarts_counted_crash :
  ∃ w, watcher.run (newWatcher (runningStore (livenessPod .always)))
      (crashRun (livenessPod .always)) = some w
    ∧ w.threads.countP (Thread.restarts "u" "c") = 1
    ∧ ∃ rs, w.store.restartState "u" "c" = some rs ∧ rs.count.toInt = 1
  := by
  have hru : watcher.run (newWatcher (runningStore (livenessPod .always)))
      (crashRun (livenessPod .always)) = some _ := rfl
  have hsa : watcher.run (newWatcher (runningStore (livenessPod .always))) []
      = some (newWatcher (runningStore (livenessPod .always))) := rfl
  have hm : watcher.Meets (Watcher.KeepsRestartState "u" "c")
      (newWatcher (runningStore (livenessPod .always))) (crashRun (livenessPod .always)) := by
    apply watcher.meets_of_forall
    intro a ha _
    cases a with
    | store op => simp [crashRun, pollOf, failingCall] at ha
    | _ => trivial
  obtain ⟨-, hcu⟩ := Watcher.restarts_counted hsa hru
  obtain ⟨events, hev, hre⟩ := hcu "u" "c" _ rfl (by decide) rfl hm
  subst hev
  obtain ⟨⟨rs, hrs, hco⟩, -⟩ := hre (by decide)
  exact ⟨_, hru, rfl, rs, hrs, hco⟩

theorem counted_before_launch :
  ∃ w rs, watcher.run (newWatcher (runningStore (livenessPod .always)))
      ([pollOf (livenessPod .always) .failed 1, .nextPod false, .check 0] ++ failingCall 3)
        = some w
    ∧ (runningStore (livenessPod .always)).kept "u" "c" = some (0, restartBackoffInit)
    ∧ w.store.restartState "u" "c" = some rs ∧ rs.count = 1
    ∧ w.restartEvents "u" "c" = [] ∧ w.threads.countP (Thread.restarts "u" "c") = 0
  := ⟨_, _, rfl, rfl, rfl, rfl, rfl, rfl⟩

end Periapsis.Node
