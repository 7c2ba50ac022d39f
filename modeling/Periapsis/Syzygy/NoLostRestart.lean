import Periapsis.Syzygy.Pipeline
import Periapsis.Foci.Restart

/-!
# Restarts that are not lost

The reducer marks a container as restarting before the order is pushed, and orders no other restart
on later polls.
-/

namespace Periapsis.Syzygy

open Periapsis.Types Foci Transition List Option Function

variable {counts : WorkerCounts} {s t : Pipeline}

/-- The effect is still to be pushed. -/
def Waiting (s : Pipeline) (place : Nat) : Prop :=
  ∃ e ∈ s.pushing, e.place = place

def Accepted (s : Pipeline) (place : Nat) : Prop :=
  (∃ e ∈ s.effects.items, e.place = place) ∨ (∃ w e, s.holding w = some e ∧ e.place = place)
    ∨ place ∈ s.delivered

def Drop.Full (d : Drop) : Prop :=
  match d.reason with
  | .effectsFull => d.found = effectsBuf
  | .inboxFull => d.found = inboxBuf
  | .horizonClosed => True
  | .apiError => False
  | .conflict => False

def Refused (s : Pipeline) (place : Nat) : Prop :=
  ∃ d ∈ s.dropped, d.place = place ∧ d.Full

structure Accounted (s : Pipeline) : Prop where
  place : ∀ e, e ∈ s.pushing ∨ e ∈ s.effects.items ∨ (∃ w, s.holding w = some e) →
    s.log[e.place]? = some (.inr e.effect)
  restart : ∀ p r, s.log[p]? = some (.inr (.restartContainer r)) →
    Waiting s p ∨ Accepted s p ∨ Refused s p

structure Frame (s t : Pipeline) : Prop where
  states_eq : t.states = s.states
  log_eq : t.log = s.log
  pushing_eq : t.pushing = s.pushing
  effects_eq : t.effects = s.effects
  holding_eq : t.holding = s.holding
  delivered_eq : t.delivered = s.delivered
  dropped_subset : s.dropped ⊆ t.dropped

theorem Accounted.frame (h : Accounted s) (hfr : Frame s t) :
  Accounted t
  := by
  constructor
  · intro e he
    rw [hfr.pushing_eq, hfr.effects_eq, hfr.holding_eq] at he
    rw [hfr.log_eq]
    apply h.place e he
  · intro p r hp
    rw [hfr.log_eq] at hp
    rw [Waiting, Accepted, hfr.pushing_eq, hfr.effects_eq, hfr.holding_eq, hfr.delivered_eq]
    apply (h.restart p r hp).imp_right
    apply Or.imp_right
    rintro ⟨d, hd, hfu⟩
    exact ⟨d, hfr.dropped_subset hd, hfu⟩

theorem Accounted.processed (h : Accounted s) (hpu : s.pushing = [])
    (states : States) (fact : Fact) (effects : List Effect) :
  Accounted
    { s with
      states := states
      pushing := effects.mapIdx fun i e => ⟨s.log.length + 1 + i, e⟩
      log := s.log ++ .inl fact :: effects.map .inr }
  := by
  constructor
  · rintro e (he | he)
    · obtain ⟨i, hi, rfl⟩ := mem_mapIdx.1 he
      dsimp only
      rw [getElem?_append_right (by omega), getElem?_cons, if_neg (by omega)]
      have hin : s.log.length + 1 + i - s.log.length - 1 = i := by omega
      simp [hin, hi]
    · have hol := h.place e (.inr he)
      have hlt := (List.getElem?_eq_some_iff.1 hol).1
      rw [getElem?_append_left hlt]
      apply hol
  · intro p r hp
    by_cases hlt : p < s.log.length
    · rw [getElem?_append_left hlt] at hp
      rcases h.restart p r hp with ⟨e, he, -⟩ | hrs
      · rw [hpu] at he
        cases he
      · right
        apply hrs
    · left
      rw [getElem?_append_right (by omega), getElem?_cons] at hp
      split at hp
      · cases some.inj hp
      · rw [getElem?_map, map_eq_some_iff] at hp
        obtain ⟨e, he, -⟩ := hp
        obtain ⟨hi, -⟩ := List.getElem?_eq_some_iff.1 he
        use ⟨p, e⟩
        constructor
        · apply mem_mapIdx.2
          use p - s.log.length - 1, hi
          rw [(List.getElem?_eq_some_iff.1 he).2]
          congr
          omega
        · rfl

variable {effects : Channel Emitted effectsBuf}

theorem Accounted.pushed (h : Accounted s) (hpu : s.pushing = e :: rest)
    (hse : s.effects.send e = some effects) :
  Accounted { s with pushing := rest, effects := effects }
  := by
  obtain ⟨-, hit⟩ := Channel.send_eq_some.1 hse
  constructor
  · intro x hx
    apply h.place
    rw [hpu]
    simp only [hit, mem_append, mem_cons] at hx ⊢
    tauto
  · intro p r hp
    rcases h.restart p r hp with ⟨x, hx, hpl⟩ | (⟨x, hx, hpl⟩ | hac) | hrf
    · rw [hpu] at hx
      rcases mem_cons.1 hx with rfl | hx
      · exact .inr (.inl (.inl ⟨x, by simp [hit], hpl⟩))
      · exact .inl ⟨x, hx, hpl⟩
    · exact .inr (.inl (.inl ⟨x, by simp [hit, hx], hpl⟩))
    · exact .inr (.inl (.inr hac))
    · exact .inr (.inr hrf)

theorem Accounted.refused (h : Accounted s) (hpu : s.pushing = e :: rest)
    (hse : s.effects.send e = none) :
  Accounted ({ s with pushing := rest }.drop e .effectsFull s.effects.items.length)
  := by
  constructor
  · intro x hx
    apply h.place
    rw [hpu]
    exact hx.imp_left (mem_cons_of_mem e)
  · intro p r hp
    rcases h.restart p r hp with ⟨x, hx, hpl⟩ | hac | ⟨d, hd, hfu⟩
    · rw [hpu] at hx
      rcases mem_cons.1 hx with rfl | hx
      · right
        right
        use ⟨x.place, .effectsFull, s.effects.items.length⟩
        exact ⟨by simp [Pipeline.drop], hpl, Channel.send_eq_none.1 hse⟩
      · left
        use x, hx, hpl
    · right
      left
      apply hac
    · right
      right
      use d
      exact ⟨by simp [Pipeline.drop, hd], hfu⟩

theorem Accounted.taken (h : Accounted s) (hh : s.holding w = none)
    (hrc : s.effects.receive = some (e, effects)) :
  Accounted { s with effects := effects, holding := update s.holding w (some e) }
  := by
  have hit := Channel.receive_eq_some.1 hrc
  constructor
  · intro x hx
    apply h.place
    rw [hit]
    rcases hx with hx | hx | ⟨w', hw'⟩
    · exact .inl hx
    · exact .inr (.inl (mem_cons_of_mem e hx))
    · dsimp only at hw'
      rw [update_apply] at hw'
      split at hw'
      · cases hw'
        exact .inr (.inl mem_cons_self)
      · exact .inr (.inr ⟨w', hw'⟩)
  · intro p r hp
    apply (h.restart p r hp).imp_right
    apply Or.imp_left
    rintro (⟨x, hx, hpl⟩ | ⟨w', x, hw', hpl⟩ | hde)
    · rw [hit] at hx
      rcases mem_cons.1 hx with rfl | hx
      · exact .inr (.inl ⟨w, x, update_self .., hpl⟩)
      · exact .inl ⟨x, hx, hpl⟩
    · have hne : w' ≠ w := by
        rintro rfl
        rw [hh] at hw'
        cases hw'
      exact .inr (.inl ⟨w', x, (update_of_ne hne ..).trans hw', hpl⟩)
    · exact .inr (.inr hde)

theorem dispatchEffect_settles (s : Pipeline) {e : Emitted} (h : e.effect = .restartContainer r) :
  Accepted (s.dispatchEffect e) e.place ∨ Refused (s.dispatchEffect e) e.place
  := by
  rcases dispatchEffect_cases s e with ⟨-, -, hlo⟩ | ⟨inbox, -, heq⟩ | ⟨reason, heq, hra⟩
  · rw [h] at hlo
    cases hlo
  · left
    right
    right
    simp [heq]
  · right
    rw [heq]
    use ⟨e.place, reason, s.inbox.items.length⟩
    refine ⟨by simp [Pipeline.drop], rfl, ?_⟩
    rcases hra with rfl | ⟨rfl, hfu⟩
    · trivial
    · apply hfu

theorem Accounted.dispatched (h : Accounted s) (hh : s.holding w = some e) :
  Accounted ({ s with holding := update s.holding w none }.dispatchEffect e)
  := by
  have hfr := dispatchEffect_frame { s with holding := update s.holding w none } e
  have hsl := fun r => dispatchEffect_settles
    { s with holding := update s.holding w none } (e := e) (r := r)
  obtain ⟨-, hlg, hpu, hef, hho, -, -, hde, hdr⟩ := hfr
  dsimp only at hlg hpu hef hho hde hdr
  constructor
  · intro x hx
    rw [hlg]
    apply h.place
    rw [hpu, hef, hho] at hx
    rcases hx with hx | hx | ⟨w', hw'⟩
    · exact .inl hx
    · exact .inr (.inl hx)
    · rw [update_apply] at hw'
      split at hw'
      · cases hw'
      · exact .inr (.inr ⟨w', hw'⟩)
  · intro p r hp
    rw [hlg] at hp
    rcases h.restart p r hp with ⟨x, hx, hpl⟩ | (⟨x, hx, hpl⟩ | ⟨w', x, hw', hpl⟩ | hp')
        | ⟨d, hd, hfu⟩
    · left
      use x
      rw [hpu]
      exact ⟨hx, hpl⟩
    · right
      left
      left
      use x
      rw [hef]
      exact ⟨hx, hpl⟩
    · by_cases hw : w' = w
      · subst hw
        rw [hh] at hw'
        cases hw'
        right
        rw [← hpl]
        apply hsl r
        have hsa := h.place e (.inr (.inr ⟨w', hh⟩))
        rw [hpl, hp] at hsa
        exact (Sum.inr.inj (some.inj hsa)).symm
      · right
        left
        right
        left
        use w', x
        rw [hho, update_of_ne hw]
        exact ⟨hw', hpl⟩
    · exact .inr (.inl (.inr (.inr (hde hp'))))
    · exact .inr (.inr ⟨d, hdr hd, hfu⟩)

theorem Accounted.step (h : Accounted s) (hm : Move counts s t) :
  Accounted t
  := by
  cases hm with
  | processed fact clock hpu => exact h.processed hpu _ _ _
  | pushed e rest effects hpu hse => exact h.pushed hpu hse
  | refused e rest hpu hse => exact h.refused hpu hse
  | taken w e effects hw hh hrc => exact h.taken hh hrc
  | dispatched w e hh => exact h.dispatched hh
  | failed =>
    apply h.frame
    exact ⟨rfl, rfl, rfl, rfl, rfl, rfl, subset_append_left _ _⟩
  | _ =>
    apply h.frame
    exact ⟨rfl, rfl, rfl, rfl, rfl, rfl, List.Subset.refl _⟩

theorem initial_accounted {states : States} (api : String → String → Option PodObject) :
  Accounted (initial states api)
  := by
  constructor
  · rintro e (he | he | ⟨w, hw⟩)
    · cases he
    · cases he
    · cases hw
  · intro p r hp
    simp [initial] at hp

/-- The restart of a container of a pod is ordered. -/
def RestartOf (uid name : String) : Fact ⊕ Effect → Prop
  | .inl _ => False
  | .inr e => e.uid = uid ∧ e.Restarts name

def RunningOf (uid name : String) : Fact ⊕ Effect → Prop
  | .inl fact => factUID fact = uid ∧ fact.ReportsRunning name
  | .inr _ => False

structure Flagged (states : States) (log : List (Fact ⊕ Effect)) : Prop where
  own : ∀ uid state, states uid = some state → uid ≠ "" ∧ state.uid = uid
  pending : ∀ uid state name, states uid = some state → state.Outstanding name →
    Pending (RestartOf uid name) (RunningOf uid name) log

variable {states : States} {log : List (Fact ⊕ Effect)} {uid : String} {state : PodState}

theorem processFact_stored (h : Flagged states log) {fact : Fact}
    (hs : (processFact states fact clock).1 uid = some state) :
  factUID fact ≠ uid ∧ states uid = some state
    ∨ factUID fact = uid ∧ ∃ current, states uid = some current
      ∧ reduce current fact clock = (state, (processFact states fact clock).2)
      ∧ state.uid ≠ ""
  := by
  unfold processFact at hs ⊢
  by_cases hem : factUID fact = ""
  · rw [if_pos hem] at hs
    left
    rw [hem]
    use (h.own uid state hs).1.symm, hs
  · simp only [if_neg hem] at hs ⊢
    by_cases hu : factUID fact = uid
    · right
      use hu
      cases hc : states uid with
      | none => simp [hu, hc, reduce_untracked] at hs
      | some current =>
        use current, rfl
        simp only [hu, hc, getD_some] at hs ⊢
        split at hs
        · simp at hs
        next hl =>
          simp only [update_self, some.injEq] at hs
          subst hs
          rw [if_neg hl]
          exact ⟨rfl, hl⟩
    · left
      use hu
      have hne : uid ≠ factUID fact := Ne.symm hu
      split at hs
      all_goals simpa [update_of_ne hne] using hs

theorem Flagged.processed (h : Flagged states log) (fact : Fact) (clock : Clock) :
  Flagged (processFact states fact clock).1
    (log ++ .inl fact :: (processFact states fact clock).2.map .inr)
  := by
  constructor
  · intro uid state hs
    rcases processFact_stored h hs with
      ⟨-, hol⟩ | ⟨-, current, hol, hrd, hl⟩
    · apply h.own uid state hol
    · obtain ⟨hne, hu⟩ := h.own uid current hol
      use hne
      have hk := reduce_uid current fact clock
      rw [hrd, hu] at hk
      apply hk.resolve_right hl
  · intro uid state name hs ho
    have hq : ∀ x ∈ ((processFact states fact clock).2.map .inr : List (Fact ⊕ Effect)),
        ¬ RunningOf uid name x := by
      intro x hx
      obtain ⟨e, -, rfl⟩ := mem_map.1 hx
      exact not_false
    rw [← singleton_append, ← append_assoc, pending_append hq, pending_concat]
    rcases processFact_stored h hs with
      ⟨hot, hol⟩ | ⟨-, current, hol, hrd, -⟩
    · right
      right
      use h.pending uid state name hol ho
      intro hru
      apply hot hru.1
    · obtain ⟨hne, hu⟩ := h.own uid current hol
      have hn : (reduce current fact clock).1.Outstanding name := by
        rw [hrd]
        apply ho
      rcases restart_of_outstanding (hu ▸ hne) hn with ⟨e, he, hre⟩ | ⟨hb, hno⟩
      · left
        use .inr e
        constructor
        · rw [hrd] at he
          apply mem_map_of_mem he
        · exact ⟨(reduce_effect_uid he).trans hu, hre⟩
      · right
        right
        use h.pending uid current name hol hb
        intro hru
        apply hno hru.2

theorem Flagged.step (h : Flagged s.states s.log) (hm : Move counts s t) :
  Flagged t.states t.log
  := by
  cases hm with
  | processed fact clock hpu => exact h.processed fact clock
  | dispatched w e hh =>
    obtain ⟨hss, hlg, -⟩ :=
      dispatchEffect_frame { s with holding := update s.holding w none } e
    rw [hss, hlg]
    apply h
  | _ => exact h

def Settled (states : States) : Prop :=
  ∀ uid state, states uid = some state →
    uid ≠ "" ∧ state.uid = uid ∧ ∀ name, ¬ state.Outstanding name

theorem Settled.flagged (h : Settled states) :
  Flagged states []
  := by
  constructor
  · intro uid state hs
    obtain ⟨hne, hu, -⟩ := h uid state hs
    exact ⟨hne, hu⟩
  · intro uid state name hs ho
    exact absurd ho ((h uid state hs).2.2 name)

theorem run_accounted (h : Settled states)
    (hr : (pipeline counts).run (initial states api) actions = some s) :
  Accounted s ∧ Flagged s.states s.log
  := by
  apply (pipeline counts).run_induction (P := fun s => Accounted s ∧ Flagged s.states s.log)
    ⟨initial_accounted api, h.flagged⟩ _ ((pipeline counts).meets_true _ actions) hr
  intro u a v ⟨ha, hfl⟩ _ hst
  exact ⟨ha.step (step_move hst), hfl.step (step_move hst)⟩

/-- An outstanding restart was emitted since the container was last reported running, and is still
on its way, or was refused by a channel that was full or closed. -/
theorem restart_emitted_since_running (counts : WorkerCounts) (states : States) (h : Settled states)
    (api : String → String → Option PodObject) (actions : List Action) (s : Pipeline)
    (hrun : (pipeline counts).run (initial states api) actions = some s)
    (uid name : String) (state : PodState) (hstate : s.states uid = some state)
    (houtstanding : state.Outstanding name) :
  ∃ (place : Nat) (r : RestartContainer), s.log[place]? = some (.inr (.restartContainer r))
    ∧ r.uid = uid ∧ r.containerName = name
    ∧ (∀ later fact, place < later → s.log[later]? = some (.inl fact) →
        ¬ (factUID fact = uid ∧ fact.ReportsRunning name))
    ∧ (Waiting s place ∨ Accepted s place ∨ Refused s place)
  := by
  obtain ⟨ha, hfl⟩ := run_accounted h hrun
  obtain ⟨place, x, hpl, hre, hla⟩ := (hfl.pending uid state name hstate houtstanding).exists_place
  obtain fact | e := x
  · exact hre.elim
  · obtain ⟨hu, r, hr, hna⟩ := hre
    obtain ⟨r', rfl⟩ : ∃ r', e = .restartContainer r' := by
      cases e with
      | restartContainer r' => exact ⟨r', rfl⟩
      | _ => cases hr
    obtain rfl := some.inj hr
    use place, r', hpl, hu, hna
    constructor
    · intro later fact hlt hfa
      apply hla later (.inl fact) hlt hfa
    · apply ha.restart place r' hpl

theorem onePod_settled (hu : state.uid ≠ "") (h : ∀ cv ∈ state.containers, cv.restarting = false) :
  Settled (onePod state)
  := by
  intro uid state' hs
  by_cases hsa : uid = state.uid
  · subst hsa
    obtain rfl : state = state' := by simpa [onePod] using hs
    refine ⟨hu, rfl, ?_⟩
    rintro name ⟨cv, hlk, hcv⟩
    have hid := h cv (mem_of_find?_eq_some hlk)
    rw [hid] at hcv
    cases hcv
  · simp [onePod, hsa] at hs

theorem webPod_settled :
  Settled (onePod webPod)
  := by
  apply onePod_settled (by decide)
  intro cv hcv
  obtain ⟨cs, now, -, rfl⟩ := mem_newPodState hcv
  rfl

theorem restart_emitted_since_running_crash :
  ∃ s, (pipeline ⟨0, 8⟩).run (initial (onePod webPod) fun _ _ => none)
      [.fact (poll .failed) {}, .push] = some s
    ∧ ∃ place, Waiting s place ∨ Accepted s place ∨ Refused s place
  := by
  have hr : (pipeline ⟨0, 8⟩).run (initial (onePod webPod) fun _ _ => none)
      [.fact (poll .failed) {}, .push] = some _ := rfl
  obtain ⟨place, -, -, -, -, -, hca⟩ :=
    restart_emitted_since_running ⟨0, 8⟩ _ webPod_settled (fun _ _ => none)
      [.fact (poll .failed) {}, .push] _ hr "u" "a" _ rfl ⟨_, rfl, rfl⟩
  exact ⟨_, hr, place, hca⟩

structure Filled (state : PodState) (length : Nat) (s : Pipeline) : Prop where
  states_eq : s.states = onePod state
  pushing_eq : s.pushing = []
  length_eq : s.effects.items.length = length
  quiet : ∀ e ∈ s.effects.items, e.effect.restart = none
  holding_eq : ∀ w, s.holding w = none
  delivered_eq : s.delivered = []

def Polled (actions : List Action) : Prop :=
  ∀ fact clock, .fact fact clock ∈ actions → ∃ f, fact = .containerState f

theorem run_push (counts : WorkerCounts) {waiting : List Emitted} (h : s.pushing = waiting) :
  ∃ t, (pipeline counts).run s (.replicate waiting.length .push) = some t
    ∧ t.pushing = []
    ∧ t.effects.items = s.effects.items ++ waiting.take (effectsBuf - s.effects.items.length)
    ∧ t.states = s.states ∧ t.holding = s.holding ∧ t.delivered = s.delivered
  := by
  induction waiting generalizing s with
  | nil => exact ⟨s, rfl, h, by simp, rfl, rfl, rfl⟩
  | cons e rest ih =>
    have hst : (pipeline counts).step s .push = s.push := rfl
    unfold Pipeline.push at hst
    simp only [h] at hst
    cases hse : s.effects.send e with
    | some effects =>
      obtain ⟨hro, hit⟩ := Channel.send_eq_some.1 hse
      rw [hse] at hst
      obtain ⟨t, hr, hpu, hf, hrs⟩ :=
        ih (s := { s with pushing := rest, effects := effects }) rfl
      use t, ((pipeline counts).run_cons).2 ⟨_, hst, hr⟩, hpu
      have hle : effectsBuf - s.effects.items.length = effectsBuf - effects.items.length + 1 := by
        rw [hit, length_append, length_singleton]
        omega
      rw [hle, take_succ_cons]
      exact ⟨hf.trans (by simp [hit]), hrs⟩
    | none =>
      have hfu := Channel.send_eq_none.1 hse
      rw [hse] at hst
      obtain ⟨t, hr, hpu, hf, hrs⟩ :=
        ih (s := { s with pushing := rest }.drop e .effectsFull s.effects.items.length) rfl
      use t, ((pipeline counts).run_cons).2 ⟨_, hst, hr⟩, hpu
      exact ⟨hf.trans (by simp [Pipeline.drop, hfu]), hrs⟩

theorem processFact_onePod (fact : Fact) (hfa : factUID fact = state.uid) (hu : state.uid ≠ "")
    (hn : (reduce state fact clock).1.uid = state.uid) :
  processFact (onePod state) fact clock
    = (onePod (reduce state fact clock).1, (reduce state fact clock).2)
  := by
  simp [processFact, onePod, hfa, hu, hn]

variable {length : Nat}

theorem Filled.poll (h : Filled state length s) (counts : WorkerCounts) {f : ContainerStateFact}
    (hfa : f.uid = state.uid) (hu : state.uid ≠ "")
    (hn : (reduce state (.containerState f) {}).1.uid = state.uid)
    (hq : ∀ e ∈ (reduce state (.containerState f) {}).2.take (effectsBuf - length), e.restart =
      none) :
  ∃ actions t, Polled actions ∧ (pipeline counts).run s actions = some t
    ∧ Filled (reduce state (.containerState f) {}).1
      (length + min (effectsBuf - length) (reduce state (.containerState f) {}).2.length) t
  := by
  obtain ⟨hss, hpu, rfl, hb, hh, hde⟩ := h
  have hst : (pipeline counts).step s (.fact (.containerState f) {})
      = s.processFact (.containerState f) {} := rfl
  unfold Pipeline.processFact at hst
  simp only [hpu, hss, processFact_onePod (.containerState f) hfa hu hn]
    at hst
  obtain ⟨t, hr, hps, hit, hs, hho, hdl⟩ := run_push counts
    (s := { s with
      states := onePod (reduce state (.containerState f) {}).1
      pushing := (reduce state (.containerState f) {}).2.mapIdx
        fun i e => ⟨s.log.length + 1 + i, e⟩
      log := s.log ++ .inl (.containerState f) ::
        (reduce state (.containerState f) {}).2.map .inr }) rfl
  refine ⟨_, t, ?_, (pipeline counts).run_cons.2 ⟨_, hst, hr⟩, hs, hps, ?_, ?_, ?_, ?_⟩
  · intro fact clock hme
    rcases mem_cons.1 hme with hme | hme
    · cases hme
      use f
    · cases (mem_replicate.1 hme).2
  · rw [hit]
    simp
  · intro e he
    rw [hit] at he
    rcases mem_append.1 he with he | he
    · apply hb e he
    · apply hq
      obtain ⟨i, hi, rfl⟩ := mem_take_iff_getElem.1 he
      apply mem_take_iff_getElem.2
      use i
      simp at hi ⊢
      omega
  · intro w
    rw [hho]
    apply hh w
  · rw [hdl]
    apply hde

theorem Polled.append (has : Polled as) (hbs : Polled bs) :
  Polled (as ++ bs)
  := by
  intro fact clock hme
  rcases mem_append.1 hme with hme | hme
  · apply has fact clock hme
  · apply hbs fact clock hme

def Reaches (counts : WorkerCounts) (state : PodState) (length : Nat) : Prop :=
  ∃ actions s, Polled actions
    ∧ (pipeline counts).run (initial (onePod webPod) fun _ _ => none) actions = some s
    ∧ Filled state length s

theorem Reaches.poll (h : Reaches counts state length) (f : ContainerStateFact)
    (hfa : f.uid = state.uid) (hu : state.uid ≠ "")
    (hn : (reduce state (.containerState f) {}).1.uid = state.uid)
    (hq : ∀ e ∈ (reduce state (.containerState f) {}).2.take (effectsBuf - length), e.restart =
      none) :
  Reaches counts (reduce state (.containerState f) {}).1
    (length + min (effectsBuf - length) (reduce state (.containerState f) {}).2.length)
  := by
  obtain ⟨as, s, has, hr, hf⟩ := h
  obtain ⟨bs, t, hbs, hrn, hfi⟩ := hf.poll counts hfa hu hn hq
  use as ++ bs, t, has.append hbs
  exact ⟨(pipeline counts).run_append.2 ⟨s, hr, hrn⟩, hfi⟩

theorem Reaches.poll_two (h : Reaches counts state length) (f : ContainerStateFact)
    (hfa : f.uid = state.uid) (hu : state.uid ≠ "")
    (hn : (reduce state (.containerState f) {}).1.uid = state.uid)
    (hq : ∀ e ∈ (reduce state (.containerState f) {}).2, e.restart = none)
    (ht : (reduce state (.containerState f) {}).2.length = 2) (hro : length + 2 ≤ effectsBuf) :
  Reaches counts (reduce state (.containerState f) {}).1 (length + 2)
  := by
  have hp := h.poll f hfa hu hn fun e he => hq e (mem_of_mem_take he)
  rwa [ht, Nat.min_eq_right (by omega)] at hp

def webPodUp : PodState :=
  (reduce webPod (poll .running) {}).1

def webPodDown : PodState :=
  (reduce webPodUp (poll .creating) {}).1

theorem reaches_up (counts : WorkerCounts) (n : Nat) (h : 4 * n + 2 ≤ effectsBuf) :
  Reaches counts webPodUp (4 * n + 2)
  := by
  induction n with
  | zero =>
    have hsr : Reaches counts webPod 0 := by
      refine ⟨[], _, ?_, rfl, rfl, rfl, rfl, ?_, fun _ => rfl, rfl⟩
      · intro fact clock hme
        cases hme
      · intro e he
        cases he
    exact hsr.poll_two ⟨"u", "a", .running, 1⟩ rfl (by decide) rfl (by decide) rfl (by decide)
  | succ n ih =>
    have hdo : Reaches counts webPodDown (4 * n + 2 + 2) :=
      (ih (by omega)).poll_two ⟨"u", "a", .creating, 1⟩ rfl (by decide) rfl (by decide) rfl
        (by omega)
    exact hdo.poll_two ⟨"u", "a", .running, 1⟩ rfl (by decide) rfl (by decide) rfl (by omega)

theorem outstanding_not_accepted :
  ∃ actions s, Polled actions
    ∧ (pipeline ⟨0, 8⟩).run (initial (onePod webPod) fun _ _ => none) actions = some s
    ∧ s.pushing = []
    ∧ (∃ state, s.states "u" = some state ∧ state.Outstanding "a")
    ∧ ∀ (place : Nat) (r : RestartContainer),
        s.log[place]? = some (.inr (.restartContainer r)) → ¬ Accepted s place
  := by
  have hdo : Reaches ⟨0, 8⟩ webPodDown effectsBuf :=
    (reaches_up ⟨0, 8⟩ 4095 (by decide)).poll_two ⟨"u", "a", .creating, 1⟩ rfl (by decide) rfl
      (by decide) rfl (by decide)
  obtain ⟨actions, s, hpo, hr, hf⟩ :=
    hdo.poll ⟨"u", "a", .failed, 1⟩ rfl (by decide) rfl (by simp)
  use actions, s, hpo, hr, hf.pushing_eq
  constructor
  · rw [hf.states_eq]
    exact ⟨_, rfl, _, rfl, rfl⟩
  · rintro place r hpl (⟨e, he, rfl⟩ | ⟨w, e, hw, -⟩ | hde)
    · have hsa := (run_accounted webPod_settled hr).1.place e (.inr (.inl he))
      rw [hpl] at hsa
      have hq := hf.quiet e he
      rw [← Sum.inr.inj (some.inj hsa)] at hq
      cases hq
    · rw [hf.holding_eq] at hw
      cases hw
    · rw [hf.delivered_eq] at hde
      cases hde

end Periapsis.Syzygy
