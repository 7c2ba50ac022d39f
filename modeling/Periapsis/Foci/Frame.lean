import Periapsis.Foci.Representation

/-!
# Facts about containers are local

A fact about a container is about the container it names.
-/

namespace Periapsis

open Periapsis.Types List Option

namespace Types

def Fact.named : Fact → Option String
  | .unit f =>
    let containerName := Foci.parseContainerFromUnit f.unitName
    if containerName = "" then none else some containerName
  | .containerState f => some f.container
  | .exit f => some f.container
  | .probe f => some f.container
  | .markRunning f => some f.containerName
  | .backoffReset f => some f.containerName
  | _ => none

end Types

namespace Foci

variable {state : PodState} {clock : Clock} {fact : Fact} {c : String}

theorem handlerOf_named (h : fact.named = some c) (state : PodState) (clock : Clock) :
  ∃ han, handlerOf state clock fact = some (c, han)
  := by
  cases fact with
  | unit f =>
    simp only [Fact.named, ite_none_left_eq_some] at h
    obtain ⟨hne, hn⟩ := h
    cases hn
    use unitTouch state f (parseContainerFromUnit f.unitName) clock
    simp [handlerOf, hne]
  | containerState f =>
    cases h
    use pollTouch state f clock
    rfl
  | exit f =>
    cases h
    use exitTouch state f
    rfl
  | probe f =>
    cases h
    use probeTouch state f
    rfl
  | markRunning f =>
    cases h
    use fun cv => .leave { cv with seenRunning := true } []
    rfl
  | backoffReset f =>
    cases h
    use fun cv => .leave { cv with backoff := restartBackoffInit } []
    rfl
  | _ => cases h

variable {containers : List ContainerState}

theorem handlerOf_congr :
  handlerOf { state with containers := containers, phase := phase } clock fact
    = handlerOf state clock fact
  := by
  cases fact <;> rfl

theorem findContainer_eq_findIdx? :
  state.findContainer name = state.containerNames.findIdx? (· = name)
  := by
  simp [PodState.findContainer, PodState.containerNames, findIdx?_map, Function.comp_def]

/-! ### One fact -/

section

variable (h : fact.named = some c)
include h

theorem touched_named (state : PodState) (clock : Clock) :
  ∃ han, handlerOf state clock fact = some (c, han)
    ∧ touched state clock fact
      = (state.findContainer c).map fun idx => (idx, han (state.container idx))
  := by
  obtain ⟨han, hh⟩ := handlerOf_named h state clock
  use han, hh
  cases hf : state.findContainer c with
  | _ => simp [touched, hh, hf]

theorem reduce_named (hud : state.uid ≠ "") :
  reduce state fact clock
    = match touched state clock fact with
      | none => (state, [])
      | some (idx, touch) => conclude state clock idx touch
  := by
  cases ht : touched state clock fact with
  | some found =>
    apply reduce_touched hud ht
  | none =>
    have hst := reduce_step state fact clock
    generalize reduce state fact clock = result at hst
    cases hst with
    | ignored _ => rfl
    | touched h' => simp [ht] at h'
    | synced hp =>
      cases fact with
      | spec | podAdmit => cases h
      | _ => cases hp
    | evicted hev =>
      cases fact with
      | podEvict f => cases h
      | _ => cases hev

theorem reduce_unnamed (hc : c ∉ state.containerNames) (clock : Clock) :
  reduce state fact clock = (state, [])
  := by
  by_cases hud : state.uid = ""
  · apply reduce_untracked hud
  · obtain ⟨han, -, ht⟩ := touched_named h state clock
    rw [reduce_named h hud, ht, PodState.findContainer_eq_none.2 hc]
    rfl

theorem reduce_named_containers (hud : state.uid ≠ "") :
  (reduce state fact clock).1.containers
    = match touched state clock fact with
      | none => state.containers
      | some (idx, touch) => state.containers.set idx touch.container
  := by
  rw [reduce_named h hud]
  cases touched state clock fact with
  | none => rfl
  | some found => apply conclude_containers

theorem reduce_named_restarts (hud : state.uid ≠ "") :
  (reduce state fact clock).2.filterMap Effect.restart
    = match touched state clock fact with
      | none => []
      | some (_, touch) => touch.effects.filterMap Effect.restart
  := by
  rw [reduce_named h hud]
  cases touched state clock fact with
  | none => rfl
  | some found => apply conclude_restarts

end

def SameExcept (c : String) (containers containers' : List ContainerState) : Prop :=
  List.Forall₂ (fun cv cv' => cv'.name = cv.name ∧ (cv.name ≠ c → cv' = cv)) containers containers'

theorem sameExcept_refl (c : String) (containers : List ContainerState) :
  SameExcept c containers containers
  := by
  apply forall₂_same.2
  intro cv _
  simp

theorem sameExcept_set (hlt : idx < containers.length) (hn : containers[idx].name = c)
    {cv : ContainerState} (hcv : cv.name = c) :
  SameExcept c containers (containers.set idx cv)
  := by
  apply forall₂_iff_get.2
  constructor
  · simp
  · intro i hi _
    simp only [get_eq_getElem, getElem_set]
    split
    next heq =>
      subst heq
      exact ⟨hcv.trans hn.symm, fun hne => absurd hn hne⟩
    · simp

theorem SameExcept.names (h : SameExcept c containers containers') :
  containers'.map ContainerState.name = containers.map ContainerState.name
  := by
  induction h with
  | nil => rfl
  | cons hcv _ ih => rw [map_cons, map_cons, hcv.1, ih]

theorem reduce_frame (h : fact.named = some c) (state : PodState) (clock : Clock) :
  let next := (reduce state fact clock).1
  next = { state with containers := next.containers, phase := next.phase }
    ∧ SameExcept c state.containers next.containers
  := by
  by_cases hud : state.uid = ""
  · rw [reduce_untracked hud]
    exact ⟨rfl, sameExcept_refl c _⟩
  · obtain ⟨han, -, ht⟩ := touched_named h state clock
    rw [reduce_named h hud]
    cases hf : state.findContainer c with
    | none =>
      rw [ht, hf]
      exact ⟨rfl, sameExcept_refl c _⟩
    | some idx =>
      rw [hf] at ht
      obtain ⟨hlt, hn, -⟩ := PodState.findContainer_eq_some.1 hf
      have hk := (touched_lawful ht).name_eq
      rw [(PodState.container_of_find hf).2] at hk
      rw [ht]
      constructor
      · simp only [map_some, conclude_fst]
        rfl
      · simp only [map_some, conclude_containers]
        apply sameExcept_set hlt hn hk

/-! ### Two facts -/

variable {other : Fact}

theorem touched_of_other (h : fact.named = some c) (ho : other.named = some d) (hne : c ≠ d) :
  touched (reduce state other clock').1 clock fact = touched state clock fact
  := by
  obtain ⟨hfr, hs⟩ := reduce_frame ho state clock'
  obtain ⟨han, hh, ht⟩ := touched_named h state clock
  obtain ⟨had, hha, hto⟩ := touched_named h (reduce state other clock').1 clock
  rw [hfr, handlerOf_congr, hh] at hha
  cases hha
  have hf : (reduce state other clock').1.findContainer c = state.findContainer c := by
    rw [findContainer_eq_findIdx?, findContainer_eq_findIdx?, PodState.containerNames, hs.names]
    rfl
  rw [ht, hto, hf]
  cases hid : state.findContainer c with
  | none => rfl
  | some idx =>
    obtain ⟨hlt, hn, -⟩ := PodState.findContainer_eq_some.1 hid
    obtain ⟨hl, hg⟩ := forall₂_iff_get.1 hs
    have hk := (hg idx hlt (hl ▸ hlt)).2 (by simpa [hn] using hne)
    have hco : (reduce state other clock').1.container idx = state.container idx := by
      simpa [PodState.container, hlt, hl ▸ hlt] using hk
    rw [map_some, map_some, hco]

theorem touched_idx_ne (h : fact.named = some c) (ho : other.named = some d) (hne : c ≠ d)
    (ht : touched state clock fact = some (idx, touch))
    (hto : touched state clock' other = some (idx', touch')) :
  idx ≠ idx'
  := by
  rintro rfl
  obtain ⟨han, -, heq⟩ := touched_named h state clock
  obtain ⟨had, -, heq'⟩ := touched_named ho state clock'
  rw [ht] at heq
  rw [hto] at heq'
  obtain ⟨i, hf, hi⟩ := map_eq_some_iff.1 heq.symm
  obtain ⟨j, hfi, hj⟩ := map_eq_some_iff.1 heq'.symm
  cases hi
  cases hj
  apply hne
  rw [← (PodState.container_of_find hf).2, ← (PodState.container_of_find hfi).2]

theorem reduce_named_uid (h : fact.named = some c) :
  (reduce state fact clock).1.uid = state.uid
  := by
  rw [(reduce_frame h state clock).1]

variable {a b : Fact × Clock}

theorem containers_comm (ha : a.1.named = some c) (hb : b.1.named = some d) (hne : c ≠ d)
    (state : PodState) :
  (reducer.final state [a, b]).containers = (reducer.final state [b, a]).containers
  := by
  change (reduce (reduce state a.1 a.2).1 b.1 b.2).1.containers
    = (reduce (reduce state b.1 b.2).1 a.1 a.2).1.containers
  by_cases hud : state.uid = ""
  · simp [reduce_untracked hud]
  · have hu : (reduce state a.1 a.2).1.uid ≠ "" := by rwa [reduce_named_uid ha]
    have hui : (reduce state b.1 b.2).1.uid ≠ "" := by rwa [reduce_named_uid hb]
    rw [reduce_named_containers hb hu, reduce_named_containers ha hui,
      touched_of_other hb ha hne.symm, touched_of_other ha hb hne,
      reduce_named_containers ha hud, reduce_named_containers hb hud]
    cases htc : touched state b.2 b.1 with
    | none => rfl
    | some foundb =>
      cases htu : touched state a.2 a.1 with
      | none => rfl
      | some founda =>
        apply set_comm
        apply touched_idx_ne ha hb hne htu htc

theorem restarts_perm (ha : a.1.named = some c) (hb : b.1.named = some d) (hne : c ≠ d)
    (state : PodState) :
  ((reducer.outputs state [a, b]).filterMap Effect.restart).Perm
    ((reducer.outputs state [b, a]).filterMap Effect.restart)
  := by
  simp only [reducer.outputs_cons, reducer.outputs_nil, append_nil, filterMap_append]
  change (filterMap _ (reduce state a.1 a.2).2
      ++ filterMap _ (reduce (reduce state a.1 a.2).1 b.1 b.2).2).Perm
    (filterMap _ (reduce state b.1 b.2).2
      ++ filterMap _ (reduce (reduce state b.1 b.2).1 a.1 a.2).2)
  by_cases hud : state.uid = ""
  · simp [reduce_untracked hud]
  · have hu : (reduce state a.1 a.2).1.uid ≠ "" := by rwa [reduce_named_uid ha]
    have hui : (reduce state b.1 b.2).1.uid ≠ "" := by rwa [reduce_named_uid hb]
    rw [reduce_named_restarts hb hu, reduce_named_restarts ha hui,
      touched_of_other hb ha hne.symm, touched_of_other ha hb hne,
      reduce_named_restarts ha hud, reduce_named_restarts hb hud]
    apply perm_append_comm

/-- A fact about a container changes at most that container and the phase, and facts about two
containers lead to the same containers and restarts in either order. -/
theorem container_facts_local
    (state : PodState) (a : Fact × Clock) (c : String) (ha : a.1.named = some c) :
  ((reduce state a.1 a.2).1
      = { state with
          containers := (reduce state a.1 a.2).1.containers
          phase := (reduce state a.1 a.2).1.phase }
    ∧ SameExcept c state.containers (reduce state a.1 a.2).1.containers)
  ∧ (c ∉ state.containerNames → reduce state a.1 a.2 = (state, []))
  ∧ ∀ (b : Fact × Clock) (d : String), b.1.named = some d → c ≠ d →
      (reducer.final state [a, b]).containers = (reducer.final state [b, a]).containers
      ∧ ((reducer.outputs state [a, b]).filterMap Effect.restart).Perm
          ((reducer.outputs state [b, a]).filterMap Effect.restart)
  := by
  refine ⟨reduce_frame ha state a.2, ?_, ?_⟩
  · intro hc
    apply reduce_unnamed ha hc
  · intro b d hb hne
    exact ⟨containers_comm ha hb hne state, restarts_perm ha hb hne state⟩

theorem container_facts_local_crashes :
  let state := newPodState "u" "default" "web" "" ⟨.always, [{ name := "a" }, { name := "b" }]⟩ {}
  let a : Fact × Clock := (.containerState ⟨"u", "a", .failed, 1⟩, {})
  let b : Fact × Clock := (.containerState ⟨"u", "b", .exited, 0⟩, {})
  (reducer.final state [a, b]).containers = (reducer.final state [b, a]).containers
    ∧ ((reducer.outputs state [a, b]).filterMap Effect.restart).length = 2
  := by
  intro state a b
  exact ⟨((container_facts_local state a "a" rfl).2.2 b "b" rfl (by decide)).1, by decide⟩

end Foci

end Periapsis
