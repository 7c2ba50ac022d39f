import Periapsis.Foci.Representation
import Periapsis.Transition.Keyed

/-!
# The event loop

`processFact` reduces a fact in the state of the pod it is about, stores the new state, and pushes
what is emitted.
-/

namespace Periapsis.Syzygy

open Corev1 Periapsis.Types Foci Transition Option

abbrev States := String → Option PodState

def factUID (fact : Fact) : String :=
  fact.uid

def processFact (states : States) (fact : Fact) (clock : Clock) : States × List Effect :=
  let uid := factUID fact
  if uid = "" then (states, [])
  else
    let currentState := (states uid).getD {}
    let (newState, effects) := reduce currentState fact clock
    if newState.uid = "" then (Function.update states uid none, effects)
    else (Function.update states uid (some newState), effects)

def loop : Mealy States (Fact × Clock) Effect where
  step states input := processFact states input.1 input.2

def routing : Routing PodState (Fact × Clock) String where
  key input := factUID input.1
  accepts uid := uid ≠ ""
  zero := {}
  live state := state.uid ≠ ""

theorem loop_eq_keyed :
  loop = reducer.keyed routing
  := by
  apply Mealy.ext
  funext states input
  by_cases hu : factUID input.1 = ""
  · simp [loop, processFact, Mealy.keyed, routing, hu]
  · by_cases hl : (reduce ((states (factUID input.1)).getD {}) input.1 input.2).1.uid = ""
    all_goals simp [loop, processFact, Mealy.keyed, routing, reducer, hu, hl]

theorem reduce_uid (state : PodState) (fact : Fact) (clock : Clock) :
  (reduce state fact clock).1.uid = state.uid ∨ (reduce state fact clock).1.uid = ""
  := by
  have hst := reduce_step state fact clock
  generalize reduce state fact clock = next at hst ⊢
  cases hst with
  | touched =>
    left
    rw [conclude_fst]
    rfl
  | evicted => exact .inr rfl
  | _ => exact .inl rfl

def OwnUID (states : States) : Prop :=
  Mealy.Owned PodState.uid states

section Isolation

variable {states : States} {inputs inputs' : List (Fact × Clock)} {uid : String}

theorem loop_outputs (h : OwnUID states) :
  (loop.outputs states inputs).filter (·.uid = uid)
    = (loop.outputs states (inputs.filter (factUID ·.1 = uid))).filter (·.uid = uid)
  := by
  rw [loop_eq_keyed]
  apply Mealy.outputs_keyed _ _ _ _ h h rfl
  · intro state input hk hl
    rcases reduce_uid state input.1 input.2 with hsa | hz
    · exact hsa.trans hk
    · simp [routing, reducer, hz] at hl
  · intro input hl
    simp [routing, reducer, reduce_untracked] at hl
  · intro state input hk e he
    rw [← hk]
    apply reduce_effect_uid he
  · intro input
    simp [routing, reducer, reduce_untracked]

/-- If states are stored under their own UIDs, the state and the effects of a pod depend only on its
facts, not on how they are interleaved with others. -/
theorem loop_isolation
    (states : States) (h : OwnUID states) (inputs : List (Fact × Clock)) (uid : String) :
  (loop.final states inputs uid = loop.final states (inputs.filter (factUID ·.1 = uid)) uid
      ∧ (loop.outputs states inputs).filter (·.uid = uid)
        = (loop.outputs states (inputs.filter (factUID ·.1 = uid))).filter (·.uid = uid))
    ∧ ∀ inputs', inputs'.filter (factUID ·.1 = uid) = inputs.filter (factUID ·.1 = uid) →
        loop.final states inputs' uid = loop.final states inputs uid
          ∧ (loop.outputs states inputs').filter (·.uid = uid)
            = (loop.outputs states inputs).filter (·.uid = uid)
  := by
  have hf : ∀ is : List (Fact × Clock),
      loop.final states is uid = loop.final states (is.filter (factUID ·.1 = uid)) uid := by
    intro is
    rw [loop_eq_keyed]
    apply Mealy.final_keyed
    rfl
  refine ⟨⟨hf inputs, loop_outputs h⟩, ?_⟩
  intro inputs' hi
  constructor
  · rw [hf inputs', hf inputs, hi]
  · rw [loop_outputs h, hi, ← loop_outputs h]

theorem loop_isolation_two :
  let pod : Pod := ⟨.always, [{ name := "a" }]⟩
  let states : States := fun uid =>
    if uid = "u" ∨ uid = "v" then some (newPodState uid "default" uid "" pod {}) else none
  let crash : Fact × Clock := (.containerState ⟨"u", "a", .failed, 1⟩, {})
  loop.final states [crash, (.podEvict ⟨"v"⟩, {})] "u" = loop.final states [crash] "u"
  := by
  intro pod states crash
  apply (loop_isolation states _ [crash, (.podEvict ⟨"v"⟩, {})] "u").1.1
  intro uid state hs
  simp only [states, ite_none_right_eq_some, some.injEq] at hs
  obtain ⟨-, rfl⟩ := hs
  rfl

end Isolation

theorem loop_empty :
  loop.final (fun _ => none) inputs = fun _ => none
  := by
  apply loop.final_eq_self
  intro input _
  funext uid
  by_cases hu : factUID input.1 = ""
  · simp [loop, processFact, hu]
  · simp [loop, processFact, hu, reduce_untracked]

def Evicts (uid : String) (input : Fact × Clock) : Prop :=
  input.1.isEvict = true ∧ factUID input.1 = uid

def Admitted (inputs : List (Fact × Clock)) (uid : String) : Prop :=
  uid ≠ "" ∧ ∃ pre f clock post, inputs = pre ++ (.podAdmit f, clock) :: post
    ∧ f.uid = uid ∧ f.pod.isSome = true ∧ ∀ input ∈ post, ¬ Evicts uid input

/-- States are stored for exactly the pods that were admitted and not evicted since, if and only if
every admission is followed by an eviction. -/
theorem tracked_iff_evicted (inputs : List (Fact × Clock)) :
  (∀ uid, (loop.final (fun _ => none) inputs uid).isSome = true ↔ Admitted inputs uid)
    ↔ ∀ pre f clock post, inputs = pre ++ (.podAdmit f, clock) :: post →
        f.uid ≠ "" → f.pod.isSome = true → ∃ input ∈ post, Evicts f.uid input
  := by
  rw [loop_empty]
  simp only [isSome_none, Bool.false_eq_true, false_iff]
  constructor
  · intro h pre f clock post hi hu hp
    by_contra hn
    apply h f.uid
    refine ⟨hu, pre, f, clock, post, hi, rfl, hp, ?_⟩
    intro input hin hev
    apply hn ⟨input, hin, hev⟩
  · rintro h uid ⟨hu, pre, f, clock, post, hi, rfl, hp, hn⟩
    obtain ⟨input, hin, hev⟩ := h pre f clock post hi hu hp
    apply hn input hin hev

theorem admitted_not_tracked :
  let inputs : List (Fact × Clock) :=
    [(.podAdmit ⟨"u", "default", "web", "", some ⟨.always, [{ name := "a" }]⟩⟩, {})]
  Admitted inputs "u" ∧ (loop.final (fun _ => none) inputs "u").isSome = false
  := by
  intro inputs
  constructor
  · refine ⟨by decide, [], _, _, [], rfl, rfl, rfl, ?_⟩
    intro input hin
    cases hin
  · rfl

end Periapsis.Syzygy
