import Periapsis.Network.Manager
import Periapsis.Transition.Mealy

/-!
# The CNI network manager

`constellationSetup` creates the network namespace of a pod and has the CNI plugin add it to the
network.
-/

namespace Periapsis.Network

inductive CNIAddress where
  | v4 (ip : Nat)
  | v6 (ip : Nat)
  deriving DecidableEq

def CNIAddress.to4 : CNIAddress → Option Nat
  | .v4 ip => some ip
  | .v6 _ => none

/-- A CNI result: its addresses, or `none` if it cannot be converted to the version the
manager reads. -/
structure CNIResult where
  ips : Option (List CNIAddress)
  deriving DecidableEq

def ipFromResult : Option CNIResult → Option Nat
  | none => none
  | some result => result.ips.bind fun ips => ips.findSome? CNIAddress.to4

/-- What an attempt finds in the cache of the CNI library: the result of the addition, no
result, or an error. -/
inductive CNICache where
  | present
  | missing
  | unreadable
  deriving DecidableEq

/-- How one attempt goes; `slot` is whether a slot for the call of the plugin comes free in time,
and `add` the result of adding the pod, if that succeeds. -/
structure ConstellationEnv where
  netnsAdd : Bool := true
  loUp : Bool := true
  slot : Bool := true
  add : Option CNIResult := none
  netnsDelete : Bool := true
  cache : CNICache := .present

inductive ConstellationError where
  | create (err : SetupError)
  | cancelled
  | add
  deriving DecidableEq

structure ConstellationState where
  host : Host
  added : Option CNIResult

def recoverIP (cache : CNICache) (added : Option CNIResult) : Option (Option Nat) :=
  match cache with
  | .unreadable => none
  | .missing => some (ipFromResult none)
  | .present => some (ipFromResult added)

variable (podUID : String)

def constellationSetup (s : ConstellationState) (env : ConstellationEnv) :
    ConstellationState × Except ConstellationError (String × Option Nat) :=
  let path := netnsPath (netnsName podUID)
  if (s.host.netns (netnsName podUID)).isSome then
    match recoverIP env.cache s.added with
    | none => (s, .ok (path, none))
    | some ip => (s, .ok (path, ip))
  else
    match createNetns env.netnsAdd env.loUp s.host (netnsName podUID) with
    | (host, some err) => (⟨host, none⟩, .error (.create err))
    | (host, none) =>
      if !env.slot then
        (⟨host.run2 env.netnsDelete (.netnsDelete (netnsName podUID)), none⟩, .error .cancelled)
      else
        match env.add with
        | none =>
          (⟨host.run2 env.netnsDelete (.netnsDelete (netnsName podUID)), none⟩, .error .add)
        | some result => (⟨host, some result⟩, .ok (path, ipFromResult (some result)))

def attempts :
    Transition.Mealy ConstellationState ConstellationEnv
      (Except ConstellationError (String × Option Nat)) where
  step s env := ((constellationSetup podUID s env).1, [(constellationSetup podUID s env).2])

def Connected (s : ConstellationState) (env : ConstellationEnv) : Prop :=
  ∀ path ip, (constellationSetup podUID s env).2 = .ok (path, ip) →
    ip ≠ none ∧ (constellationSetup podUID s env).1.added ≠ none
      ∧ (constellationSetup podUID s env).1.host.netns (netnsName podUID) ≠ none

def FindsAdded (s : ConstellationState) (env : ConstellationEnv) : Prop :=
  s.host.netns (netnsName podUID) ≠ none → s.added ≠ none ∧ env.cache = .present

/-- An attempt that finds the namespace finds the result in the cache, and one that creates it
brings up its loopback, and can take it away again. -/
def Tidy (s : ConstellationState) (env : ConstellationEnv) : Prop :=
  (s.host.netns (netnsName podUID) ≠ none → env.cache = .present)
    ∧ (s.host.netns (netnsName podUID) = none → env.netnsAdd = true →
      env.loUp = true ∧ (env.slot = false ∨ env.add = none → env.netnsDelete = true))

variable {podUID}

def AddsIPv4 (env : ConstellationEnv) : Prop :=
  ∀ result, env.add = some result → ipFromResult (some result) ≠ none

variable {s : ConstellationState} {env : ConstellationEnv}

inductive AttemptStep (podUID : String) (s : ConstellationState) (env : ConstellationEnv) :
    ConstellationState × Except ConstellationError (String × Option Nat) → Prop
  | found (hns : s.host.netns (netnsName podUID) ≠ none) :
      AttemptStep podUID s env
        (s, .ok (netnsPath (netnsName podUID), (recoverIP env.cache s.added).join))
  | notAdded (hns : s.host.netns (netnsName podUID) = none) (h : env.netnsAdd = false) :
      AttemptStep podUID s env
        (⟨s.host, none⟩, .error (.create (.command (.netnsAdd (netnsName podUID)))))
  | notUp (hns : s.host.netns (netnsName podUID) = none) (hadd : env.netnsAdd = true)
      (h : env.loUp = false) :
      AttemptStep podUID s env
        (⟨s.host.withNetns (netnsName podUID), none⟩,
          .error (.create (.command (.loUp (netnsName podUID)))))
  | withdrawn (hns : s.host.netns (netnsName podUID) = none) (hadd : env.netnsAdd = true)
      (h : env.slot = false ∨ env.add = none) (err : ConstellationError) :
      AttemptStep podUID s env
        (⟨(s.host.withNetns (netnsName podUID)).run2 env.netnsDelete
            (.netnsDelete (netnsName podUID)), none⟩, .error err)
  | added {result : CNIResult} (hns : s.host.netns (netnsName podUID) = none)
      (h : env.add = some result) :
      AttemptStep podUID s env
        (⟨s.host.withNetns (netnsName podUID), some result⟩,
          .ok (netnsPath (netnsName podUID), ipFromResult (some result)))

theorem attempt_step (podUID : String) (s : ConstellationState) (env : ConstellationEnv) :
  AttemptStep podUID s env (constellationSetup podUID s env)
  := by
  unfold constellationSetup
  cases hns : s.host.netns (netnsName podUID) with
  | some ns =>
    have hfo : AttemptStep podUID s env
        (s, .ok (netnsPath (netnsName podUID), (recoverIP env.cache s.added).join)) := by
      apply AttemptStep.found
      simp [hns]
    cases hre : recoverIP env.cache s.added with
    | _ => simpa [hre] using hfo
  | none =>
    simp only [Option.isSome_none, Bool.false_eq_true, if_false, createNetns_eq hns]
    cases ha : env.netnsAdd with
    | false => exact .notAdded hns ha
    | true =>
      cases hup : env.loUp with
      | false => exact .notUp hns ha hup
      | true =>
        cases hsl : env.slot with
        | false => exact .withdrawn hns ha (.inl hsl) _
        | true =>
          cases hr : env.add with
          | none => exact .withdrawn hns ha (.inr hr) _
          | some result => exact .added hns hr

def Addressed (s : ConstellationState) : Prop :=
  ∀ result, s.added = some result → ipFromResult (some result) ≠ none

theorem Addressed.attempt (h : Addressed s) (ha : AddsIPv4 env) (podUID : String) :
  Addressed (constellationSetup podUID s env).1
  := by
  have hs := attempt_step podUID s env
  generalize constellationSetup podUID s env = next at hs ⊢
  intro result hr
  cases hs with
  | found => exact h result hr
  | added _ hrs =>
    cases hr
    exact ha _ hrs
  | _ => cases hr

theorem connected_iff (h : Addressed s) (had : AddsIPv4 env) :
  Connected podUID s env ↔ FindsAdded podUID s env
  := by
  have hs := attempt_step podUID s env
  unfold Connected
  generalize constellationSetup podUID s env = next at hs ⊢
  cases hs with
  | found hns =>
    have hre : (recoverIP env.cache s.added).join ≠ none
        ↔ s.added ≠ none ∧ env.cache = .present := by
      cases hc : env.cache with
      | present =>
        cases ha : s.added with
        | none => simp [recoverIP, ipFromResult]
        | some result => simpa [recoverIP] using h result ha
      | missing => simp [recoverIP, ipFromResult]
      | unreadable => simp [recoverIP]
    constructor
    · intro hal _
      exact hre.1 (hal _ _ rfl).1
    · intro hf path ip heq
      cases heq
      exact ⟨hre.2 (hf hns), (hf hns).1, hns⟩
  | notAdded hns | notUp hns | withdrawn hns => simp [FindsAdded, hns]
  | added hns hr =>
    have hip := had _ hr
    simp only [FindsAdded, hns, ne_eq, not_true, false_implies, iff_true]
    intro path ip heq
    cases heq
    refine ⟨hip, by simp, ?_⟩
    simp [Host.withNetns_self]

theorem added_attempt (h : s.host.netns (netnsName podUID) ≠ none → s.added ≠ none)
    (hti : Tidy podUID s env) :
  (constellationSetup podUID s env).1.host.netns (netnsName podUID) ≠ none →
    (constellationSetup podUID s env).1.added ≠ none
  := by
  have hs := attempt_step podUID s env
  generalize constellationSetup podUID s env = next at hs ⊢
  cases hs with
  | found => exact h
  | notAdded hns => exact fun hne => absurd hns hne
  | notUp hns ha hup =>
    have hlo := (hti.2 hns ha).1
    simp [hup] at hlo
  | withdrawn hns ha ho =>
    intro hne
    rw [(hti.2 hns ha).2 ho] at hne
    exact absurd (Host.run2_netnsDelete_self _ _) hne
  | added => simp

/-- Every successful attempt returns an address and leaves a namespace on the network, exactly if
any namespace that is found was added, with its result cached. -/
theorem attempts_connected_iff (podUID : String) (host : Host) (envs : List ConstellationEnv)
    (hns : host.netns (netnsName podUID) = none) (hadd : ∀ env ∈ envs, AddsIPv4 env) :
  ((∀ pre env post, envs = pre ++ env :: post →
        Connected podUID ((attempts podUID).final ⟨host, none⟩ pre) env)
      ↔ (attempts podUID).Meets (FindsAdded podUID) ⟨host, none⟩ envs)
    ∧ ((attempts podUID).Meets (Tidy podUID) ⟨host, none⟩ envs →
        (attempts podUID).Meets (FindsAdded podUID) ⟨host, none⟩ envs)
  := by
  have had : ∀ pre env post, envs = pre ++ env :: post →
      Addressed ((attempts podUID).final ⟨host, none⟩ pre) := by
    rintro pre env post rfl
    apply (attempts podUID).final_induction (C := fun _ env => AddsIPv4 env)
    · intro result hr
      cases hr
    · intro t env ht hen
      exact ht.attempt hen podUID
    · apply (attempts podUID).meets_of_forall
      intro e he
      apply hadd e
      simp [he]
  constructor
  · rw [(attempts podUID).meets_iff_forall_split]
    apply forall₄_congr
    intro pre env post heq
    apply connected_iff (had pre env post heq)
    apply hadd env
    simp [heq]
  · intro hti
    rw [(attempts podUID).meets_iff_forall_split]
    rintro pre env post rfl
    have ha : ((attempts podUID).final ⟨host, none⟩ pre).host.netns (netnsName podUID) ≠ none →
        ((attempts podUID).final ⟨host, none⟩ pre).added ≠ none := by
      apply (attempts podUID).final_induction (C := Tidy podUID)
        (P := fun t => t.host.netns (netnsName podUID) ≠ none → t.added ≠ none)
      · exact fun hne => absurd hns hne
      · intro t e ht he
        exact added_attempt ht he
      · exact hti.left
    have hl := ((attempts podUID).meets_iff_forall_split _ _).mp hti pre env post rfl
    exact fun hne => ⟨ha hne, hl.1 hne⟩

/-- The loopback does not come up in the first attempt, and the second one succeeds without an
address, the pod not having been added to the network. -/
theorem not_connected_loopback :
  let s := (attempts "u").final ⟨{}, none⟩ [{ loUp := false }]
  let next := constellationSetup "u" s { add := some ⟨some [.v4 173539330]⟩ }
  next.2 = .ok ("/var/run/netns/peri-u", none) ∧ next.1.added = none
  := by
  decide

theorem attempts_connected_iff_retry :
  let result : CNIResult := ⟨some [.v6 1, .v4 173539330]⟩
  let s := (attempts "u").final ⟨{}, none⟩ [{}, { add := some result }]
  (constellationSetup "u" s {}).2 = .ok ("/var/run/netns/peri-u", some 173539330)
    ∧ Connected "u" s {}
  := by
  intro result s
  refine ⟨by decide, ?_⟩
  have has : ∀ env ∈ [({} : ConstellationEnv), { add := some result }, {}], AddsIPv4 env := by
    simp [AddsIPv4, ipFromResult, result, CNIAddress.to4]
  obtain ⟨hi, hti⟩ := attempts_connected_iff "u" {} _ rfl has
  have hm : (attempts "u").Meets (Tidy "u") ⟨{}, none⟩ [{}, { add := some result }, {}] := by
    simp only [Transition.Mealy.Meets, Tidy]
    decide
  exact hi.mpr (hti hm) [{}, { add := some result }] {} [] rfl

end Periapsis.Network
