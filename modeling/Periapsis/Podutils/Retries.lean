import Mathlib.Data.List.Nodup
import Mathlib.Logic.Relation
import Periapsis.Podutils.Env

/-!
# Populating environments again

The creation of a pod is retried with the same pod object, and each attempt populates its
environments again.
-/

namespace Periapsis.Podutils

open Expansion List Option

/-- `PopulateEnvironmentVariables`, with whether all containers were populated; the services are
listed anew for each, which may fail. -/
inductive PopulateRun (cl : Cluster) : List Container → List Container → Bool → Prop
  | done : PopulateRun cl [] [] true
  | failed (c : Container) (cs : List Container) : PopulateRun cl (c :: cs) (c :: cs) false
  | next {c c' : Container} {cs cs' : List Container} {res : Vars} {ok : Bool}
      (h : Populates cl c c' res) (hrest : PopulateRun cl cs cs' ok) :
    PopulateRun cl (c :: cs) (c' :: cs') ok

/-- The variable has a value, given or looked up. -/
def EnvVar.hasValue (cl : Cluster) (e : EnvVar) : Bool :=
  match e.valueFrom with
  | none => true
  | some src =>
    match getEnvironmentVariableValueWithValueFrom cl src with
    | .ok (some _) => true
    | _ => false

/-- No value that is looked up has an operator, and one that is given directly only those of
references to variables known by then. -/
def Plain (cl : Cluster) (known : List Char → Bool) : List EnvVar → Prop
  | [] => True
  | e :: env =>
    (match e.valueFrom with
      | none => '$' ∉ expand e.value fun m => if known m then [] else ['$']
      | some src => ∀ value,
        getEnvironmentVariableValueWithValueFrom cl src = .ok (some value) → '$' ∉ value)
    ∧ Plain cl (fun m => known m || (e.name = m && e.hasValue cl)) env

def PlainVars (vars : Vars) : Prop :=
  ∀ n value, vars n = some value → '$' ∉ value

structure Retryable (cl : Cluster) (c : Container) : Prop where
  provided : PlainVars (cl.lastProvided c.envFrom)
  services : ∀ svcEnv, cl.getServiceEnvVarMap = .ok svcEnv → PlainVars svcEnv
  env : ∀ svcEnv, cl.getServiceEnvVarMap = .ok svcEnv →
    Plain cl (fun m => (cl.lastProvided c.envFrom m).isSome || (svcEnv m).isSome) c.env

theorem expandFrom_of_plain (hs : '$' ∉ s) :
  expandFrom mapping skip s = s.drop skip
  := by
  induction s generalizing skip with
  | nil => simp [expandFrom]
  | cons c s ih =>
    rw [mem_cons, not_or] at hs
    cases skip with
    | succ skip => rw [expandFrom, ih hs.2, drop_succ_cons]
    | zero =>
      rw [expandFrom, if_neg (fun h => hs.1 h.1.symm), ih hs.2]
      rfl

theorem plain_expandFrom (hfg : ∀ m, '$' ∉ f m → '$' ∉ g m) {skip : Nat}
    (h : '$' ∉ expandFrom f skip s) :
  '$' ∉ expandFrom g skip s
  := by
  induction s generalizing skip with
  | nil => simp [expandFrom]
  | cons c s ih =>
    cases skip with
    | succ skip =>
      exact ih h
    | zero =>
      rw [expandFrom] at h ⊢
      split_ifs at h ⊢ with ho
      · rw [mem_append, not_or] at h ⊢
        refine ⟨?_, ih h.2⟩
        split_ifs with hvr
        · rw [if_pos hvr] at h
          exact hfg _ h.1
        · rw [if_neg hvr] at h
          exact h.1
      · rw [mem_cons, not_or] at h ⊢
        exact ⟨h.1, ih h.2⟩

theorem PlainVars.or (ha : PlainVars a) (hb : PlainVars b) :
  PlainVars fun n => (a n).or (b n)
  := by
  intro n value hva
  rcases or_eq_some_iff.1 hva with hle | ⟨-, hri⟩
  · exact ha n value hle
  · exact hb n value hri

variable {cl : Cluster} {env : List EnvVar} {res : Vars}

theorem plain_value {base : Vars} (hba : PlainVars base) (he : Plain cl known (e :: env))
    (hk : ∀ m, known m → (base m).isSome)
    (h : getEnvironmentVariableValue cl (fun m => (base m).getD (syntaxWrap m)) e
      = .ok (some value)) :
  '$' ∉ value
  := by
  have he := he.1
  rw [getEnvironmentVariableValue] at h
  split at h
  next src hsr =>
    rw [hsr] at he
    exact he value h
  next hd =>
    rw [hd] at he
    cases h
    apply plain_expandFrom _ he
    intro m hm
    have hde : (base m).isSome := by
      apply hk
      by_contra hu
      simp [hu] at hm
    obtain ⟨v, hv⟩ := isSome_iff_exists.1 hde
    rw [hv]
    exact hba m v hv

theorem plainVars_foldlM (hsc : PlainVars svcEnv)
    (hk : ∀ m, known m → ((res m).or (svcEnv m)).isSome) (hre : PlainVars res)
    (hen : Plain cl known env) (h : env.foldlM (cl.addEntry svcEnv) res = .ok res') :
  PlainVars res'
  := by
  induction env generalizing known res with
  | nil =>
    cases h
    exact hre
  | cons e env ih =>
    obtain ⟨mid, had, hr⟩ := ok_of_bind h
    obtain ⟨value, hva, hmi⟩ := addEntry_eq_ok had
    apply ih _ _ hen.2 hr
    · intro m hm
      rw [hmi, Option.or_assoc, Option.isSome_or]
      rcases Bool.or_eq_true_iff.1 hm with hm | hm
      · rw [hk m hm, Bool.or_true]
      · rw [Bool.and_eq_true, decide_eq_true_eq] at hm
        have hso : value.isSome := by
          rw [getEnvironmentVariableValue] at hva
          rw [EnvVar.hasValue] at hm
          cases hsr : e.valueFrom with
          | none =>
            rw [hsr] at hva
            cases hva
            rfl
          | some src =>
            simp only [hsr] at hva hm
            rw [hva] at hm
            cases value with
            | none => simp at hm
            | some v => rfl
        rw [if_pos hm.1, hso, Bool.true_or]
    · intro n v hv
      rw [hmi] at hv
      rcases or_eq_some_iff.1 hv with hne | ⟨-, hol⟩
      · split_ifs at hne
        subst hne
        exact plain_value (hre.or hsc) hen hk hva
      · exact hre n v hol

theorem Retryable.plainVars (hc : Retryable cl c) (h : environment cl c = .ok res) :
  PlainVars res
  := by
  obtain ⟨tmpEnv, svcEnv, mid, hfr, hsc, hfo, hr⟩ := environment_eq_ok h
  obtain rfl : tmpEnv = cl.lastProvided c.envFrom := funext hfr
  obtain rfl : res = fun n => (mid n).or (svcEnv n) := funext hr
  apply PlainVars.or _ (hc.services svcEnv hsc)
  apply plainVars_foldlM (hc.services svcEnv hsc) _ hc.provided (hc.env svcEnv hsc) hfo
  intro m hm
  rw [isSome_or]
  exact hm

theorem foldlM_of_plain (hno : (env.map EnvVar.name).Nodup) (hd : ∀ e ∈ env, e.valueFrom = none)
    (hpl : ∀ e ∈ env, '$' ∉ e.value) (h : env.foldlM (cl.addEntry svcEnv) res = .ok res')
    (n : List Char) :
  res' n = (valueIn env n).or (res n)
  := by
  induction env generalizing res with
  | nil =>
    cases h
    rfl
  | cons e env ih =>
    obtain ⟨mid, had, hr⟩ := ok_of_bind h
    obtain ⟨value, hva, hmi⟩ := addEntry_eq_ok had
    rw [getEnvironmentVariableValue, hd e mem_cons_self] at hva
    cases hva
    rw [map_cons, nodup_cons] at hno
    rw [ih hno.2 (fun e he => hd e (mem_cons_of_mem _ he))
      (fun e he => hpl e (mem_cons_of_mem _ he)) hr, hmi, expand,
      expandFrom_of_plain (hpl e mem_cons_self), drop_zero, valueIn, valueIn,
      find?_cons]
    by_cases hn : e.name = n
    · have hnn : (env.find? fun e => e.name = n) = none := by
        rw [find?_eq_none]
        intro e' he'
        rw [decide_eq_true_eq]
        intro hna
        exact hno.1 (mem_map.2 ⟨e', he', hna.trans hn.symm⟩)
      simp [hn, hnn]
    · simp [hn]

theorem Walks.plain (h : Walks res env) (hr : PlainVars res) :
  ∀ e ∈ env, '$' ∉ e.value
  := by
  intro e he
  apply hr e.name
  rw [← h.value, valueIn]
  cases hf : env.find? fun e' => e'.name = e.name with
  | none => exact absurd (find?_eq_none.1 hf e he) (by simp)
  | some e' =>
    have hn : e'.name = e.name := by simpa using find?_some hf
    rw [inj_on_of_nodup_map h.nodup (mem_of_find?_eq_some hf) he hn]
    rfl

theorem Retryable.populates (hc : Retryable cl c) (h : Populates cl c m res)
    (h' : Populates cl m m' res') :
  Populates cl c m' res
  := by
  obtain ⟨-, svcEnv, mid, -, hsc, -, hr⟩ := environment_eq_ok h.eq
  obtain ⟨tmpEnv, svcEnv', mid', hfr, hsv, hfo, hrs⟩ := environment_eq_ok h'.eq
  rw [hsc] at hsv
  cases hsv
  have hmi := foldlM_of_plain h.env.nodup h.env.direct (h.env.plain (hc.plainVars h.eq)) hfo
  have hsa : res' = res := by
    funext n
    rw [hrs, hmi, hfr, h.envFrom, h.env.value, hr]
    simp [Cluster.lastProvided, Option.or_assoc]
  exact ⟨h.eq, hsa ▸ h'.env, h'.envFrom⟩

theorem PopulateRun.populated {pod : List Container} {ok : Bool} (hpd : ∀ c ∈ pod, Retryable cl c)
    (hmi : List.Forall₂ (fun c m => m = c ∨ ∃ res, Populates cl c m res) pod mid)
    (h : PopulateRun cl mid mid' ok) :
  List.Forall₂ (fun c m => (ok = false ∧ m = c) ∨ ∃ res, Populates cl c m res) pod mid'
  := by
  induction h generalizing pod with
  | done =>
    cases hmi
    exact .nil
  | failed c cs => exact hmi.imp fun _ _ h => h.imp_left fun h => ⟨rfl, h⟩
  | next h _ ih =>
    cases hmi with
    | cons hm hms =>
      refine .cons (.inr ?_) (ih (fun c hc => hpd c (mem_cons_of_mem _ hc)) hms)
      rcases hm with rfl | ⟨res, hm⟩
      · exact ⟨_, h⟩
      · exact ⟨res, (hpd _ mem_cons_self).populates hm h⟩

/-- However often the environments are populated, whatever failures there are in between, the last
success leaves the values that a first one would have left. -/
theorem populate_retried {cl : Cluster} {pod mid last single : List Container}
    (hpod : ∀ c ∈ pod, Retryable cl c)
    (hruns : Relation.ReflTransGen (fun a b => ∃ ok, PopulateRun cl a b ok) pod mid)
    (hlast : PopulateRun cl mid last true) (hsingle : PopulateRun cl pod single true) :
  List.Forall₂ (fun c c' => ∀ n, valueIn c.env n = valueIn c'.env n) last single
  := by
  have hst : List.Forall₂ (fun c m => m = c ∨ ∃ res, Populates cl c m res) pod pod :=
    forall₂_same.mpr fun c _ => .inl rfl
  have hmi : List.Forall₂ (fun c m => m = c ∨ ∃ res, Populates cl c m res) pod mid := by
    clear hlast
    induction hruns with
    | refl => exact hst
    | tail _ hrn ih =>
      obtain ⟨ok, hrn⟩ := hrn
      exact (hrn.populated hpod ih).imp fun _ _ h => h.imp_left And.right
  have hpo := hlast.populated hpod hmi
  have hfi := hsingle.populated hpod hst
  clear hruns hlast hsingle hst hmi hpod
  induction hpo generalizing single with
  | nil =>
    cases hfi
    exact .nil
  | cons h _ ih =>
    cases hfi with
    | cons h' hr =>
      refine .cons ?_ (ih hr)
      obtain ⟨res, h⟩ : ∃ res, Populates cl _ _ res := by simpa using h
      obtain ⟨res', h'⟩ : ∃ res, Populates cl _ _ res := by simpa using h'
      obtain rfl : res = res' := Except.ok.inj (h.eq.symm.trans h'.eq)
      intro n
      rw [h.env.value, h'.env.value]

theorem populate_retried_reference :
  List.Forall₂ (fun c c' => ∀ n, valueIn c.env n = valueIn c'.env n)
    [escapedContainer "1"] [escapedContainer "1"]
  := by
  have hp := populates_escaped "$(A)" "1" (by decide +kernel)
  have hag := populates_escaped "1" "1" (by decide +kernel)
  have hpl : Plain bareCluster (fun _ => false) (escapedContainer "$(A)").env :=
    ⟨by decide +kernel, by decide +kernel, trivial⟩
  have hre : ∀ c ∈ [escapedContainer "$(A)"], Retryable bareCluster c := by
    intro c hc
    obtain rfl := mem_singleton.mp hc
    refine ⟨nofun, ?_, ?_⟩
    · rintro _ ⟨⟩
      nofun
    · rintro _ ⟨⟩
      exact hpl
  exact populate_retried hre (.single ⟨true, .next hp .done⟩)
    (.next hag .done) (.next hp .done)

theorem populated_twice :
  PopulateRun bareCluster [escapedContainer "$$(A)"] [escapedContainer "$(A)"] true
    ∧ PopulateRun bareCluster [escapedContainer "$(A)"] [escapedContainer "1"] true
    ∧ valueIn (escapedContainer "$(A)").env ['B'] = some "$(A)".toList
    ∧ valueIn (escapedContainer "1").env ['B'] = some "1".toList
  := by
  refine ⟨.next (populates_escaped _ _ (by decide +kernel)) .done,
    .next (populates_escaped _ _ (by decide +kernel)) .done, by decide, by decide⟩

end Periapsis.Podutils
