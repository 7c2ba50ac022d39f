import Mathlib.Data.List.Induction
import Periapsis.Expansion.Expand

/-!
# The environment of a container

References to the cluster are looked up, references to variables expanded, and the result replaces
what was declared.
-/

namespace Periapsis.Podutils

open Expansion List Function Prod

/-- A reference to a key of a ConfigMap or a Secret. -/
structure KeyRef where
  name : List Char
  key : List Char
  optional : Bool := false
  deriving DecidableEq

structure EnvVarSource where
  configMapKeyRef : Option KeyRef := none
  secretKeyRef : Option KeyRef := none
  fieldRef : Option (List Char) := none
  resourceFieldRef : Option (List Char) := none
  deriving DecidableEq

structure EnvVar where
  name : List Char
  value : List Char := []
  valueFrom : Option EnvVarSource := none
  deriving DecidableEq

structure ObjectRef where
  name : List Char
  optional : Bool := false
  deriving DecidableEq

structure EnvFromSource where
  pre : List Char := []
  configMapRef : Option ObjectRef := none
  secretRef : Option ObjectRef := none
  deriving DecidableEq

structure Container where
  env : List EnvVar
  envFrom : List EnvFromSource := []
  deriving DecidableEq

inductive ObjectKind where
  | configMap
  | secret
  deriving DecidableEq

inductive GetError where
  | notFound
  | unreadable
  deriving DecidableEq

inductive EnvError where
  | object (kind : ObjectKind) (name : List Char) (reason : GetError)
  | noKey (kind : ObjectKind) (name key : List Char)
  | field
  | listServices
  deriving DecidableEq

/-- A map of the source, in an order in which it is walked. -/
structure Data where
  entries : List (List Char × List Char)
  distinct : (entries.map fst).Nodup

def Data.value (data : Data) : Vars :=
  fun key => data.entries.lookup key

instance : Coe Data Vars := ⟨Data.value⟩

instance : CoeFun Data fun _ => Vars := ⟨Data.value⟩

/-- What populating asks for: the data of ConfigMaps and Secrets, the fields of the pod and the
variables of the services; and which names are valid. -/
structure Cluster where
  get : ObjectKind → List Char → Except GetError Data
  podFieldSelectorRuntimeValue : List Char → Except EnvError (List Char)
  getServiceEnvVarMap : Except EnvError Data
  isEnvVarName : List Char → Bool

/-! ### Populating -/

variable (cl : Cluster)

/-- One turn of the loop over the data of an object. -/
def Cluster.addKey (pre : List Char) (res : Vars) (entry : List Char × List Char) :
    Vars :=
  let key := if pre.length > 0 then pre ++ entry.1 else entry.1
  if cl.isEnvVarName key then update res key (some entry.2) else res

def Cluster.fromObject (kind : ObjectKind) (ref : ObjectRef) (pre : List Char)
    (res : Vars) : Except EnvError Vars :=
  match cl.get kind ref.name with
  | .error reason => if ref.optional then .ok res else .error (.object kind ref.name reason)
  | .ok data => .ok (data.entries.foldl (cl.addKey pre) res)

def Cluster.fromSource (res : Vars) (src : EnvFromSource) : Except EnvError Vars :=
  match src.configMapRef, src.secretRef with
  | some ref, _ => cl.fromObject .configMap ref src.pre res
  | none, some ref => cl.fromObject .secret ref src.pre res
  | none, none => .ok res

def makeEnvironmentMapBasedOnEnvFrom (container : Container) :
    Except EnvError Vars :=
  container.envFrom.foldlM cl.fromSource fun _ => none

def Cluster.keyValue (kind : ObjectKind) (ref : KeyRef) :
    Except EnvError (Option (List Char)) :=
  match cl.get kind ref.name with
  | .error reason => if ref.optional then .ok none else .error (.object kind ref.name reason)
  | .ok data =>
    match data ref.key with
    | some value => .ok (some value)
    | none => if ref.optional then .ok none else .error (.noKey kind ref.name ref.key)

def getEnvironmentVariableValueWithValueFrom (src : EnvVarSource) :
    Except EnvError (Option (List Char)) :=
  match src.configMapKeyRef, src.secretKeyRef, src.fieldRef with
  | some ref, _, _ => cl.keyValue .configMap ref
  | none, some ref, _ => cl.keyValue .secret ref
  | none, none, some path => (cl.podFieldSelectorRuntimeValue path).map some
  -- the resources of containers, and what is not known, have no value
  | none, none, none => .ok none

def getEnvironmentVariableValue (mapping : List Char → List Char) (env : EnvVar) :
    Except EnvError (Option (List Char)) :=
  match env.valueFrom with
  | some src => getEnvironmentVariableValueWithValueFrom cl src
  | none => .ok (some (expand env.value mapping))

def Cluster.addEntry (svcEnv res : Vars) (env : EnvVar) : Except EnvError Vars := do
  let value ← getEnvironmentVariableValue cl (mappingFuncFor [res, svcEnv]) env
  match value with
  | some value => pure (update res env.name (some value))
  | none => pure res

def appendServices (svcEnv : Data) (res : Vars) : Vars :=
  svcEnv.entries.foldl
    (fun res e => if (res e.1).isSome then res else update res e.1 (some e.2)) res

def makeEnvironmentMap (container : Container) (res : Vars) :
    Except EnvError Vars := do
  let svcEnv ← cl.getServiceEnvVarMap
  let res ← container.env.foldlM (cl.addEntry svcEnv) res
  pure (appendServices svcEnv res)

def environment (container : Container) : Except EnvError Vars := do
  let tmpEnv ← makeEnvironmentMapBasedOnEnvFrom cl container
  makeEnvironmentMap cl container tmpEnv

def valueIn (env : List EnvVar) (n : List Char) : Option (List Char) :=
  (env.find? fun e => e.name = n).map EnvVar.value

structure Walks (res : Vars) (env : List EnvVar) : Prop where
  nodup : (env.map EnvVar.name).Nodup
  direct : ∀ e ∈ env, e.valueFrom = none
  value : ∀ n, valueIn env n = res n

structure Populates (cl : Cluster) (c c' : Container) (res : Vars) : Prop where
  eq : environment cl c = .ok res
  env : Walks res c'.env
  envFrom : c'.envFrom = []

/-! ### Precedence -/

/-- The data of the object that a source refers to. -/
def Cluster.object (src : EnvFromSource) : Option Data :=
  match src.configMapRef, src.secretRef with
  | some ref, _ => (cl.get .configMap ref.name).toOption
  | none, some ref => (cl.get .secret ref.name).toOption
  | none, none => none

/-- The value that a source provides for a name: the name is valid, and is the prefix of the source
followed by a key of its object. -/
def Cluster.provides (src : EnvFromSource) (n : List Char) : Option (List Char) :=
  if cl.isEnvVarName n then
    (cl.object src).bind fun data =>
      (data.entries.find? fun e => src.pre ++ e.1 = n).map snd
  else none

def Cluster.lastProvided (envFrom : List EnvFromSource) (n : List Char) :
    Option (List Char) :=
  envFrom.reverse.findSome? fun src => cl.provides src n

variable {cl}

def lastNamed (env : List EnvVar) (values : List (Option (List Char))) (n : List Char) :
    Option (List Char) :=
  (env.zip values).reverse.findSome? fun p => if p.1.name = n then p.2 else none

structure Resolved (cl : Cluster) (base : Vars) (env : List EnvVar)
    (values : List (Option (List Char))) : Prop where
  length : values.length = env.length
  direct : ∀ (i : Nat) (e : EnvVar), env[i]? = some e → e.valueFrom = none →
    values[i]? = some (some (expand e.value fun m =>
      ((lastNamed (env.take i) (values.take i) m).or (base m)).getD (syntaxWrap m)))
  referred : ∀ (i : Nat) (e : EnvVar) (src : EnvVarSource), env[i]? = some e →
    e.valueFrom = some src → ∃ value, values[i]? = some value
      ∧ getEnvironmentVariableValueWithValueFrom cl src = .ok value

section Precedence

theorem ok_of_bind {ε α β : Type} {x : Except ε α} {f : α → Except ε β} {b : β}
    (h : x >>= f = .ok b) :
  ∃ a, x = .ok a ∧ f a = .ok b
  := by
  cases x with
  | error e => cases h
  | ok a => exact ⟨a, rfl, h⟩

theorem addKey_eq {pre : List Char} {e : List Char × List Char} :
  cl.addKey pre res e
    = if cl.isEnvVarName (pre ++ e.1) then update res (pre ++ e.1) (some e.2) else res
  := by
  have hky : (if pre.length > 0 then pre ++ e.1 else e.1) = pre ++ e.1 := by
    cases pre with
    | _ => simp
  rw [Cluster.addKey, hky]

theorem foldl_addKey {pre : List Char} {entries : List (List Char × List Char)}
    (hno : (entries.map fst).Nodup) (res : Vars) (n : List Char) :
  entries.foldl (cl.addKey pre) res n
    = (if cl.isEnvVarName n then (entries.find? fun e => pre ++ e.1 = n).map snd
        else none).or (res n)
  := by
  induction entries generalizing res with
  | nil => simp
  | cons e entries ih =>
    rw [map_cons, nodup_cons] at hno
    rw [foldl_cons, ih hno.2, addKey_eq, find?_cons]
    by_cases hn : pre ++ e.1 = n
    · have hnn : (entries.find? fun e => pre ++ e.1 = n) = none := by
        rw [find?_eq_none]
        intro e' he' heq
        rw [decide_eq_true_eq, ← hn] at heq
        exact hno.1 (mem_map.2 ⟨e', he', append_cancel_left heq⟩)
      rw [hnn, hn]
      by_cases hva : cl.isEnvVarName n
      · simp [hva]
      · simp [hva]
    · have hre : (if cl.isEnvVarName (pre ++ e.1) then update res (pre ++ e.1) (some e.2)
          else res) n = res n := by
        split
        · exact update_of_ne (Ne.symm hn) _ _
        · rfl
      simp [hn, hre]

theorem fromObject_eq_ok {kind : ObjectKind} (h : cl.fromObject kind ref pre res = .ok res')
    (n : List Char) :
  res' n = (if cl.isEnvVarName n then (cl.get kind ref.name).toOption.bind fun data =>
      (data.entries.find? fun e => pre ++ e.1 = n).map snd else none).or (res n)
  := by
  unfold Cluster.fromObject at h
  split at h
  next hge =>
    split_ifs at h
    cases h
    rw [hge]
    simp [Except.toOption]
  next data hge =>
    cases h
    rw [hge]
    exact foldl_addKey data.distinct res n

theorem fromSource_eq_ok (h : cl.fromSource res src = .ok res') :
  res' n = (cl.provides src n).or (res n)
  := by
  unfold Cluster.fromSource at h
  unfold Cluster.provides Cluster.object
  split at h
  · apply fromObject_eq_ok h
  · apply fromObject_eq_ok h
  · cases h
    simp

theorem appendServices_eq (svcEnv : Data) (res : Vars) (n : List Char) :
  appendServices svcEnv res n = (res n).or (svcEnv n)
  := by
  rw [appendServices, Data.value]
  induction svcEnv.entries generalizing res with
  | nil => simp
  | cons e entries ih =>
    rw [foldl_cons, ih, lookup_cons]
    by_cases hn : n = e.1
    · subst hn
      cases hre : res e.1 with
      | _ => simp [hre]
    · rw [beq_false_of_ne hn]
      split
      · rfl
      · rw [update_of_ne hn]

variable {res res' : Vars}

theorem foldlM_fromSource {envFrom : List EnvFromSource}
    (h : envFrom.foldlM cl.fromSource res = .ok res') :
  res' n = (cl.lastProvided envFrom n).or (res n)
  := by
  induction envFrom using reverseRecOn generalizing res' with
  | nil =>
    cases h
    rfl
  | append_singleton envFrom src ih =>
    simp only [foldlM_append, foldlM_cons, foldlM_nil, bind_pure] at h
    obtain ⟨mid, hf, hl⟩ := ok_of_bind h
    rw [fromSource_eq_ok hl, ih hf, Cluster.lastProvided, Cluster.lastProvided,
      reverse_append, reverse_singleton, singleton_append, findSome?_cons]
    cases cl.provides src n with
    | _ => rfl

variable {env : List EnvVar}

theorem lastNamed_concat {values : List (Option (List Char))} (hle : values.length = env.length) :
  lastNamed (env ++ [e]) (values ++ [value]) n
    = (if e.name = n then value else none).or (lastNamed env values n)
  := by
  rw [lastNamed, zip_append hle.symm, reverse_append]
  simp only [zip_cons_cons, zip_nil_left, reverse_singleton, singleton_append,
    findSome?_cons, lastNamed]
  cases (if e.name = n then value else none) with
  | _ => rfl

variable {svcEnv : Vars}

theorem mappingFuncFor_pair :
  mappingFuncFor [res, svcEnv] = fun m => ((res m).or (svcEnv m)).getD (syntaxWrap m)
  := by
  funext m
  simp only [mappingFuncFor, findSome?_cons, findSome?_nil]
  cases res m with
  | none =>
    cases svcEnv m with
    | _ => rfl
  | some v => rfl

theorem Resolved.concat {base : Vars} (h : Resolved cl base env values)
    {value : Option (List Char)}
    (hv : getEnvironmentVariableValue cl (fun m => ((lastNamed env values m).or (base m)).getD
      (syntaxWrap m)) e = .ok value) :
  Resolved cl base (env ++ [e]) (values ++ [value])
  := by
  have hc {i : Nat} {e' : EnvVar} (hge : (env ++ [e])[i]? = some e') :
      (env[i]? = some e' ∧ (values ++ [value])[i]? = values[i]?
        ∧ (env ++ [e]).take i = env.take i ∧ (values ++ [value]).take i = values.take i)
      ∨ (e' = e ∧ (values ++ [value])[i]? = some value
        ∧ (env ++ [e]).take i = env ∧ (values ++ [value]).take i = values) := by
    rcases Nat.lt_trichotomy i env.length with hlt | rfl | hgt
    · left
      have hl : i < values.length := h.length ▸ hlt
      rw [getElem?_append_left hlt] at hge
      exact ⟨hge, getElem?_append_left hl, take_append_of_le_length (Nat.le_of_lt hlt),
        take_append_of_le_length (Nat.le_of_lt hl)⟩
    · right
      rw [getElem?_concat_length] at hge
      refine ⟨(Option.some.inj hge).symm, ?_, take_left, ?_⟩
      · rw [← h.length, getElem?_concat_length]
      · rw [← h.length, take_left]
    · rw [getElem?_eq_none (by simp; omega)] at hge
      cases hge
  refine ⟨by simp [h.length], ?_, ?_⟩
  · intro i e' hge hd
    rcases hc hge with ⟨hg, hva, hen, ho⟩ | ⟨rfl, hva, hen, ho⟩
    · rw [hva, hen, ho]
      exact h.direct i e' hg hd
    · rw [getEnvironmentVariableValue, hd] at hv
      cases hv
      rw [hva, hen, ho]
  · intro i e' src hge hsr
    rcases hc hge with ⟨hg, hva, -, -⟩ | ⟨rfl, hva, -, -⟩
    · rw [hva]
      exact h.referred i e' src hg hsr
    · rw [getEnvironmentVariableValue, hsr] at hv
      exact ⟨value, hva, hv⟩

theorem addEntry_eq_ok {e : EnvVar} (h : cl.addEntry svcEnv res e = .ok res') :
  ∃ value, getEnvironmentVariableValue cl
        (fun m => ((res m).or (svcEnv m)).getD (syntaxWrap m)) e = .ok value
    ∧ ∀ n, res' n = (if e.name = n then value else none).or (res n)
  := by
  rw [Cluster.addEntry, mappingFuncFor_pair] at h
  obtain ⟨value, hv, hre⟩ := ok_of_bind h
  refine ⟨value, hv, fun n => ?_⟩
  cases value with
  | none =>
    cases hre
    simp
  | some value =>
    cases hre
    by_cases hn : e.name = n
    · simp [hn]
    · simp [hn, Ne.symm hn]

theorem foldlM_addEntry (h : env.foldlM (cl.addEntry svcEnv) res = .ok res') :
  ∃ values, Resolved cl (fun m => (res m).or (svcEnv m)) env values
    ∧ ∀ n, res' n = (lastNamed env values n).or (res n)
  := by
  induction env using reverseRecOn generalizing res' with
  | nil =>
    cases h
    exact ⟨[], ⟨rfl, by simp, by simp⟩, fun _ => rfl⟩
  | append_singleton env e ih =>
    simp only [foldlM_append, foldlM_cons, foldlM_nil, bind_pure] at h
    obtain ⟨mid, hf, hl⟩ := ok_of_bind h
    obtain ⟨values, hr, hmi⟩ := ih hf
    obtain ⟨value, hv, hre⟩ := addEntry_eq_ok hl
    simp only [hmi, Option.or_assoc] at hv hre
    refine ⟨values ++ [value], hr.concat hv, fun n => ?_⟩
    rw [hre, lastNamed_concat hr.length, Option.or_assoc]

theorem environment_eq_ok {c : Container} (h : environment cl c = .ok res) :
  ∃ (tmpEnv : Vars) (svcEnv : Data) (mid : Vars), (∀ n, tmpEnv n = cl.lastProvided c.envFrom n)
    ∧ cl.getServiceEnvVarMap = .ok svcEnv
    ∧ c.env.foldlM (cl.addEntry svcEnv) tmpEnv = .ok mid
    ∧ ∀ n, res n = (mid n).or (svcEnv n)
  := by
  obtain ⟨tmpEnv, hfr, hm⟩ := ok_of_bind h
  obtain ⟨svcEnv, hs, hrs⟩ := ok_of_bind hm
  obtain ⟨mid, hf, hr⟩ := ok_of_bind hrs
  cases hr
  refine ⟨tmpEnv, svcEnv, mid, fun n => ?_, hs, hf, appendServices_eq svcEnv mid⟩
  rw [foldlM_fromSource hfr, Option.or_none]

end Precedence

/-- A variable has the value of the last entry of `env` for it that has one, or else of the last
entry of `envFrom` that provides it, or else that of the services. -/
theorem populate_precedence {cl : Cluster} {c c' : Container} {res : Vars}
    (h : Populates cl c c' res) :
  ∃ svcEnv values, cl.getServiceEnvVarMap = .ok svcEnv
    ∧ Resolved cl (fun m => (cl.lastProvided c.envFrom m).or (svcEnv m)) c.env values
    ∧ ∀ n, valueIn c'.env n
        = (lastNamed c.env values n).or ((cl.lastProvided c.envFrom n).or (svcEnv n))
  := by
  obtain ⟨tmpEnv, svcEnv, mid, hfr, hs, hf, hre⟩ := environment_eq_ok h.eq
  obtain ⟨values, hr, hmi⟩ := foldlM_addEntry hf
  simp only [hfr] at hr hmi
  refine ⟨svcEnv, values, hs, hr, fun n => ?_⟩
  rw [h.env.value, hre, hmi, Option.or_assoc]

def bareCluster : Cluster where
  get _ _ := .error .notFound
  podFieldSelectorRuntimeValue _ := .error .field
  getServiceEnvVarMap := .ok ⟨[], nodup_nil⟩
  isEnvVarName _ := true

def escapedContainer (b : String) : Container where
  env := [{ name := ['A'], value := ['1'] }, { name := ['B'], value := b.toList }]

def escapedVars (b : String) : Vars := fun n =>
  if n = ['A'] then some ['1'] else if n = ['B'] then some b.toList else none

theorem walks_escapedVars (b : String) :
  Walks (escapedVars b) (escapedContainer b).env
  := by
  refine ⟨by simp [escapedContainer], by simp [escapedContainer], fun n => ?_⟩
  by_cases hA : n = ['A']
  · simp [valueIn, escapedVars, escapedContainer, hA]
  · by_cases hB : n = ['B']
    · simp [valueIn, escapedVars, escapedContainer, hB]
    · simp [valueIn, escapedVars, escapedContainer, hA, hB, Ne.symm hA, Ne.symm hB]

theorem populates_escaped (b b' : String)
    (h : expand b.toList (mappingFuncFor [update (fun _ => none) ['A'] (some ['1']),
      fun _ => none]) = b'.toList) :
  Populates bareCluster (escapedContainer b) (escapedContainer b') (escapedVars b')
  := by
  refine ⟨?_, walks_escapedVars b', rfl⟩
  have hA : expand ['1'] (mappingFuncFor [fun _ => none, fun _ => none]) = ['1'] := rfl
  have hno : (⟨[], nodup_nil⟩ : Data).value = fun _ => none := rfl
  simp only [environment, makeEnvironmentMapBasedOnEnvFrom, makeEnvironmentMap, escapedContainer,
    bareCluster, foldlM_cons, foldlM_nil, Cluster.addEntry, getEnvironmentVariableValue,
    bind, Except.bind, pure, Except.pure, hno, hA, h, Except.ok.injEq]
  funext n
  rw [appendServices_eq, hno]
  by_cases hA : n = ['A']
  · simp [escapedVars, hA]
  · simp [escapedVars, update_apply, hA]

def exampleData (entries : List (String × String))
    (h : ((entries.map fun e => (e.1.toList, e.2.toList)).map fst).Nodup) : Data :=
  ⟨_, h⟩

/-- Two ConfigMaps, of which the second has a key of the first, a Secret, and two variables of
services. -/
def exampleCluster : Cluster where
  get
    | .configMap, ['c'] => .ok (exampleData [("A", "1"), ("2", "x")] (by decide))
    | .configMap, ['d'] => .ok (exampleData [("A", "4")] (by decide))
    | .secret, ['s'] => .ok (exampleData [("A", "2"), ("2", "3")] (by decide))
    | _, _ => .error .notFound
  podFieldSelectorRuntimeValue _ := .error .field
  getServiceEnvVarMap := .ok (exampleData [("A", "0"), ("S", "5")] (by decide))
  isEnvVarName n := n.head?.any Char.isAlpha

def exampleContainer : Container where
  env := [{ name := ['X'], value := "$(A)$(S)$(U)".toList },
    { name := ['X'], value := "$(X)$(PA)".toList },
    { name := ['Y'], valueFrom := some { secretKeyRef := some ⟨['s'], ['2'], false⟩ } }]
  envFrom := [{ configMapRef := some ⟨['c'], false⟩ },
    { pre := ['P'], secretRef := some ⟨['s'], false⟩ },
    { configMapRef := some ⟨['e'], true⟩ }, { configMapRef := some ⟨['d'], false⟩ }]

def populatedContainer : Container where
  env := [("X", "45$(U)2"), ("Y", "3"), ("A", "4"), ("PA", "2"), ("P2", "3"), ("S", "5")].map
    fun e => { name := e.1.toList, value := e.2.toList }

theorem walks_populatedContainer (h : environment exampleCluster exampleContainer = .ok res) :
  Walks res populatedContainer.env
  := by
  refine ⟨by decide, by decide, fun n => ?_⟩
  by_cases hn : n ∈ populatedContainer.env.map EnvVar.name
  · have hv : ∀ n ∈ populatedContainer.env.map EnvVar.name, valueIn populatedContainer.env n
        = (environment exampleCluster exampleContainer).toOption.bind (· n) := by
      decide +kernel
    rw [hv n hn, h]
    rfl
  · obtain ⟨tmpEnv, svcEnv, mid, hfr, hs, hf, hre⟩ := environment_eq_ok h
    obtain ⟨values, -, hmi⟩ := foldlM_addEntry hf
    have hla : lastNamed exampleContainer.env values n = none := by
      apply findSome?_eq_none_iff.2
      intro p hp
      apply if_neg
      rintro rfl
      have hex : ∀ e ∈ exampleContainer.env, e.name ∈ populatedContainer.env.map EnvVar.name := by
        decide
      exact hn (hex _ (of_mem_zip (mem_reverse.1 hp)).1)
    have hno : valueIn populatedContainer.env n = none := by
      simpa [valueIn] using hn
    obtain ⟨-, -, hA, hPA, hPt, hS⟩ : n ≠ ['X'] ∧ n ≠ ['Y'] ∧ n ≠ ['A'] ∧ n ≠ ['P', 'A']
        ∧ n ≠ ['P', '2'] ∧ n ≠ ['S'] := by
      simpa [populatedContainer] using hn
    have hsv : svcEnv n = none := by
      cases hs
      simp [Data.value, exampleData, lookup_cons, beq_false_of_ne hA, beq_false_of_ne hS]
    have hpr : exampleCluster.lastProvided exampleContainer.envFrom n = none := by
      have hin : n.head?.any Char.isAlpha → ['2'] ≠ n := by
        rintro hva rfl
        cases hva
      simpa [Cluster.lastProvided, Cluster.provides, Cluster.object, exampleContainer,
        exampleCluster, exampleData, Except.toOption, hA.symm, hPA.symm, hPt.symm] using hin
    rw [hre, hmi, hla, hsv, hfr, hpr, hno]
    rfl

theorem populate_precedence_example :
  exampleCluster.lastProvided exampleContainer.envFrom ['A'] = some ['4']
    ∧ ∃ svcEnv values, exampleCluster.getServiceEnvVarMap = .ok svcEnv
    ∧ Resolved exampleCluster
        (fun m => (exampleCluster.lastProvided exampleContainer.envFrom m).or (svcEnv m))
        exampleContainer.env values
    ∧ ∀ n, valueIn populatedContainer.env n
        = (lastNamed exampleContainer.env values n).or
          ((exampleCluster.lastProvided exampleContainer.envFrom n).or (svcEnv n))
  := by
  have heq : environment exampleCluster exampleContainer = .ok _ := rfl
  exact ⟨by decide +kernel, populate_precedence ⟨heq, walks_populatedContainer heq, rfl⟩⟩

end Periapsis.Podutils
