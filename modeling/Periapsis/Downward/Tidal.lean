import Mathlib.Data.List.Nodup
import Periapsis.Podutils.Env

/-!
# The variables a container is started with

`resolveEnv` lists the variables of a container as texts `NAME=value`.
-/

namespace Periapsis.Downward

open Text Expansion Podutils List Option Function Prod

structure Tidal where
  nodeName : List Char
  nodeIP : List Char
  apiServerHost : List Char := []
  apiServerPort : List Char := []

structure PodIdentity where
  uid : List Char
  name : List Char
  podNamespace : List Char

structure Resolving where
  seen : List Char → Option Nat := fun _ => none
  resolved : List (List Char) := []

def entry (key val : List Char) : List Char :=
  key ++ '=' :: val

def Resolving.set (r : Resolving) (p : List Char × List Char) : Resolving :=
  match r.seen p.1 with
  | some idx => { r with resolved := r.resolved.set idx (entry p.1 p.2) }
  | none =>
    { seen := update r.seen p.1 (some r.resolved.length)
      resolved := r.resolved ++ [entry p.1 p.2] }

def Tidal.runtimeVars (t : Tidal) (pod : PodIdentity) (podIP : List Char) :
    List (List Char × List Char) :=
  [("MY_POD_IP".toList, podIP), ("MY_HOST_IP".toList, t.nodeIP),
    ("MY_NODE_NAME".toList, t.nodeName), ("MY_POD_UID".toList, pod.uid),
    ("MY_POD_NAME".toList, pod.name), ("MY_POD_NS".toList, pod.podNamespace)]

def Tidal.serverVars (t : Tidal) : List (List Char × List Char) :=
  [("KUBERNETES_SERVICE_HOST".toList, t.apiServerHost),
    ("KUBERNETES_SERVICE_PORT".toList, t.apiServerPort),
    ("KUBERNETES_SERVICE_PORT_HTTPS".toList, t.apiServerPort)]

def containerHasEnv (c : Container) (name : List Char) : Bool :=
  c.env.any fun e => e.name = name

def Tidal.injects (t : Tidal) (c : Container) : Bool :=
  t.apiServerHost ≠ [] && !containerHasEnv c "KUBERNETES_SERVICE_HOST".toList

def nameOf (text : List Char) : Option (List Char) :=
  (cut '=' text).map fst

def Tidal.resolveEnv (t : Tidal) (pod : PodIdentity) (c : Container) (podIP : List Char) :
    List (List Char) :=
  let r := c.env.foldl (fun r e => if e.value ≠ [] then r.set (e.name, e.value) else r) {}
  let r := (t.runtimeVars pod podIP).foldl Resolving.set r
  let r := if t.injects c then t.serverVars.foldl Resolving.set r else r
  r.resolved.filter fun text => (nameOf text).any (· ≠ [])

def written (vars : Vars) (writes : List (List Char × List Char)) : Vars :=
  writes.foldl (fun vars p => update vars p.1 (some p.2)) vars

structure Represents (r : Resolving) (keys : List (List Char)) (vars : Vars) : Prop where
  nodup : keys.Nodup
  mem : ∀ k, k ∈ keys ↔ (vars k).isSome = true
  resolved : r.resolved = keys.map fun k => entry k ((vars k).getD [])
  seen : ∀ k i, r.seen k = some i ↔ keys[i]? = some k

variable {r : Resolving} {keys : List (List Char)} {vars : Vars}

section

variable (h : Represents r keys vars)
include h

theorem Represents.replace (hs : r.seen k = some idx) (v : List Char) :
  Represents (r.set (k, v)) keys (update vars k (some v))
  := by
  have hid := (h.seen k idx).1 hs
  have hse : r.set (k, v) = { r with resolved := r.resolved.set idx (entry k v) } := by
    simp only [Resolving.set, hs]
  rw [hse]
  refine ⟨h.nodup, fun k' => ?_, ?_, h.seen⟩
  · rw [h.mem, update_apply]
    split_ifs with hk
    · rw [hk, ← h.mem]
      exact iff_of_true (mem_of_getElem? hid) rfl
    · rfl
  · rw [h.resolved]
    apply ext_getElem?
    intro j
    rw [getElem?_set, getElem?_map, getElem?_map, length_map]
    split_ifs with hj hlt
    · rw [← hj, hid, map_some, update_self]
      rfl
    · rw [getElem?_eq_none (Nat.le_of_not_lt hlt)] at hid
      cases hid
    · cases hk' : keys[j]? with
      | none => rfl
      | some k' =>
        have hne : k' ≠ k := by
          rintro rfl
          have hlt := (List.getElem?_eq_some_iff.1 hid).1
          exact hj ((getElem?_inj hlt h.nodup).1 (hid.trans hk'.symm))
        rw [map_some, map_some, update_of_ne hne]

theorem Represents.append (hs : r.seen k = none) (v : List Char) :
  Represents (r.set (k, v)) (keys ++ [k]) (update vars k (some v))
  := by
  have hse : r.set (k, v) =
      { seen := update r.seen k (some r.resolved.length)
        resolved := r.resolved ++ [entry k v] } := by
    simp only [Resolving.set, hs]
  have hk : k ∉ keys := by
    intro hm
    obtain ⟨i, hi⟩ := mem_iff_getElem?.mp hm
    rw [(h.seen k i).2 hi] at hs
    cases hs
  have hl : r.resolved.length = keys.length := by rw [h.resolved, length_map]
  rw [hse]
  refine ⟨?_, fun k' => ?_, ?_, fun k' i => ?_⟩
  · apply nodup_append.2 ⟨h.nodup, nodup_singleton k, _⟩
    rintro k' hk' _ hm rfl
    exact hk (mem_singleton.1 hm ▸ hk')
  · rw [mem_append, mem_singleton, h.mem, update_apply]
    split_ifs with hk'
    all_goals simp [hk']
  · dsimp only
    rw [h.resolved, map_append, map_singleton, update_self]
    congr 1
    apply map_congr_left
    intro k' hk'
    rw [update_of_ne]
    rintro rfl
    exact hk hk'
  · dsimp only
    rw [update_apply, getElem?_append, hl]
    by_cases hlt : i < keys.length
    · rw [if_pos hlt, ← h.seen]
      split_ifs with hk'
      · rw [hk', hs]
        simp
        omega
      · rfl
    · rw [if_neg hlt, getElem?_singleton]
      have hnn : keys[i]? = none := getElem?_eq_none (Nat.le_of_not_lt hlt)
      split_ifs with hk' hi hi
      · simp [hk']
        omega
      · simp
        omega
      · rw [h.seen, hnn]
        simp [Ne.symm hk']
      · simp [h.seen, hnn]

theorem Represents.set (p : List Char × List Char) :
  ∃ keys', Represents (r.set p) keys' (update vars p.1 (some p.2))
  := by
  cases hs : r.seen p.1 with
  | some idx => exact ⟨keys, h.replace hs p.2⟩
  | none => exact ⟨keys ++ [p.1], h.append hs p.2⟩

theorem represents_foldl (writes : List (List Char × List Char)) :
  ∃ keys', Represents (writes.foldl Resolving.set r) keys' (written vars writes)
  := by
  induction writes generalizing r keys vars with
  | nil => exact ⟨keys, h⟩
  | cons p writes ih =>
    obtain ⟨keys', h'⟩ := h.set p
    exact ih h'

end

section Written

variable {writes : List (List Char × List Char)} {k v : List Char}

theorem written_append :
  written vars (writes ++ writes') = written (written vars writes) writes'
  := foldl_append

theorem written_of_not_mem (h : k ∉ writes.map fst) :
  written vars writes k = vars k
  := by
  induction writes generalizing vars with
  | nil => rfl
  | cons p writes ih =>
    rw [map_cons, mem_cons, not_or] at h
    exact (ih h.2).trans (update_of_ne h.1 _ _)

theorem written_of_mem (hno : (writes.map fst).Nodup) (h : (k, v) ∈ writes) :
  written vars writes k = some v
  := by
  induction writes generalizing vars with
  | nil => cases h
  | cons p writes ih =>
    rw [map_cons, nodup_cons] at hno
    rcases mem_cons.1 h with rfl | h
    · exact (written_of_not_mem hno.1).trans (update_self _ _ _)
    · exact ih hno.2 h

theorem mem_of_written (h : written vars writes k = some v) :
  vars k = some v ∨ (k, v) ∈ writes
  := by
  induction writes generalizing vars with
  | nil => exact .inl h
  | cons p writes ih =>
    rcases ih h with hvr | hm
    · dsimp only at hvr
      rw [update_apply] at hvr
      split_ifs at hvr with hk
      · cases hvr
        exact .inr (by simp [hk])
      · exact .inl hvr
    · exact .inr (mem_cons_of_mem _ hm)

end Written

def declared (c : Container) : List (List Char × List Char) :=
  (c.env.filter fun e => e.value ≠ []).map fun e => (e.name, e.value)

def lastDeclared (c : Container) (n : List Char) : Option (List Char) :=
  (c.env.reverse.find? fun e => e.name = n).map EnvVar.value

def Tidal.writes (t : Tidal) (pod : PodIdentity) (c : Container) (podIP : List Char) :
    List (List Char × List Char) :=
  declared c ++ t.runtimeVars pod podIP ++ if t.injects c then t.serverVars else []

theorem resolveEnv_eq (t : Tidal) :
  t.resolveEnv pod c podIP = ((t.writes pod c podIP).foldl Resolving.set {}).resolved.filter
    fun text => (nameOf text).any (· ≠ [])
  := by
  rw [Tidal.resolveEnv, Tidal.writes, declared, foldl_append, foldl_append,
    foldl_map, foldl_filter]
  simp only [decide_eq_true_eq]
  split_ifs
  all_goals rfl

theorem cut_entry (hk : '=' ∉ k) :
  cut '=' (entry k v) = some (k, v)
  := cut_append hk v

theorem written_declared (h : lastDeclared c n = some v) (hv : v ≠ []) :
  written (fun _ => none) (declared c) n = some v
  := by
  obtain ⟨env, envFrom⟩ := c
  unfold lastDeclared declared at *
  induction env using reverseRecOn with
  | nil => simp at h
  | append_singleton env e ih =>
    rw [reverse_append, reverse_singleton, singleton_append, find?_cons] at h
    rw [filter_append, map_append, written_append]
    by_cases hna : e.name = n
    · simp only [hna, decide_true, map_some, some_inj] at h
      simp [written, h, hv, hna]
    · simp only [hna, decide_false] at h
      rw [written_of_not_mem, ih h]
      intro hm
      obtain ⟨p, hp, rfl⟩ := mem_map.1 hm
      obtain ⟨e', he', rfl⟩ := mem_map.1 hp
      rw [mem_singleton.1 (mem_filter.1 he').1] at hna
      exact hna rfl

structure Tidal.Declares (t : Tidal) (pod : PodIdentity) (c : Container) (podIP n v : List Char) :
    Prop where
  last : lastDeclared c n = some v
  not_runtime : n ∉ (t.runtimeVars pod podIP).map fst
  not_injected : t.injects c = true → n ∉ t.serverVars.map fst

section Resolved

variable (t : Tidal) (pod : PodIdentity) (podIP : List Char) {c : Container}

theorem plain_of_mem_writes (hn : ∀ e ∈ c.env, e.name ≠ [] ∧ '=' ∉ e.name)
    (hp : p ∈ t.writes pod c podIP) :
  p.1 ≠ [] ∧ '=' ∉ p.1
  := by
  rw [Tidal.writes, mem_append, mem_append] at hp
  rcases hp with (hd | hr) | hse
  · obtain ⟨e, he, rfl⟩ := mem_map.1 hd
    exact hn e (mem_filter.1 he).1
  · have ha : ∀ k ∈ (t.runtimeVars pod podIP).map fst, k ≠ [] ∧ '=' ∉ k := by
      simp only [Tidal.runtimeVars, map_cons, map_nil]
      decide
    exact ha p.1 (mem_map_of_mem hr)
  · have ha : ∀ k ∈ t.serverVars.map fst, k ≠ [] ∧ '=' ∉ k := by
      simp only [Tidal.serverVars, map_cons, map_nil]
      decide
    split_ifs at hse
    · exact ha p.1 (mem_map_of_mem hse)
    · cases hse

theorem resolveEnv_spec (hn : ∀ e ∈ c.env, e.name ≠ [] ∧ '=' ∉ e.name) :
  ((t.resolveEnv pod c podIP).map nameOf).Nodup
    ∧ ∀ k v, '=' ∉ k → (entry k v ∈ t.resolveEnv pod c podIP
        ↔ written (fun _ => none) (t.writes pod c podIP) k = some v)
  := by
  have hst : Represents {} [] (fun _ => none) := ⟨nodup_nil, by simp, rfl, by simp⟩
  obtain ⟨keys, h⟩ := represents_foldl hst (t.writes pod c podIP)
  have hpl : ∀ k ∈ keys, k ≠ [] ∧ '=' ∉ k := by
    intro k hk
    obtain ⟨v, hv⟩ := isSome_iff_exists.1 ((h.mem k).1 hk)
    rcases mem_of_written hv with hnn | hm
    · cases hnn
    · exact plain_of_mem_writes t pod podIP hn hm
  have hli : t.resolveEnv pod c podIP = keys.map fun k =>
      entry k ((written (fun _ => none) (t.writes pod c podIP) k).getD []) := by
    rw [resolveEnv_eq, h.resolved, filter_eq_self]
    intro text ht
    obtain ⟨k, hk, rfl⟩ := mem_map.1 ht
    rw [nameOf, cut_entry (hpl k hk).2]
    simp [(hpl k hk).1]
  rw [hli]
  constructor
  · have hke : (keys.map some).Nodup := h.nodup.map fun _ _ heq => some.inj heq
    rw [List.map_map]
    convert hke using 1
    apply map_congr_left
    intro k hk
    rw [comp_apply, nameOf, cut_entry (hpl k hk).2]
    rfl
  · intro k v hk
    rw [List.mem_map]
    constructor
    · rintro ⟨k', hk', heq⟩
      have hc := congrArg (cut '=') heq
      rw [cut_entry (hpl k' hk').2, cut_entry hk] at hc
      obtain ⟨hky, hva⟩ := mk.inj (some.inj hc)
      obtain ⟨w, hw⟩ := isSome_iff_exists.1 ((h.mem k').1 hk')
      rw [hw, getD_some] at hva
      rw [← hky, hw, hva]
    · intro hv
      exact ⟨k, (h.mem k).2 (by rw [hv]; rfl), by rw [hv]; rfl⟩

/-- No name is listed twice, and every variable has the value of the runtime or of its last
declaration, exactly if this is never empty. -/
theorem resolveEnv_complete_iff (hnames : ∀ e ∈ c.env, e.name ≠ [] ∧ '=' ∉ e.name) :
  ((t.resolveEnv pod c podIP).map nameOf).Nodup
    ∧ (∀ p ∈ t.runtimeVars pod podIP, entry p.1 p.2 ∈ t.resolveEnv pod c podIP)
    ∧ ((∀ n v, t.Declares pod c podIP n v → entry n v ∈ t.resolveEnv pod c podIP)
      ↔ ∀ n v, t.Declares pod c podIP n v → v ≠ [])
  := by
  obtain ⟨hno, hm⟩ := resolveEnv_spec t pod podIP hnames
  refine ⟨hno, ?_, ?_⟩
  · intro p hp
    have ha : ∀ k ∈ (t.runtimeVars pod podIP).map fst,
        '=' ∉ k ∧ k ∉ t.serverVars.map fst := by
      simp only [Tidal.runtimeVars, Tidal.serverVars, map_cons, map_nil]
      decide
    have hdi : ((t.runtimeVars pod podIP).map fst).Nodup := by
      simp only [Tidal.runtimeVars, map_cons, map_nil]
      decide
    obtain ⟨hpl, hse⟩ := ha p.1 (mem_map_of_mem hp)
    apply (hm p.1 p.2 hpl).mpr
    rw [Tidal.writes, written_append, written_of_not_mem, written_append]
    · exact written_of_mem hdi hp
    · split_ifs
      · exact hse
      · exact not_mem_nil
  · have hwr {n v : List Char} (h : t.Declares pod c podIP n v) :
        entry n v ∈ t.resolveEnv pod c podIP
          ↔ written (fun _ => none) (declared c) n = some v := by
      have hpl : '=' ∉ n := by
        obtain ⟨e, he, -⟩ := map_eq_some_iff.mp h.last
        have hna : e.name = n := by simpa using find?_some he
        rw [← hna]
        exact (hnames e (mem_reverse.mp (mem_of_find?_eq_some he))).2
      rw [hm n v hpl, Tidal.writes, written_append, written_of_not_mem, written_append,
        written_of_not_mem h.not_runtime]
      split_ifs with hin
      · exact h.not_injected hin
      · exact not_mem_nil
    constructor
    · rintro ha n _ h rfl
      rcases mem_of_written ((hwr h).mp (ha n [] h)) with hnn | hd
      · cases hnn
      · obtain ⟨e, he, heq⟩ := mem_map.mp hd
        have hva := (mem_filter.mp he).2
        simp [(mk.inj heq).2] at hva
    · intro ha n v h
      exact (hwr h).mpr (written_declared h.last (ha n v h))

end Resolved

def sampleTidal : Tidal := { nodeName := ['n'], nodeIP := ['i'] }

def samplePod : PodIdentity := { uid := ['u'], name := ['p'], podNamespace := ['s'] }

def declaredTwice (value : List Char) : Container where
  env := [{ name := ['A'], value := ['1'] }, { name := ['A'], value := value }]

theorem resolveEnv_complete_twice :
  entry ['A'] ['2'] ∈ sampleTidal.resolveEnv samplePod (declaredTwice ['2']) []
  := by
  have hsp := resolveEnv_complete_iff sampleTidal samplePod [] (c := declaredTwice ['2'])
    (by decide)
  refine hsp.2.2.mpr ?_ ['A'] ['2'] ⟨by decide, by decide, by decide⟩
  rintro n v h rfl
  obtain ⟨e, he, hva⟩ := map_eq_some_iff.mp h.last
  have hm := mem_of_find?_eq_some he
  simp [declaredTwice] at hm
  rcases hm with rfl | rfl
  all_goals cases hva

theorem resolveEnv_empty :
  lastDeclared (declaredTwice []) ['A'] = some []
    ∧ entry ['A'] [] ∉ sampleTidal.resolveEnv samplePod (declaredTwice []) []
    ∧ entry ['A'] ['1'] ∈ sampleTidal.resolveEnv samplePod (declaredTwice []) []
  := by decide +kernel

end Periapsis.Downward
