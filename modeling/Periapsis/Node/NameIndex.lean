import Periapsis.Node.PodStore

/-!
# The index of names

The registry of the store is keyed by UIDs and the index by names.  A query for a name goes through
the index.
-/

namespace Periapsis.Node

open Corev1 List Function String Finmap PodState

def SameName (pod pod' : ApiPod) : Prop :=
  pod.podNamespace = pod'.podNamespace ∧ pod.name = pod'.name

def ValidName (pod : ApiPod) : Prop :=
  '/' ∉ pod.podNamespace.toList ∧ '/' ∉ pod.name.toList

instance decidableValidName (pod : ApiPod) : Decidable (ValidName pod) :=
  inferInstanceAs (Decidable (_ ∧ _))

def PodState.key (ps : PodState) : String :=
  nameKey ps.pod.podNamespace ps.pod.name

variable {pod pod' : ApiPod}

theorem SameName.symm (h : SameName pod pod') :
  SameName pod' pod
  := ⟨h.1.symm, h.2.symm⟩

theorem SameName.trans (h : SameName pod pod') (h' : SameName pod' pod'') :
  SameName pod pod''
  := ⟨h.1.trans h'.1, h.2.trans h'.2⟩

theorem SameObject.sameName (h : SameObject pod pod') :
  SameName pod pod'
  := by
  have hn := congrArg (fun pod : ApiPod => (pod.podNamespace, pod.name)) h
  exact ⟨congrArg Prod.fst hn, congrArg Prod.snd hn⟩

theorem SameName.validName (h : SameName pod pod') (hpo : ValidName pod') :
  ValidName pod
  := by
  unfold ValidName
  rw [h.1, h.2]
  exact hpo

variable {ps ps' : PodState}

theorem SameName.key_eq (h : SameName ps.pod ps'.pod) :
  ps.key = ps'.key
  := by
  rw [key, key, h.1, h.2]

theorem sameName_of_key_eq (hps : ValidName ps.pod) (h : ps.key = ps'.key) :
  SameName ps.pod ps'.pod
  := by
  have hli : ps.pod.podNamespace.toList ++ '/' :: ps.pod.name.toList
      = ps'.pod.podNamespace.toList ++ '/' :: ps'.pod.name.toList := by
    simpa [key, nameKey] using congrArg toList h
  obtain ⟨hnm, -, hn⟩ := (append_cons_inj_of_notMem hps.1 hps.2).1 hli
  exact ⟨toList_injective hnm, toList_injective hn⟩

namespace PodStore

variable {s t : PodStore} {uid : String}

def FindsByName (s : PodStore) : Prop :=
  ∀ podNamespace name,
    (∃ uid ps, s.pods.lookup uid = some ps
      ∧ ps.pod.podNamespace = podNamespace ∧ ps.pod.name = name) →
    ∃ uid ps, s.findPodUID podNamespace name = .ok uid
      ∧ s.getPod podNamespace name = .ok ps.pod
      ∧ s.pods.lookup uid = some ps
      ∧ ps.pod.podNamespace = podNamespace ∧ ps.pod.name = name

theorem findsByName_iff_index :
  s.FindsByName ↔ ∀ uid ps, s.pods.lookup uid = some ps →
    ∃ uid' ps', s.nameIndex ps.key = some uid' ∧ s.pods.lookup uid' = some ps'
      ∧ SameName ps'.pod ps.pod
  := by
  constructor
  · intro h uid ps hps
    obtain ⟨uid', ps', hfi, -, hp, hn⟩ := h _ _ ⟨uid, ps, hps, rfl, rfl⟩
    refine ⟨uid', ps', ?_, hp, hn⟩
    unfold findPodUID at hfi
    change s.nameIndex (nameKey _ _) = _
    cases hi : s.nameIndex (nameKey ps.pod.podNamespace ps.pod.name) with
    | none => simp [hi] at hfi
    | some uid'' => simpa [hi] using hfi
  · rintro h _ _ ⟨uid, ps, hps, rfl, rfl⟩
    obtain ⟨uid', ps', hi, hp, hn⟩ := h uid ps hps
    change s.nameIndex (nameKey _ _) = _ at hi
    refine ⟨uid', ps', ?_, ?_, hp, hn⟩
    · rw [findPodUID, hi]
    · rw [getPod, hi]
      dsimp only
      rw [hp]

def KeepsName (s : PodStore) (uid : String) (pod : ApiPod) : Prop :=
  ∀ ps, s.pods.lookup uid = some ps → SameName pod ps.pod

def Named (s : PodStore) : StoreOp → Prop
  | .registerPending uid pod _ => ValidName pod ∧ s.KeepsName uid pod
  | .registerHydrated uid pod _ => ValidName pod ∧ s.KeepsName uid pod
  | .registerHydratedBatch entries =>
    (∀ e ∈ entries, ValidName e.pod ∧ s.KeepsName e.uid e.pod)
      ∧ ∀ e ∈ entries, ∀ e' ∈ entries, e.uid = e'.uid → SameName e.pod e'.pod
  | .alreadyRunning uid pod => s.KeepsName uid pod
  | .promoteRunning uid pod _ => s.KeepsName uid pod
  | .markFailed uid pod _ _ => s.KeepsName uid pod
  | .unregister uid podNamespace name _ _ =>
    ∀ ps, s.pods.lookup uid = some ps →
      ps.pod.podNamespace = podNamespace ∧ ps.pod.name = name
  | _ => True

def ValidNames (s : PodStore) : Prop :=
  ∀ uid ps, s.pods.lookup uid = some ps → ValidName ps.pod

def removed : StoreOp → List String
  | .unregister uid _ _ _ _ => [uid]
  | .evictGhost uid => [uid]
  | .purgeHydrated staleUIDs => staleUIDs
  | _ => []

def RemovesNames (s : PodStore) (op : StoreOp) : Prop :=
  ∀ uid ∈ removed op, ∀ ps, s.pods.lookup uid = some ps →
    ∀ uid' ∉ removed op, ∀ ps', s.pods.lookup uid' = some ps' → ¬ SameName ps.pod ps'.pod

/-- The change keeps names valid and pods found by them. -/
structure KeepsNames (s t : PodStore) : Prop where
  valid : s.ValidNames → t.ValidNames
  finds : s.FindsByName → t.FindsByName

theorem KeepsNames.trans (h : KeepsNames s t) (h' : KeepsNames t u) :
  KeepsNames s u
  := ⟨h'.valid ∘ h.valid, h'.finds ∘ h.finds⟩

theorem keepsNames_put (hps : ValidName ps.pod) (hn : s.KeepsName uid ps.pod) :
  KeepsNames s (s.put uid ps)
  := by
  have hse : (s.put uid ps).pods.lookup uid = some ps := lookup_insert _
  constructor
  · intro hs uid' ps' hps'
    by_cases heq : uid' = uid
    · rw [heq, hse] at hps'
      cases hps'
      exact hps
    · rw [lookup_put_of_ne _ _ _ heq] at hps'
      apply hs uid' ps' hps'
  · intro hs
    rw [findsByName_iff_index] at *
    intro uid' ps' hps'
    by_cases hky : ps'.key = ps.key
    · refine ⟨uid, ps, ?_, hse, sameName_of_key_eq hps hky.symm⟩
      rw [hky]
      apply update_self
    · have hne : uid' ≠ uid := by
        rintro rfl
        rw [hse] at hps'
        cases hps'
        contradiction
      rw [lookup_put_of_ne _ _ _ hne] at hps'
      obtain ⟨uid'', ps'', hi, hp, hsa⟩ := hs uid' ps' hps'
      have hne' : uid'' ≠ uid := by
        rintro rfl
        apply hky
        rw [← hsa.key_eq]
        apply ((hn ps'' hp).key_eq).symm
      refine ⟨uid'', ps'', ?_, ?_, hsa⟩
      · rw [← hi]
        apply update_of_ne hky
      · rw [lookup_put_of_ne _ _ _ hne']
        exact hp

theorem keepsNames_of_sameName (hi : t.nameIndex = s.nameIndex)
    (hst : ∀ uid ps, s.pods.lookup uid = some ps →
      ∃ ps', t.pods.lookup uid = some ps' ∧ SameName ps'.pod ps.pod)
    (hts : ∀ uid ps', t.pods.lookup uid = some ps' →
      ∃ ps, s.pods.lookup uid = some ps ∧ SameName ps'.pod ps.pod) :
  KeepsNames s t
  := by
  constructor
  · intro hs uid ps' hp
    obtain ⟨ps, hps, hsa⟩ := hts uid ps' hp
    apply hsa.validName (hs uid ps hps)
  · intro hs
    rw [findsByName_iff_index] at *
    intro uid ps' hp
    obtain ⟨ps, hps, hsa⟩ := hts uid ps' hp
    obtain ⟨uid₁, ps₁, hin, hps₁, hsm⟩ := hs uid ps hps
    obtain ⟨ps₂, hps₂, hsam⟩ := hst uid₁ ps₁ hps₁
    refine ⟨uid₁, ps₂, ?_, hps₂, (hsam.trans hsm).trans hsa.symm⟩
    rw [hi, hsa.key_eq]
    exact hin

theorem keepsNames_update (h : ∀ ps, s.pods.lookup uid = some ps → SameName (f ps).pod ps.pod) :
  KeepsNames s (s.update uid f)
  := by
  apply keepsNames_of_sameName
  · unfold update
    split
    all_goals rfl
  · intro uid' ps hps
    rw [lookup_update, hps]
    split_ifs with heq
    · exact ⟨f ps, rfl, h ps (heq ▸ hps)⟩
    · exact ⟨ps, rfl, rfl, rfl⟩
  · intro uid' ps' hp
    rw [lookup_update] at hp
    split_ifs at hp with heq
    · obtain ⟨ps, hps, rfl⟩ := Option.map_eq_some_iff.1 hp
      exact ⟨ps, hps, h ps (heq ▸ hps)⟩
    · exact ⟨ps', hp, rfl, rfl⟩

theorem keepsNames_apply_local {op : StoreOp} (hop : op.isLocal)
    (h : ∀ uid pod, op.replacement = some (uid, pod) → s.KeepsName uid pod) :
  KeepsNames s (s.apply op)
  := by
  obtain ⟨uid, f, cpu, mem, heq, hf⟩ := s.apply_local op hop
  have hus : KeepsNames (s.use cpu mem) ((s.use cpu mem).update uid f) := by
    apply keepsNames_update
    intro ps hps
    obtain hsa | ⟨pod, hpo, hsa⟩ := hf.pod ps
    · apply hsa.sameName
    · apply hsa.sameName.trans (h uid pod hpo ps hps)
  rw [heq]
  exact ⟨hus.valid, hus.finds⟩

theorem keepsNames_markDeleting (s : PodStore) (uid : String) :
  KeepsNames s (s.markDeleting uid)
  := by
  rcases s.markDeleting_eq uid with heq | heq
  · rw [heq]
    exact ⟨id, id⟩
  · have hup : KeepsNames s (s.update uid fun ps => { ps with deleting := true }) := by
      apply keepsNames_update
      intro ps _
      exact ⟨rfl, rfl⟩
    rw [heq]
    exact ⟨hup.valid, hup.finds⟩

theorem KeepsName.put {pod : ApiPod} (h : s.KeepsName uid' pod)
    (hsa : uid' = uid → SameName pod ps.pod) :
  (s.put uid ps).KeepsName uid' pod
  := by
  intro ps' hp
  by_cases heq : uid' = uid
  · rw [heq, PodStore.put, lookup_insert] at hp
    cases hp
    apply hsa heq
  · rw [lookup_put_of_ne _ _ _ heq] at hp
    apply h ps' hp

theorem keepsNames_foldl_hydrateEntry
    {entries : List HydratedEntry} (acc : PodStore × Int64 × Int64)
    (hen : ∀ e ∈ entries, ValidName e.pod ∧ acc.1.KeepsName e.uid e.pod)
    (hsa : ∀ e ∈ entries, ∀ e' ∈ entries, e.uid = e'.uid → SameName e.pod e'.pod) :
  KeepsNames acc.1 (entries.foldl hydrateEntry acc).1
  := by
  induction entries generalizing acc with
  | nil => exact ⟨id, id⟩
  | cons e entries ih =>
    obtain ⟨he, hk⟩ := hen e mem_cons_self
    have hfr : KeepsNames acc.1 (hydrateEntry acc e).1 := keepsNames_put he hk
    apply hfr.trans
    apply ih
    · intro e' he'
      obtain ⟨hn, hkp⟩ := hen e' (mem_cons_of_mem _ he')
      refine ⟨hn, hkp.put ?_⟩
      intro heq
      apply hsa e' (mem_cons_of_mem _ he') e mem_cons_self heq
    · intro e₁ he₁ e₂ he₂
      apply hsa e₁ (mem_cons_of_mem _ he₁) e₂ (mem_cons_of_mem _ he₂)

/-- The pods are removed, with the entries of their names. -/
structure Removes (s : PodStore) (uids : List String) (t : PodStore) : Prop where
  lookup : ∀ uid, t.pods.lookup uid = if uid ∈ uids then none else s.pods.lookup uid
  dropped : ∀ uid ∈ uids, ∀ ps, s.pods.lookup uid = some ps → t.nameIndex ps.key = none
  kept : ∀ key, (∀ uid ∈ uids, ∀ ps, s.pods.lookup uid = some ps → ps.key ≠ key) →
    t.nameIndex key = s.nameIndex key

theorem removes_nil :
  Removes s [] s
  := by
  constructor
  all_goals simp

theorem removes_of_lookup_eq_none (h : s.pods.lookup uid = none) :
  Removes s [uid] s
  := by
  constructor
  · intro uid'
    split_ifs with hmm
    · rw [mem_singleton.1 hmm, h]
    · rfl
  · intro uid' hmm ps hps
    rw [mem_singleton.1 hmm, h] at hps
    cases hps
  · intro key _
    rfl

theorem removes_drop (h : s.pods.lookup uid = some ps) :
  Removes s [uid] (s.drop uid ps)
  := by
  constructor
  · intro uid'
    split_ifs with hmm
    · rw [mem_singleton.1 hmm, drop, lookup_erase]
    · apply lookup_drop_of_ne _ _ _ (mem_singleton.not.1 hmm)
  · intro uid' hmm ps' hp
    rw [mem_singleton.1 hmm, h] at hp
    cases hp
    apply update_self
  · intro key hky
    apply update_of_ne
    apply (hky uid (mem_singleton_self uid) ps h).symm

theorem Removes.index_eq_none (h : Removes s uids t) {key : String} (hky : s.nameIndex key = none) :
  t.nameIndex key = none
  := by
  by_cases hd : ∃ uid ∈ uids, ∃ ps, s.pods.lookup uid = some ps ∧ ps.key = key
  · obtain ⟨uid, hmm, ps, hps, rfl⟩ := hd
    apply h.dropped uid hmm ps hps
  · rw [h.kept key, hky]
    intro uid hmm ps hps heq
    apply hd ⟨uid, hmm, ps, hps, heq⟩

theorem Removes.cons (h : Removes s [uid] t) (h' : Removes t uids u) :
  Removes s (uid :: uids) u
  := by
  constructor
  · intro uid'
    rw [h'.lookup, h.lookup]
    by_cases hmm : uid' ∈ uids
    all_goals simp [hmm]
  · intro uid' hmm ps hps
    by_cases heq : uid' = uid
    · apply h'.index_eq_none
      apply h.dropped uid' (by simp [heq]) ps hps
    · apply h'.dropped uid' (mem_of_ne_of_mem heq hmm) ps
      rw [h.lookup, if_neg (by simpa using heq), hps]
  · intro key hky
    rw [h'.kept, h.kept]
    · intro uid' hmm
      apply hky uid' (by simp [mem_singleton.1 hmm])
    · intro uid' hmm ps hps
      rw [h.lookup] at hps
      split_ifs at hps
      apply hky uid' (mem_cons_of_mem _ hmm) ps hps

theorem removes_purgeHydrated :
  Removes s uids (s.purgeHydrated uids)
  := by
  suffices hfo : ∀ acc : PodStore × Int64 × Int64,
      Removes acc.1 uids (uids.foldl purgeEntry acc).1 by
    obtain ⟨hl, hd, hke⟩ := hfo (s, 0, 0)
    exact ⟨hl, hd, hke⟩
  induction uids with
  | nil =>
    intro acc
    apply removes_nil
  | cons uid uids ih =>
    intro acc
    apply Removes.cons _ (ih (purgeEntry acc uid))
    unfold purgeEntry
    dsimp only
    split
    next hno =>
      apply removes_of_lookup_eq_none hno
    next ps hps =>
      apply removes_drop hps

theorem removes_evictGhost {uid : String} :
  Removes s [uid] (s.evictGhost uid)
  := by
  unfold evictGhost
  split
  next hno =>
    apply removes_of_lookup_eq_none hno
  next ps hps =>
    obtain ⟨hl, hd, hke⟩ := removes_drop hps
    exact ⟨hl, hd, hke⟩

theorem removes_unregister {podNamespace name : String} {deletedAt now : Time}
    (h : s.Named (.unregister uid podNamespace name deletedAt now)) :
  Removes s [uid] (s.unregister uid podNamespace name deletedAt now)
  := by
  unfold unregister
  split
  next hno =>
    obtain ⟨hl, hd, hke⟩ := removes_of_lookup_eq_none hno
    exact ⟨hl, hd, hke⟩
  next ps hps =>
    obtain ⟨rfl, rfl⟩ := h ps hps
    obtain ⟨hl, hd, hke⟩ := removes_drop hps
    exact ⟨hl, hd, hke⟩

theorem ValidNames.of_removes (hs : s.ValidNames) (h : Removes s uids t) :
  t.ValidNames
  := by
  intro uid ps hps
  rw [h.lookup] at hps
  split_ifs at hps
  apply hs uid ps hps

theorem FindsByName.iff_of_removes (hs : s.FindsByName) (hva : s.ValidNames)
    (h : Removes s uids t) :
  t.FindsByName ↔ ∀ uid ∈ uids, ∀ ps, s.pods.lookup uid = some ps →
    ∀ uid' ∉ uids, ∀ ps', s.pods.lookup uid' = some ps' → ¬ SameName ps.pod ps'.pod
  := by
  rw [findsByName_iff_index] at *
  constructor
  · intro ht uid hmm ps hps uid' hme ps' hps' hsa
    have hle : t.pods.lookup uid' = some ps' := by
      rw [h.lookup, if_neg hme, hps']
    obtain ⟨_, _, hi, -⟩ := ht uid' ps' hle
    rw [← hsa.key_eq, h.dropped uid hmm ps hps] at hi
    cases hi
  · intro hna uid' ps' hps'
    rw [h.lookup] at hps'
    split_ifs at hps' with hme
    obtain ⟨uid'', ps'', hi, hp, hsa⟩ := hs uid' ps' hps'
    have hm : uid'' ∉ uids := by
      intro hm
      apply hna uid'' hm ps'' hp uid' hme ps' hps' hsa
    refine ⟨uid'', ps'', ?_, ?_, hsa⟩
    · rw [h.kept, hi]
      intro uid hmm ps hps heq
      apply hna uid hmm ps hps uid' hme ps' hps'
      apply sameName_of_key_eq (hva uid ps hps) heq
    · rw [h.lookup, if_neg hm, hp]

theorem apply_removes_or_keepsNames (hop : s.Named op) :
  Removes s (removed op) (s.apply op) ∨ removed op = [] ∧ KeepsNames s (s.apply op)
  := by
  cases op with
  | unregister uid podNamespace name deletedAt now =>
    exact .inl (removes_unregister hop)
  | evictGhost uid => exact .inl removes_evictGhost
  | purgeHydrated staleUIDs => exact .inl removes_purgeHydrated
  | registerPending uid pod handle =>
    let ps : PodState := { pod := pod, phase := .pending, inFlight := some handle }
    have hpu : KeepsNames s (s.put uid ps) := keepsNames_put hop.1 hop.2
    exact .inr ⟨rfl, hpu.valid, hpu.finds⟩
  | registerHydrated uid pod ip =>
    have hpu : KeepsNames s (s.put uid (hydratedState pod ip)) := keepsNames_put hop.1 hop.2
    exact .inr ⟨rfl, hpu.valid, hpu.finds⟩
  | registerHydratedBatch entries =>
    have hb := keepsNames_foldl_hydrateEntry (s, 0, 0) hop.1 hop.2
    exact .inr ⟨rfl, hb.valid, hb.finds⟩
  | markDeleting uid => exact .inr ⟨rfl, keepsNames_markDeleting s uid⟩
  | alreadyRunning uid pod | promoteRunning uid pod | markFailed uid pod =>
    refine .inr ⟨rfl, keepsNames_apply_local rfl ?_⟩
    rintro _ _ ⟨⟩
    exact hop
  | _ =>
    refine .inr ⟨rfl, keepsNames_apply_local rfl ?_⟩
    rintro _ _ ⟨⟩

theorem ValidNames.apply (hs : s.ValidNames) (hop : s.Named op) :
  (s.apply op).ValidNames
  := by
  rcases apply_removes_or_keepsNames hop with hr | ⟨-, hk⟩
  · apply hs.of_removes hr
  · apply hk.valid hs

theorem FindsByName.apply_iff (hs : s.FindsByName) (hva : s.ValidNames) (hop : s.Named op) :
  (s.apply op).FindsByName ↔ s.RemovesNames op
  := by
  rcases apply_removes_or_keepsNames hop with hr | ⟨hni, hk⟩
  · apply hs.iff_of_removes hva hr
  · apply iff_of_true (hk.finds hs)
    unfold RemovesNames
    simp [hni]

end PodStore

open PodStore

/-- As long as a UID keeps its name, every registered pod is found by its namespace and name, if and
only if no pod is removed while another registered pod has its name. -/
theorem findsByName_iff {ops : List StoreOp} (hops : podStore.Meets Named newPodStore ops) :
  (∀ done, done <+: ops → ∀ s, podStore.run newPodStore done = some s → s.FindsByName)
    ↔ podStore.Meets RemovesNames newPodStore ops
  := by
  have hsr : newPodStore.ValidNames ∧ newPodStore.FindsByName := by
    constructor
    · rintro _ _ ⟨⟩
    · rintro _ _ ⟨_, _, ⟨⟩, _⟩
  have hsp (s : PodStore) (op : StoreOp) (hs : s.ValidNames ∧ s.FindsByName)
      (hop : s.Named op) :
      (∀ t, podStore.step s op = some t → t.ValidNames ∧ t.FindsByName)
        ↔ s.RemovesNames op := by
    rw [← hs.2.apply_iff hs.1 hop]
    simp [podStore, hs.1.apply hop]
  rw [← podStore.forall_run_iff_meets hsr hsp hops]
  constructor
  · intro h done hdo s hs
    refine ⟨?_, h done hdo s hs⟩
    obtain ⟨rest, rfl⟩ := hdo
    apply podStore.run_induction hsr.1 _ (podStore.meets_append hops) hs
    intro s op t hva hop hsp
    cases hsp
    apply hva.apply hop
  · intro h done hdo s hs
    apply (h done hdo s hs).2

theorem findsByName_of_purge :
  let pod (uid : String) : ApiPod :=
    { spec := {}, uid := uid, podNamespace := "default", name := "web" }
  let ops : List StoreOp :=
    [.registerHydrated "u" (pod "u") "", .registerHydrated "v" (pod "v") "",
      .purgeHydrated ["u", "v"]]
  podStore.Meets Named newPodStore ops ∧ podStore.Meets RemovesNames newPodStore ops
    ∧ ∀ done, done <+: ops → ∀ s, podStore.run newPodStore done = some s → s.FindsByName
  := by
  intro pod ops
  have hnd : podStore.Meets Named newPodStore ops := by
    refine ⟨⟨by decide, ?_⟩, ?_⟩
    · rintro _ ⟨⟩
    · rintro _ ⟨⟩
      refine ⟨⟨by decide, ?_⟩, ?_⟩
      · rintro _ ⟨⟩
      · rintro _ ⟨⟩
        exact ⟨trivial, fun _ _ => trivial⟩
  have hna : podStore.Meets RemovesNames newPodStore ops := by
    refine ⟨by simp [RemovesNames, removed], ?_⟩
    rintro _ ⟨⟩
    refine ⟨by simp [RemovesNames, removed], ?_⟩
    rintro _ ⟨⟩
    refine ⟨?_, fun _ _ => trivial⟩
    intro uid _ ps _ uid' hmm ps' hp
    obtain ⟨hu, hv⟩ : uid' ≠ "u" ∧ uid' ≠ "v" := by simpa [removed] using hmm
    have hno : ((newPodStore.put "u" (hydratedState (pod "u") "")).put "v"
        (hydratedState (pod "v") "")).pods.lookup uid' = none := by
      rw [lookup_put_of_ne _ _ _ hv, lookup_put_of_ne _ _ _ hu]
      rfl
    cases hno.symm.trans hp
  exact ⟨hnd, hna, (findsByName_iff hnd).mpr hna⟩

theorem not_findsByName_after_replacement :
  let pod (uid : String) : ApiPod :=
    { spec := {}, uid := uid, podNamespace := "default", name := "web" }
  ∃ s ps, podStore.run newPodStore
      [.registerPending "u" (pod "u") 0, .registerPending "v" (pod "v") 1,
        .unregister "u" "default" "web" 0 0] = some s
    ∧ s.pods.lookup "v" = some ps ∧ ps.pod = pod "v"
    ∧ s.getPod "default" "web" = .error ⟨"pod default/web not found", true⟩
    ∧ s.findPodUID "default" "web" = .error ⟨"pod default/web not found", false⟩
  := by
  exact ⟨_, _, rfl, rfl, rfl, rfl, rfl⟩

end Periapsis.Node
