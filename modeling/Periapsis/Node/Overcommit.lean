import Periapsis.Node.Admission

/-!
# Creating and deleting pods concurrently

Calls of `CreatePod` and `DeletePod` run concurrently on one store, and a step of a call is what it
does at once.
-/

namespace Periapsis.Node

open Corev1 Transition Finmap

inductive CreateCall where
  | admitted (pod : ApiPod)
  | cleared (pod : ApiPod)
  | inserted (pod : ApiPod)
  deriving DecidableEq

structure Creation where
  store : PodStore
  calls : Finmap fun _ : Nat => CreateCall
  releases : Finmap fun _ : Nat => PodState

def newCreation : Creation where
  store := newPodStore
  calls := ∅
  releases := ∅

inductive CreationStep where
  | check (id : Nat) (pod : ApiPod) (pressure : Option HostPressure)
  | guard (id : Nat) (started probed : Nat → Time)
  | insert (id : Nat)
  | count (id : Nat)
  | mark (uid : String)
  | remove (id : Nat) (uid podNamespace name : String) (deletedAt now : Time)
  | release (id : Nat)

namespace PodStore

def pendingState (pod : ApiPod) (handle : CreationHandle) : PodState :=
  { pod := pod, phase := .pending, inFlight := some handle }

def takeOut (s : PodStore) (uid podNamespace name : String) (deletedAt now : Time) :
    PodStore × Option PodState :=
  let key := nameKey podNamespace name
  let completed :=
    expireCompleted (Function.update s.completed key (some ⟨uid, deletedAt⟩))
      (now - completedTTL.toInt)
  match s.pods.lookup uid with
  | none => ({ s with completed := completed }, none)
  | some ps =>
    ({ s with
        pods := s.pods.erase uid
        nameIndex := Function.update s.nameIndex key none
        completed := completed },
      some ps)

def release (s : PodStore) (ps : PodState) : PodStore :=
  let (cpu, mem) := podResources ps.pod
  { s.use (-cpu) (-mem) with
    deletingCount := if ps.deleting then s.deletingCount + -1 else s.deletingCount }

end PodStore

open PodStore

def Creation.remove (s : Creation) (id : Nat) (uid podNamespace name : String)
    (deletedAt now : Time) : Creation :=
  match s.store.takeOut uid podNamespace name deletedAt now with
  | (store, none) => { s with store := store }
  | (store, some ps) => { s with store := store, releases := s.releases.insert id ps }

def creations (nodeCPU nodeMem : Int64) : System Creation CreationStep where
  step s
    | .check id pod pressure =>
      if id ∈ s.calls then none
      else if pod.spec.containers.isEmpty then some s
      else if s.store.admitPod pod nodeCPU nodeMem pressure ≠ "" then some s
      else some { s with calls := s.calls.insert id (.admitted pod) }
    | .guard id started probed =>
      match s.calls.lookup id with
      | some (.admitted pod) =>
        if s.store.isInFlight pod.uid then some { s with calls := s.calls.erase id }
        else
          match s.store.alreadyRunning pod.uid pod with
          | (store, true, wasStub) =>
            some
              { s with
                store := if wasStub then store.initRestartState pod started probed else store
                calls := s.calls.erase id }
          | (_, false, _) => some { s with calls := s.calls.insert id (.cleared pod) }
      | _ => none
    | .insert id =>
      match s.calls.lookup id with
      | some (.cleared pod) =>
        some
          { s with
            store := s.store.put pod.uid (pendingState pod id)
            calls := s.calls.insert id (.inserted pod) }
      | _ => none
    | .count id =>
      match s.calls.lookup id with
      | some (.inserted pod) =>
        some
          { s with
            store := s.store.use (podResources pod).1 (podResources pod).2
            calls := s.calls.erase id }
      | _ => none
    | .mark uid => some { s with store := s.store.markDeleting uid }
    | .remove id uid podNamespace name deletedAt now =>
      if id ∈ s.releases then none
      else some (s.remove id uid podNamespace name deletedAt now)
    | .release id =>
      match s.releases.lookup id with
      | some ps => some { s with store := s.store.release ps, releases := s.releases.erase id }
      | none => none

namespace Creation

section Remove

variable (s : Creation) {id : Nat} {uid podNamespace name : String} {deletedAt now : Time}

theorem calls_remove :
  (s.remove id uid podNamespace name deletedAt now).calls = s.calls
  := by
  unfold remove takeOut
  cases s.store.pods.lookup uid with
  | _ => rfl

theorem used_remove :
  (s.remove id uid podNamespace name deletedAt now).store.used = s.store.used
  := by
  unfold remove takeOut
  cases s.store.pods.lookup uid with
  | _ => rfl

theorem lookup_of_lookup_remove
    (h : (s.remove id uid podNamespace name deletedAt now).store.pods.lookup uid' = some ps) :
  s.store.pods.lookup uid' = some ps
  := by
  unfold remove takeOut at h
  cases hui : s.store.pods.lookup uid with
  | none =>
    rw [hui] at h
    exact h
  | some ps' =>
    rw [hui] at h
    by_cases heq : uid' = uid
    · rw [heq, lookup_erase] at h
      cases h
    · rw [lookup_erase_ne heq] at h
      exact h

theorem releases_remove
    (h : (s.remove id uid podNamespace name deletedAt now).releases.lookup id' = some ps) :
  s.releases.lookup id' = some ps ∨ ∃ uid', s.store.pods.lookup uid' = some ps
  := by
  unfold remove takeOut at h
  cases hui : s.store.pods.lookup uid with
  | none =>
    rw [hui] at h
    exact .inl h
  | some ps' =>
    rw [hui] at h
    by_cases heq : id' = id
    · rw [heq, lookup_insert] at h
      cases h
      exact .inr ⟨uid, hui⟩
    · rw [lookup_insert_of_ne _ heq] at h
      exact .inl h

end Remove

end Creation

section Held

variable {M : Type*} [AddCommGroup M] (w : ApiPod → M)

def held (s : Creation) : M :=
  total (fun ps => w ps.pod) s.store.pods + total (fun ps => w ps.pod) s.releases

variable {s : Creation} {id : Nat} {uid : String}

theorem held_update (h : ∀ ps, (f ps).pod = ps.pod) (store : PodStore)
    (hso : store.pods = (s.store.update uid f).pods) (calls : Finmap fun _ : Nat => CreateCall) :
  held w { s with store := store, calls := calls } = held w s
  := by
  unfold held
  rw [hso]
  congr 1
  unfold update
  split
  · rfl
  next ps hps =>
    rw [total_insert, share_of_lookup _ _ _ hps, h, sub_add_cancel]

theorem held_put {ps : PodState} (h : s.store.pods.lookup uid = none)
    (calls : Finmap fun _ : Nat => CreateCall) :
  held w { s with store := s.store.put uid ps, calls := calls } = held w s + w ps.pod
  := by
  unfold held put
  rw [total_insert, share_of_none _ _ _ h, sub_zero]
  abel

theorem held_remove (hid : id ∉ s.releases) (uid : String) :
  held w (s.remove id uid podNamespace name deletedAt now) = held w s
  := by
  unfold Creation.remove takeOut
  cases hps : s.store.pods.lookup uid with
  | none => rfl
  | some ps =>
    unfold held
    rw [total_erase, share_of_lookup _ _ _ hps, total_insert,
      share_of_none _ _ _ (lookup_eq_none.2 hid)]
    abel

theorem held_release (h : s.releases.lookup id = some ps) :
  held w { s with store := s.store.release ps, releases := s.releases.erase id }
    = held w s - w ps.pod
  := by
  unfold held
  rw [total_erase, share_of_lookup _ _ _ h, add_sub_assoc]
  rfl

end Held

theorem held_modEq :
  (r.of (held podResources s)).toInt ≡ held (podRequest r) s [ZMOD 2 ^ 64]
  := by
  have ht {κ : Type} (m : Finmap fun _ : κ => PodState) :
      (r.of (total (fun ps => podResources ps.pod) m)).toInt
        ≡ total (fun ps => podRequest r ps.pod) m [ZMOD 2 ^ 64] := by
    have hof : r.of (total (fun ps => podResources ps.pod) m)
        = total (fun ps => r.of (podResources ps.pod)) m := by
      cases r with
      | cpu => exact (total_hom (AddMonoidHom.fst Int64 Int64) _ m).symm
      | memory => exact (total_hom (AddMonoidHom.snd Int64 Int64) _ m).symm
    rw [hof]
    apply (toInt_total _ m).trans
    apply total_modEq
    intro ps
    apply podResources_modEq
  unfold held
  rw [ResourceName.of_add]
  apply (toInt_add_modEq _ _).trans
  apply Int.ModEq.add (ht s.store.pods) (ht s.releases)

namespace CreateCall

def pod : CreateCall → ApiPod
  | .admitted pod => pod
  | .cleared pod => pod
  | .inserted pod => pod

def wanted (r : ResourceName) : CreateCall → Int
  | .inserted _ => 0
  | c => podRequest r c.pod

def uncounted : CreateCall → Int64 × Int64
  | .inserted pod => podResources pod
  | _ => 0

end CreateCall

def Admissible (pod : ApiPod) : Prop :=
  pod.spec.containers ≠ [] ∧ ∀ r, 0 ≤ podRequest r pod

theorem CreateCall.wanted_nonneg (c : CreateCall) (h : Admissible c.pod) (r : ResourceName) :
  0 ≤ c.wanted r
  := by
  cases c with
  | inserted pod => exact le_refl 0
  | _ => exact h.2 r

structure Within (nodeCPU nodeMem : Int64) (wanted : ResourceName → Int)
    (uncounted : Int64 × Int64) (s : Creation) : Prop where
  bound : ∀ r, held (podRequest r) s + wanted r ≤ (r.of (nodeCPU, nodeMem)).toInt
  balance : s.store.used + uncounted = held podResources s
  pods : ∀ uid ps, s.store.pods.lookup uid = some ps → Admissible ps.pod
  releases : ∀ id ps, s.releases.lookup id = some ps → Admissible ps.pod

inductive Reserved (nodeCPU nodeMem : Int64) (s : Creation) : Prop where
  | idle (hcalls : s.calls = ∅) (hwithin : Within nodeCPU nodeMem (fun _ => 0) 0 s)
  | call (id : Nat) (c : CreateCall) (hcalls : s.calls = Finmap.insert id c ∅)
      (hc : Admissible c.pod)
      (hcleared : ∀ pod, c = .cleared pod → s.store.pods.lookup pod.uid = none)
      (hwithin : Within nodeCPU nodeMem (fun r => c.wanted r) c.uncounted s)

def Alone (s : Creation) : CreationStep → Prop
  | .check _ pod _ =>
    s.calls = ∅ ∧ (∀ r, ∀ c ∈ pod.spec.containers, 0 ≤ (containerRequest r c).toInt)
      ∧ ∀ r : ResourceName, (r.of s.store.used).toInt + podRequest r pod < 2 ^ 63
  | _ => True

namespace Within

variable {nodeCPU nodeMem : Int64} {wanted : ResourceName → Int} {uncounted : Int64 × Int64}
  {s : Creation} {id : Nat} {uid : String}

theorem held_nonneg (hs : Within nodeCPU nodeMem wanted uncounted s) (r : ResourceName) :
  0 ≤ held (podRequest r) s
  := by
  apply add_nonneg
  · apply total_nonneg
    intro uid ps hps
    apply (hs.pods uid ps hps).2
  · apply total_nonneg
    intro id ps hps
    apply (hs.releases id ps hps).2

theorem used_eq_held (hs : Within nodeCPU nodeMem (fun _ => 0) 0 s) (r : ResourceName) :
  (r.of s.store.used).toInt = held (podRequest r) s
  := by
  have hba := hs.balance
  have hb := hs.bound r
  have hno := hs.held_nonneg r
  have hma := (r.of (nodeCPU, nodeMem)).toInt_lt
  rw [add_zero] at hba hb
  apply toInt_eq_of_modEq
  · rw [hba]
    apply held_modEq
  all_goals omega

section

variable (hs : Within nodeCPU nodeMem wanted uncounted s)
include hs

theorem mono (h : ∀ r, wanted' r ≤ wanted r) (calls : Finmap fun _ : Nat => CreateCall) :
  Within nodeCPU nodeMem wanted' uncounted { s with calls := calls }
  := by
  refine ⟨?_, hs.balance, hs.pods, hs.releases⟩
  intro r
  apply le_trans _ (hs.bound r)
  apply Int.add_le_add_left (h r)

theorem pods_le (h : 0 ≤ wanted r) :
  total (fun ps => podRequest r ps.pod) s.store.pods ≤ (r.of (nodeCPU, nodeMem)).toInt
  := by
  have hr : 0 ≤ total (fun ps => podRequest r ps.pod) s.releases := by
    apply total_nonneg
    intro id ps hps
    apply (hs.releases id ps hps).2
  have hb := hs.bound r
  unfold held at hb
  omega

theorem update (h : ∀ ps, (f ps).pod = ps.pod) {store : PodStore}
    (hp : store.pods = (s.store.update uid f).pods) (hu : store.used = s.store.used)
    (calls : Finmap fun _ : Nat => CreateCall) :
  Within nodeCPU nodeMem wanted uncounted { s with store := store, calls := calls }
  := by
  constructor
  · intro r
    rw [held_update _ h store hp]
    apply hs.bound r
  · rw [held_update _ h store hp, ← hs.balance, ← hu]
  · intro uid' ps' hps'
    rw [hp, lookup_update] at hps'
    split_ifs at hps'
    · obtain ⟨ps, hps, rfl⟩ := Option.map_eq_some_iff.1 hps'
      rw [h]
      apply hs.pods uid' ps hps
    · apply hs.pods uid' ps' hps'
  · apply hs.releases

end

theorem put {pod : ApiPod} (hs : Within nodeCPU nodeMem (fun r => podRequest r pod) 0 s)
    (hpo : Admissible pod) (h : s.store.pods.lookup uid = none) (handle : CreationHandle)
    (calls : Finmap fun _ : Nat => CreateCall) :
  Within nodeCPU nodeMem (fun _ => 0) (podResources pod)
    { s with store := s.store.put uid (pendingState pod handle), calls := calls }
  := by
  constructor
  · intro r
    rw [held_put _ h, add_zero]
    apply hs.bound r
  · rw [held_put _ h, ← hs.balance, add_zero]
    rfl
  · intro uid' ps' hp
    by_cases heq : uid' = uid
    · rw [heq] at hp
      cases (lookup_insert _).symm.trans hp
      exact hpo
    · apply hs.pods uid' ps'
      rw [← lookup_put_of_ne _ _ _ heq]
      exact hp
  · apply hs.releases

theorem count {pod : ApiPod} (hs : Within nodeCPU nodeMem wanted (podResources pod) s)
    (calls : Finmap fun _ : Nat => CreateCall) :
  Within nodeCPU nodeMem wanted 0
    { s with store := s.store.use (podResources pod).1 (podResources pod).2, calls := calls }
  := by
  refine ⟨hs.bound, ?_, hs.pods, hs.releases⟩
  rw [add_zero]
  exact hs.balance

section

variable (hs : Within nodeCPU nodeMem wanted uncounted s)
include hs

theorem markDeleting (uid : String) :
  Within nodeCPU nodeMem wanted uncounted { s with store := s.store.markDeleting uid }
  := by
  rcases s.store.markDeleting_eq uid with heq | heq
  · rw [heq]
    exact hs
  · apply hs.update (f := fun ps => { ps with deleting := true }) (fun _ => rfl)
    · rw [heq]
    · rw [heq]
      apply used_update

theorem remove (hid : id ∉ s.releases) (uid podNamespace name : String) (deletedAt now : Time) :
  Within nodeCPU nodeMem wanted uncounted (s.remove id uid podNamespace name deletedAt now)
  := by
  constructor
  · intro r
    rw [held_remove _ hid]
    apply hs.bound r
  · rw [held_remove _ hid, ← hs.balance, s.used_remove]
  · intro uid' ps' hps
    apply hs.pods uid' ps' (s.lookup_of_lookup_remove hps)
  · intro id' ps' hps
    rcases s.releases_remove hps with hr | ⟨uid', hp⟩
    · apply hs.releases id' ps' hr
    · apply hs.pods uid' ps' hp

theorem release (h : s.releases.lookup id = some ps) :
  Within nodeCPU nodeMem wanted uncounted
    { s with store := s.store.release ps, releases := s.releases.erase id }
  := by
  constructor
  · intro r
    have hpo := (hs.releases id ps h).2 r
    have hb := hs.bound r
    rw [held_release _ h]
    omega
  · rw [held_release _ h, ← hs.balance]
    change s.store.used + -podResources ps.pod + uncounted = _
    abel
  · apply hs.pods
  · intro id' ps' hp
    by_cases heq : id' = id
    · rw [heq] at hp
      cases (lookup_erase id s.releases).symm.trans hp
    · apply hs.releases id' ps'
      rw [← lookup_erase_ne heq]
      exact hp

end

end Within

namespace Reserved

variable {nodeCPU nodeMem : Int64} {s : Creation} {id : Nat}

theorem of_within {t : Creation} (hs : Reserved nodeCPU nodeMem s) (hcs : t.calls = s.calls)
    (hp : ∀ uid, s.store.pods.lookup uid = none → t.store.pods.lookup uid = none)
    (h : ∀ wanted uncounted, Within nodeCPU nodeMem wanted uncounted s →
      Within nodeCPU nodeMem wanted uncounted t) :
  Reserved nodeCPU nodeMem t
  := by
  cases hs with
  | idle hem hw => exact .idle (hcs.trans hem) (h _ _ hw)
  | call id c ho hc hcl hw =>
    refine .call id c (hcs.trans ho) hc ?_ (h _ _ hw)
    intro pod hpo
    apply hp _ (hcl pod hpo)

theorem only_call (hs : Reserved nodeCPU nodeMem s) (h : s.calls.lookup id = some c) :
  s.calls = insert id c ∅ ∧ Admissible c.pod
    ∧ (∀ pod, c = .cleared pod → s.store.pods.lookup pod.uid = none)
    ∧ Within nodeCPU nodeMem (fun r => c.wanted r) c.uncounted s
  := by
  cases hs with
  | idle hem _ =>
    rw [hem] at h
    cases h
  | call id' c' ho hc hcl hw =>
    by_cases heq : id = id'
    · subst heq
      rw [ho, lookup_insert] at h
      cases h
      exact ⟨ho, hc, hcl, hw⟩
    · rw [ho, lookup_insert_of_ne _ heq] at h
      cases h

theorem erase_only :
  (insert id c ∅ : Finmap fun _ : Nat => CreateCall).erase id = ∅
  := by
  apply ext_lookup
  intro id'
  by_cases heq : id' = id
  · rw [heq, lookup_erase, lookup_empty]
  · rw [lookup_erase_ne heq, lookup_insert_of_ne _ heq]

section

variable (hs : Reserved nodeCPU nodeMem s)
include hs

theorem check {pod : ApiPod} {pressure : Option HostPressure}
    (hca : ∀ r : ResourceName, 0 < (r.of (nodeCPU, nodeMem)).toInt)
    (hal : Alone s (.check id pod pressure)) (hpo : pod.spec.containers ≠ [])
    (had : s.store.admitPod pod nodeCPU nodeMem pressure = "") :
  Reserved nodeCPU nodeMem { s with calls := s.calls.insert id (.admitted pod) }
  := by
  obtain ⟨hem, hno, hsu⟩ := hal
  have hre (r : ResourceName) : 0 ≤ podRequest r pod := podRequest_nonneg (hno r)
  have hw : Within nodeCPU nodeMem (fun _ => 0) 0 s := by
    cases hs with
    | idle _ hw => exact hw
    | call id' c ho =>
      have hl := congrArg (lookup id') (ho.symm.trans hem)
      rw [lookup_insert] at hl
      cases hl
  have hf (r : ResourceName) :
      held (podRequest r) s + podRequest r pod ≤ (r.of (nodeCPU, nodeMem)).toInt := by
    have hh := hw.held_nonneg
    have hu := hw.used_eq_held
    have hch := checkResources_of_admitPod had
    have hlt (r : ResourceName) : podRequest r pod < 2 ^ 63 := by
      have := hh r
      have := hsu r
      rw [hu] at this
      omega
    rw [checkResources_eq_empty_iff_of_fits nodeCPU nodeMem hre hlt hsu] at hch
    rw [← hu r]
    rcases hch with hz | hf
    · have hb := hw.bound r
      rw [hu r, hz r]
      exact hb
    · apply hf r (hca r)
  refine .call id (.admitted pod) (by rw [hem]) ⟨hpo, hre⟩ ?_ ?_
  · rintro _ ⟨⟩
  · exact ⟨hf, hw.balance, hw.pods, hw.releases⟩

theorem guard {pod : ApiPod} (hc : s.calls.lookup id = some (.admitted pod))
    {started probed : Nat → Time}
    (hst : (creations nodeCPU nodeMem).step s (.guard id started probed) = some t) :
  Reserved nodeCPU nodeMem t
  := by
  obtain ⟨ho, hpo, -, hw⟩ := hs.only_call hc
  have hi : Within nodeCPU nodeMem (fun _ => 0) 0 s := by
    apply hw.mono _ s.calls
    intro r
    apply hpo.2 r
  have her : s.calls.erase id = ∅ := by
    rw [ho, erase_only]
  simp only [creations, hc] at hst
  split_ifs at hst
  · cases hst
    exact .idle her (hi.mono (fun _ => le_refl _) _)
  · cases hps : s.store.pods.lookup pod.uid with
    | none =>
      have hn : s.store.alreadyRunning pod.uid pod = (s.store, false, false) := by
        rw [alreadyRunning, hps]
      rw [hn] at hst
      cases hst
      refine .call id (.cleared pod) ?_ hpo ?_ (hw.mono (fun _ => le_refl _) _)
      · rw [ho, insert_insert]
      · rintro _ ⟨⟩
        exact hps
    | some ps =>
      rw [alreadyRunning_of_containers hps (hw.pods _ _ hps).1] at hst
      cases hst
      apply Reserved.idle her
      apply hi.update (f := fun ps => { ps with hydrated := false }) (fun _ => rfl) rfl
      apply used_update

theorem insert {pod : ApiPod} (hc : s.calls.lookup id = some (.cleared pod)) :
  Reserved nodeCPU nodeMem
    { s with
      store := s.store.put pod.uid (pendingState pod id)
      calls := s.calls.insert id (.inserted pod) }
  := by
  obtain ⟨ho, hpo, hcl, hw⟩ := hs.only_call hc
  refine .call id (.inserted pod) ?_ hpo ?_ ?_
  · rw [ho, insert_insert]
  · rintro _ ⟨⟩
  · apply hw.put hpo (hcl pod rfl)

theorem count {pod : ApiPod} (hc : s.calls.lookup id = some (.inserted pod)) :
  Reserved nodeCPU nodeMem
    { s with
      store := s.store.use (podResources pod).1 (podResources pod).2
      calls := s.calls.erase id }
  := by
  obtain ⟨ho, -, -, hw⟩ := hs.only_call hc
  apply Reserved.idle
  · rw [ho, erase_only]
  · apply hw.count

end

theorem step (hca : ∀ r : ResourceName, 0 < (r.of (nodeCPU, nodeMem)).toInt)
    (hs : Reserved nodeCPU nodeMem s) (ha : Alone s a)
    (hst : (creations nodeCPU nodeMem).step s a = some t) :
  Reserved nodeCPU nodeMem t
  := by
  cases a with
  | check id pod pressure =>
    simp only [creations] at hst
    split_ifs at hst with _ hem hrf
    · cases hst
      exact hs
    · cases hst
      exact hs
    · cases hst
      apply hs.check hca ha
      · simpa using hem
      · simpa using hrf
  | guard id started probed =>
    have hg := hst
    simp only [creations] at hst
    split at hst
    next pod hc =>
      apply hs.guard hc hg
    · cases hst
  | insert id =>
    simp only [creations] at hst
    split at hst
    next pod hc =>
      cases hst
      apply hs.insert hc
    · cases hst
  | count id =>
    simp only [creations] at hst
    split at hst
    next pod hc =>
      cases hst
      apply hs.count hc
    · cases hst
  | mark uid =>
    cases hst
    apply hs.of_within (t := { s with store := s.store.markDeleting uid }) rfl
    · intro uid' hn
      rcases s.store.markDeleting_eq uid with heq | heq
      · rw [heq]
        exact hn
      · rw [heq]
        apply (lookup_update ..).trans
        simp [hn]
    · intro wanted uncounted hw
      apply hw.markDeleting
  | remove id uid podNamespace name deletedAt now =>
    simp only [creations] at hst
    split_ifs at hst with hid
    cases hst
    apply hs.of_within s.calls_remove
    · intro uid' hn
      by_contra hsm
      obtain ⟨ps, hps⟩ := Option.ne_none_iff_exists'.1 hsm
      cases hn.symm.trans (s.lookup_of_lookup_remove hps)
    · intro wanted uncounted hw
      apply hw.remove hid
  | release id =>
    simp only [creations] at hst
    split at hst
    next ps hps =>
      cases hst
      apply hs.of_within
        (t := { s with store := s.store.release ps, releases := s.releases.erase id }) rfl
      · intro uid' hn
        exact hn
      · intro wanted uncounted hw
        apply hw.release hps
    · cases hst

end Reserved

/-- If no call of `CreatePod` is checked while another is under way, the exact sums of the requests
of the registered pods, if not negative and without overflow, do not exceed the capacities. -/
theorem requests_le_capacity {nodeCPU nodeMem : Int64} (hcpu : 0 < nodeCPU) (hmem : 0 < nodeMem)
    {steps : List CreationStep} {s : Creation}
    (hsteps : (creations nodeCPU nodeMem).Meets Alone newCreation steps)
    (hrun : (creations nodeCPU nodeMem).run newCreation steps = some s) :
  ∀ r : ResourceName, total (fun ps => podRequest r ps.pod) s.store.pods
    ≤ (r.of (nodeCPU, nodeMem)).toInt
  := by
  have hca : ∀ r : ResourceName, 0 < (r.of (nodeCPU, nodeMem)).toInt := by
    rw [Int64.lt_iff_toInt_lt] at hcpu hmem
    rw [ResourceName.forall_iff]
    exact ⟨hcpu, hmem⟩
  have hsa : Reserved nodeCPU nodeMem newCreation := by
    apply Reserved.idle rfl
    refine ⟨?_, rfl, ?_, ?_⟩
    · intro r
      apply le_of_lt (hca r)
    all_goals rintro _ _ ⟨⟩
  have hrs : Reserved nodeCPU nodeMem s :=
    (creations nodeCPU nodeMem).run_induction hsa
      (fun _ _ _ hs ha hst => hs.step hca ha hst) hsteps hrun
  intro r
  cases hrs with
  | idle _ hw => exact hw.pods_le (le_refl 0)
  | call id c _ hc _ hw => exact hw.pods_le (c.wanted_nonneg hc r)

def createSteps (id : Nat) (pod : ApiPod) : List CreationStep :=
  [.check id pod none, .guard id (fun _ => 0) (fun _ => 0), .insert id, .count id]

theorem alone_createSteps {nodeCPU nodeMem : Int64} {s : Creation} {id : Nat} {pod : ApiPod}
    (h : Alone s (.check id pod none)) :
  (creations nodeCPU nodeMem).Meets Alone s (createSteps id pod)
  := ⟨h, fun _ _ => ⟨trivial, fun _ _ => ⟨trivial, fun _ _ => ⟨trivial, fun _ _ => trivial⟩⟩⟩⟩

theorem alone_requestingPod {s : Creation} {id : Nat} {cpu memory : Int64} (hs : s.calls = ∅)
    (hc : 0 ≤ cpu.toInt) (hm : 0 ≤ memory.toInt) (hcs : s.store.used.1.toInt + cpu.toInt < 2 ^ 63)
    (hms : s.store.used.2.toInt + memory.toInt < 2 ^ 63) :
  Alone s (.check id (requestingPod uid cpu memory) none)
  := by
  refine ⟨hs, fun r c hmc => ?_, ?_⟩
  · obtain rfl := List.mem_singleton.mp hmc
    cases r with
    | cpu => exact hc
    | memory => exact hm
  · rw [ResourceName.forall_iff]
    simpa [requestingPod, podRequest, containerRequest, ResourceName.of] using ⟨hcs, hms⟩

/-- Two pods fit, and a third one is refused. -/
theorem requests_le_capacity_three_pods :
  let steps := createSteps 0 (requestingPod "u" 600 1024)
    ++ createSteps 1 (requestingPod "v" 300 2048) ++ [.check 2 (requestingPod "w" 200 512) none]
  ∃ s, (creations 1000 4096).run newCreation steps = some s
    ∧ total (fun ps => podRequest .cpu ps.pod) s.store.pods = 900
    ∧ ∀ r : ResourceName, total (fun ps => podRequest r ps.pod) s.store.pods
      ≤ (r.of ((1000, 4096) : Int64 × Int64)).toInt
  := by
  intro steps
  have hse : (creations 1000 4096).Meets Alone newCreation steps := by
    refine (creations 1000 4096).meets_append_of_run ((creations 1000 4096).meets_append_of_run
      (alone_createSteps (alone_requestingPod rfl (by decide) (by decide) (by decide) (by decide)))
      rfl (alone_createSteps (alone_requestingPod rfl (by decide) (by decide) (by decide)
        (by decide)))) rfl ⟨alone_requestingPod rfl (by decide) (by decide) (by decide)
        (by decide), fun _ _ => trivial⟩
  exact ⟨_, rfl, rfl, requests_le_capacity (by decide) (by decide) hse rfl⟩

/-- On a node of one core two pods of 600 millicores each are checked before either is registered:
both are registered, and request 1200. -/
theorem requests_exceed_capacity :
  let large : Container :=
    { name := "a", requests := { cpu := some 1, memory := some 9223372036854775807 } }
  (∃ s, (creations 1000 4096).run newCreation
      [.check 0 (requestingPod "u" 600 1024) none, .check 1 (requestingPod "v" 600 1024) none,
        .guard 0 (fun _ => 0) (fun _ => 0), .insert 0, .count 0,
        .guard 1 (fun _ => 0) (fun _ => 0), .insert 1, .count 1] = some s
      ∧ total (fun ps => podRequest .cpu ps.pod) s.store.pods = 1200)
    ∧ ∃ s, (creations 1000 4096).run newCreation
      [.check 0 { spec := ⟨.always, [large, large]⟩, uid := "u" } none,
        .guard 0 (fun _ => 0) (fun _ => 0), .insert 0, .count 0] = some s
      ∧ total (fun ps => podRequest .memory ps.pod) s.store.pods = 2 ^ 64 - 2
  := by
  exact ⟨⟨_, rfl, rfl⟩, _, rfl, rfl⟩

end Periapsis.Node
