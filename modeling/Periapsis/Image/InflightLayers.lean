import Periapsis.Transition.System
import Periapsis.Transition.Threads

/-!
# Layers in flight

A host announces the layers that it pulls, so that others can wait for them.
-/

namespace Periapsis.Image

open Transition List

inductive LayerThread (κ : Type*) where
  | registering (infos : List (κ × Bool)) (rest : List (Option κ))
  | marking (infos : List (κ × Bool)) (hash : κ) (rest : List (Option κ))
  | pulling (hash : κ) (announced : Bool)
  | executing (hash : κ) (announced : Bool)
  | executed (hash : κ)
  | joined (hash : κ)
  deriving DecidableEq

structure Inflight (κ : Type*) where
  inflightLayers : List κ
  threads : List (LayerThread κ)
  deriving DecidableEq

inductive InflightAction (κ : Type*) where
  | layersFromImage (diffIDs : List (Option κ))
  | step (i : Nat) (onDisk : Bool)
  deriving DecidableEq

namespace Inflight

variable {κ : Type*} [DecidableEq κ]

def idle : Inflight κ where
  inflightLayers := []
  threads := []

def markInflight (hash : κ) (inflightLayers : List κ) : List κ :=
  if hash ∈ inflightLayers then inflightLayers else inflightLayers ++ [hash]

def markLayerDone (hash : κ) (inflightLayers : List κ) : List κ :=
  inflightLayers.filter (· ≠ hash)

def inflightHashes (selfMarker : Option κ) (s : Inflight κ) : List κ :=
  selfMarker.toList ++ s.inflightLayers

variable (s : Inflight κ)

def busy (hash : κ) : Bool :=
  s.threads.any fun
    | .executing h _ | .executed h => h = hash
    | _ => false

def leave (i : Nat) (ts : List (LayerThread κ)) : Inflight κ :=
  { s with threads := splice s.threads i ts }

def advance (i : Nat) (onDisk : Bool) : LayerThread κ → Option (Inflight κ)
  | .registering infos [] => some (s.leave i (infos.map fun info => .pulling info.1 info.2))
  -- The hash cannot be read, and the call returns.
  | .registering _ (none :: _) => some (s.leave i [])
  | .registering infos (some hash :: rest) =>
    if onDisk then some (s.leave i [.registering (infos ++ [(hash, false)]) rest])
    else some (s.leave i [.marking infos hash rest])
  | .marking infos hash rest =>
    some
      { s.leave i [.registering (infos ++ [(hash, true)]) rest] with
        inflightLayers := markInflight hash s.inflightLayers }
  | .pulling hash announced =>
    if s.busy hash then some (s.leave i [.joined hash])
    else some (s.leave i [.executing hash announced])
  | .executing hash announced =>
    some
      { s.leave i [.executed hash] with
        inflightLayers :=
          if announced then markLayerDone hash s.inflightLayers else s.inflightLayers }
  -- The execution is over for all that wait for it.
  | .executed hash =>
    some { s with threads := (splice s.threads i []).filter (· ≠ .joined hash) }
  | .joined _ => none

def step : InflightAction κ → Option (Inflight κ)
  | .layersFromImage diffIDs => some { s with threads := s.threads ++ [.registering [] diffIDs] }
  | .step i onDisk => s.threads[i]?.bind (s.advance i onDisk)

end Inflight

def layerCallers (κ : Type*) [DecidableEq κ] : System (Inflight κ) (InflightAction κ) where
  step := Inflight.step

section Withdrawal

variable {κ : Type*} [DecidableEq κ] {s s' : Inflight κ} {hash : κ}

/-- The hash can be read if the call has announced a layer before; and an execution that is shared
after that is still to withdraw it. -/
def LayerThread.withdraws (s : Inflight κ) : LayerThread κ → Bool
  | .registering infos (none :: _) => infos.all fun info => !info.2
  | .pulling hash true => s.busy hash → .executing hash true ∈ s.threads
  | _ => true

def Withdraws (s : Inflight κ) : InflightAction κ → Prop
  | .layersFromImage _ => True
  | .step i _ => ∀ t ∈ s.threads[i]?, t.withdraws s = true

instance (s : Inflight κ) : DecidablePred (Withdraws s)
  | .layersFromImage _ => inferInstanceAs (Decidable True)
  | .step i _ => inferInstanceAs (Decidable (∀ t ∈ s.threads[i]?, t.withdraws s = true))

def LayerThread.Owes (hash : κ) : LayerThread κ → Prop
  | .registering infos _ | .marking infos _ _ => (hash, true) ∈ infos
  | .pulling h announced | .executing h announced => h = hash ∧ announced = true
  | _ => False

def Inflight.Owed (s : Inflight κ) : Prop :=
  ∀ hash ∈ s.inflightLayers, ∃ t ∈ s.threads, t.Owes hash

section

variable (h : s.Owed)
include h

omit [DecidableEq κ] in
theorem Inflight.Owed.leave (ht : s.threads[i]? = some t)
    (hts : ∀ hash, t.Owes hash → ∃ u ∈ ts, u.Owes hash) :
  (s.leave i ts).Owed
  := by
  intro hash hme
  exact exists_mem_splice ht (hts hash) (h hash hme)

theorem Inflight.Owed.marking (ht : s.threads[i]? = some (.marking infos hash rest)) :
  Inflight.Owed
    { s.leave i [.registering (infos ++ [(hash, true)]) rest] with
      inflightLayers := markInflight hash s.inflightLayers }
  := by
  intro has hme
  have hc : has ∈ s.inflightLayers ∨ has = hash := by
    unfold markInflight at hme
    split at hme
    · exact .inl hme
    · simpa using hme
  rcases hc with hme | rfl
  · refine exists_mem_splice ht ?_ (h has hme)
    intro ho
    exact ⟨_, mem_singleton_self _, mem_append_left _ ho⟩
  · refine ⟨_, mem_splice_of_left (mem_singleton_self _), ?_⟩
    exact mem_append_right _ (mem_singleton_self _)

omit [DecidableEq κ] in
theorem Inflight.Owed.joined {i : Nat} {announced : Bool}
    (ht : s.threads[i]? = some (.pulling hash announced))
    (hee : announced → .executing hash true ∈ s.threads) :
  (s.leave i [.joined hash]).Owed
  := by
  intro has hme
  obtain ⟨u, hu, ho⟩ := h has hme
  rcases mem_splice_of_mem [.joined hash] ht hu with rfl | hu'
  · obtain ⟨rfl, han⟩ := ho
    rcases mem_splice_of_mem [.joined hash] ht (hee han) with heq | hm
    · cases heq
    · exact ⟨_, hm, rfl, rfl⟩
  · exact ⟨u, hu', ho⟩

theorem Inflight.Owed.executed (ht : s.threads[i]? = some (.executing hash announced)) :
  Inflight.Owed
    { s.leave i [.executed hash] with
      inflightLayers :=
        if announced then markLayerDone hash s.inflightLayers else s.inflightLayers }
  := by
  intro has hme
  have hm : has ∈ s.inflightLayers ∧ (announced → has ≠ hash) := by
    cases announced with
    | true => simpa [markLayerDone] using hme
    | false => exact ⟨hme, by simp⟩
  refine exists_mem_splice ht ?_ (h has hm.1)
  rintro ⟨rfl, han⟩
  exact absurd rfl (hm.2 han)

theorem Inflight.Owed.released (ht : s.threads[i]? = some (.executed hash)) :
  Inflight.Owed { s with threads := (splice s.threads i []).filter (· ≠ .joined hash) }
  := by
  intro has hme
  have hex : ∃ u ∈ splice s.threads i [], u.Owes has := exists_mem_splice ht False.elim (h has hme)
  obtain ⟨u, hu, ho⟩ := hex
  refine ⟨u, mem_filter.2 ⟨hu, ?_⟩, ho⟩
  rw [decide_eq_true_iff]
  rintro rfl
  exact ho

theorem Inflight.Owed.advance (ht : s.threads[i]? = some t) (hw : Withdraws s (.step i onDisk))
    (had : s.advance i onDisk t = some s') :
  s'.Owed
  := by
  have hl := hw t ht
  cases t with
  | registering infos rest =>
    cases rest with
    | nil =>
      cases had
      refine h.leave ht fun hash ho => ?_
      exact ⟨.pulling hash true, mem_map.2 ⟨_, ho, rfl⟩, rfl, rfl⟩
    | cons diffID rest =>
      cases diffID with
      | none =>
        cases had
        refine h.leave ht fun hash ho => ?_
        cases all_eq_true.1 hl _ ho
      | some hash =>
        cases onDisk with
        | true =>
          cases had
          refine h.leave ht fun hash ho => ?_
          exact ⟨_, mem_singleton_self _, mem_append_left _ ho⟩
        | false =>
          cases had
          refine h.leave ht fun hash ho => ?_
          exact ⟨_, mem_singleton_self _, ho⟩
  | marking infos hash rest =>
    cases had
    exact h.marking ht
  | pulling hash announced =>
    simp only [Inflight.advance] at had
    split at had
    next hb =>
      cases had
      apply h.joined ht
      rintro rfl
      exact of_decide_eq_true hl hb
    · cases had
      refine h.leave ht fun hash ho => ?_
      exact ⟨_, mem_singleton_self _, ho⟩
  | executing hash announced =>
    cases had
    exact h.executed ht
  | executed hash =>
    cases had
    exact h.released ht
  | joined hash => cases had

theorem Inflight.Owed.step (hw : Withdraws s a) (hs : s.step a = some s') :
  s'.Owed
  := by
  cases a with
  | layersFromImage diffIDs =>
    cases hs
    intro hash hme
    obtain ⟨t, ht, ho⟩ := h hash hme
    exact ⟨t, mem_append_left _ ht, ho⟩
  | step i onDisk =>
    obtain ⟨t, ht, had⟩ := Option.bind_eq_some_iff.1 hs
    exact h.advance ht hw had

end

/-- When all calls have returned, nothing is announced but the marker of the host. -/
theorem inflight_withdrawn (selfMarker : Option κ) {actions : List (InflightAction κ)}
    (hmeets : (layerCallers κ).Meets Withdraws .idle actions)
    (hrun : (layerCallers κ).run .idle actions = some s) (hreturned : s.threads = []) :
  s.inflightHashes selfMarker = selfMarker.toList
  := by
  have how : s.Owed := by
    refine System.run_induction _ ?_ (fun u a v hu ha hv => hu.step ha hv) hmeets hrun
    intro hash hme
    cases hme
  have hn : s.inflightLayers = [] := by
    apply eq_nil_iff_forall_not_mem.mpr
    intro hash hme
    obtain ⟨t, ht, -⟩ := how hash hme
    rw [hreturned] at ht
    cases ht
  rw [Inflight.inflightHashes, hn, append_nil]

end Withdrawal

def sharedLayer : List (InflightAction Nat) :=
  [.layersFromImage [some 1], .layersFromImage [some 1, some 2], .step 0 false, .step 1 false,
    .step 0 false, .step 1 false, .step 0 false, .step 0 false, .step 1 false, .step 1 false,
    .step 1 false, .step 1 false, .step 0 false, .step 0 false, .step 0 false, .step 0 false,
    .step 0 false]

theorem inflight_withdrawn_shared :
  ∃ s, (layerCallers Nat).run .idle sharedLayer = some s
    ∧ s.inflightHashes (some 0) = [0]
  := by
  have hru : (layerCallers Nat).run .idle sharedLayer = some .idle := by decide +kernel
  exact ⟨_, hru, inflight_withdrawn (some 0) (by decide +kernel) hru rfl⟩

theorem announced_after_return :
  (layerCallers Nat).run .idle
      [.layersFromImage [some 1, none], .step 0 false, .step 0 false, .step 0 false]
    = some { inflightLayers := [1], threads := [] }
  := by decide +kernel

-- The second call announces the layer after the first has withdrawn it, and shares the
-- execution of the first, which has not been removed yet.
example :
  (layerCallers Nat).run .idle
      [.layersFromImage [some 1], .layersFromImage [some 1], .step 0 false, .step 1 false,
        .step 0 false, .step 0 false, .step 0 false, .step 0 false, .step 1 false, .step 1 false,
        .step 1 false, .step 0 false]
    = some { inflightLayers := [1], threads := [] }
  := by decide +kernel

end Periapsis.Image
