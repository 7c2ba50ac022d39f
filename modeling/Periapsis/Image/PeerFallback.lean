import Mathlib.Data.List.Perm.Subperm
import Periapsis.Transition.System

/-!
# Falling back to another peer

The layers of an image are pulled at the same time, from the peers that a selector has in common for
them.
-/

namespace Periapsis.Image

open Transition List Function Option

variable {κ ε : Type*} [DecidableEq κ]

/-- The peers that are asked in turn; the cursor, an `int` in the source, does not run over. -/
structure PeerSelector (ε : Type*) where
  healthy : List ε
  next : ℕ := 0

namespace PeerSelector

def pick (ps : PeerSelector ε) : PeerSelector ε × Option ε :=
  if ps.healthy.length = 0 then (ps, none)
  else ({ ps with next := ps.next + 1 }, ps.healthy[ps.next % ps.healthy.length]?)

variable {ps : PeerSelector ε}

theorem pick_healthy (h : ps.pick = (ps', r)) :
  ps'.healthy = ps.healthy ∧ ∀ ep, r = some ep → ep ∈ ps.healthy
  := by
  unfold pick at h
  split at h
  · cases h
    simp
  · cases h
    exact ⟨rfl, fun ep hep => mem_of_getElem? hep⟩

variable [DecidableEq ε]

def markBad (ep : ε) (ps : PeerSelector ε) : PeerSelector ε :=
  match ps.healthy.idxOf? ep with
  | none => ps
  | some i =>
    let healthy := ps.healthy.eraseIdx i
    let next := if i < ps.next then ps.next - 1 else ps.next
    { healthy := healthy
      next := if 0 < healthy.length then next % healthy.length else 0 }

theorem markBad_healthy (ep : ε) :
  (ps.markBad ep).healthy = ps.healthy.erase ep
  := by
  rw [erase_eq_eraseIdx, markBad]
  split
  all_goals simp [*]

end PeerSelector

/-- How the attempt to get a layer from peers ends. -/
inductive PeerOutcome where
  | exhausted
  | pulled
  | mkdirFailed
  deriving DecidableEq

inductive FetchStage (ε : Type*) where
  | picking
  | fetching (ep : ε)
  | saving (ep : ε)
  | evicting (ep : ε) (answered : Bool)
  | cleaning
  | ended (outcome : PeerOutcome)
  deriving DecidableEq

inductive FetchStep where
  | pick
  | fetchOnePeer (ok : Bool)
  | saveAndExtract (ok : Bool)
  | markBad
  | cleanUp (ok : Bool)
  deriving DecidableEq

def FetchStep.isFailure : FetchStep → Bool
  | .fetchOnePeer false | .saveAndExtract false => true
  | _ => false

variable [DecidableEq ε]

def FetchStage.step (ps : PeerSelector ε) :
    FetchStage ε → FetchStep → Option (PeerSelector ε × FetchStage ε)
  | .picking, .pick =>
    match ps.pick with
    | (ps, some ep) => some (ps, .fetching ep)
    | (ps, none) => some (ps, .ended .exhausted)
  | .fetching ep, .fetchOnePeer true => some (ps, .saving ep)
  | .fetching ep, .fetchOnePeer false => some (ps, .evicting ep false)
  | .saving _, .saveAndExtract true => some (ps, .ended .pulled)
  | .saving ep, .saveAndExtract false => some (ps, .evicting ep true)
  | .evicting ep false, .markBad => some (ps.markBad ep, .picking)
  | .evicting ep true, .markBad => some (ps.markBad ep, .cleaning)
  | .cleaning, .cleanUp true => some (ps, .picking)
  | .cleaning, .cleanUp false => some (ps, .ended .mkdirFailed)
  | _, _ => none

structure PeerFetches (κ ε : Type*) where
  selector : PeerSelector ε
  stage : κ → FetchStage ε

def PeerFetches.start (peers : List ε) : PeerFetches κ ε where
  selector := { healthy := peers }
  stage _ := .picking

def peerFetches (κ ε : Type*) [DecidableEq κ] [DecidableEq ε] :
    System (PeerFetches κ ε) (κ × FetchStep) where
  step s a := (FetchStage.step s.selector (s.stage a.1) a.2).map fun r =>
    { selector := r.1, stage := update s.stage a.1 r.2 }

def stepsOf (layer : κ) (run : List (κ × FetchStep)) : List FetchStep :=
  (run.filter (·.1 = layer)).map (·.2)

def failures (layer : κ) (run : List (κ × FetchStep)) : ℕ :=
  (stepsOf layer run).countP FetchStep.isFailure

namespace FetchStage

def room : FetchStage ε → ℕ
  | .evicting _ _ => 5
  | .cleaning => 4
  | .picking => 3
  | .fetching _ => 2
  | .saving _ => 1
  | .ended _ => 0

def isEnded : FetchStage ε → Bool
  | .ended _ => true
  | _ => false

def tried : FetchStage ε → Option ε
  | .fetching ep | .saving ep => some ep
  | _ => none

def evicted : FetchStage ε → Option ε
  | .evicting ep _ => some ep
  | _ => none

variable {ps ps' : PeerSelector ε} {stage stage' : FetchStage ε} {op : FetchStep}

section

variable (h : stage.step ps op = some (ps', stage'))
include h

theorem room_step :
  stage'.room + 1 ≤ stage.room + 5 * [op].countP FetchStep.isFailure
  := by
  revert h
  fun_cases FetchStage.step ps stage op with
  | case11 =>
    intro h
    contradiction
  | _ =>
    rintro ⟨⟩
    simp [room, FetchStep.isFailure]

theorem step_healthy :
  ps'.healthy = stage.evicted.elim ps.healthy ps.healthy.erase
  := by
  revert h
  fun_cases FetchStage.step ps stage op with
  | case1 ps₁ ep hp | case2 ps₁ hp =>
    rintro ⟨⟩
    apply (PeerSelector.pick_healthy hp).1
  | case7 ep | case8 ep =>
    rintro ⟨⟩
    apply ps.markBad_healthy
  | case11 =>
    intro h
    contradiction
  | _ =>
    rintro ⟨⟩
    rfl

theorem step_healthy_sublist :
  List.Sublist ps'.healthy ps.healthy
  := by
  rw [step_healthy h]
  cases stage.evicted with
  | none => exact .refl _
  | some ep => exact erase_sublist

theorem step_failure (hop : op.isFailure) :
  stage'.tried = none ∧ ∃ ep, stage.tried = some ep ∧ stage'.evicted = some ep
  := by
  revert h hop
  fun_cases FetchStage.step ps stage op with
  | case4 ep | case6 ep =>
    rintro ⟨⟩ -
    exact ⟨rfl, ep, rfl, rfl⟩
  | case11 =>
    intro h
    contradiction
  | _ =>
    intro _ hop
    contradiction

theorem step_success (hop : op.isFailure = false) :
  ∀ ep, stage'.tried = some ep → stage.tried = some ep ∨ ep ∈ ps'.healthy
  := by
  revert h hop
  fun_cases FetchStage.step ps stage op with
  | case1 ps₁ ep hp =>
    rintro ⟨⟩ - _ ⟨⟩
    obtain ⟨hh, hme⟩ := PeerSelector.pick_healthy hp
    right
    rw [hh]
    apply hme ep rfl
  | case3 ep =>
    rintro ⟨⟩ - _ hep
    exact .inl hep
  | case4 | case6 =>
    intro _ hop
    contradiction
  | case11 =>
    intro h
    contradiction
  | _ =>
    rintro ⟨⟩ - ep hep
    contradiction

end

theorem mem_healthy_of_pick (h : stage.step ps .pick = some (ps', .fetching ep)) :
  ep ∈ ps'.healthy
  := by
  rcases step_success h rfl ep rfl with ht | hh
  · cases stage with
    | fetching _ | saving _ => simp [step] at h
    | _ => contradiction
  · exact hh

theorem exists_step (ps : PeerSelector ε) (h : stage.isEnded = false) :
  ∃ op, (stage.step ps op).isSome
  := by
  cases stage with
  | picking =>
    use .pick
    rw [step]
    split
    all_goals rfl
  | fetching ep => exact ⟨.fetchOnePeer true, rfl⟩
  | saving ep => exact ⟨.saveAndExtract true, rfl⟩
  | evicting ep answered =>
    use .markBad
    cases answered with
    | false | true => rfl
  | cleaning => exact ⟨.cleanUp true, rfl⟩
  | ended outcome => contradiction

structure Failed (peers healthy : List ε) (stage : FetchStage ε) (failed : List ε) : Prop where
  nodup : failed.Nodup
  subset : failed ⊆ peers
  marked : ∀ ep ∈ failed, ep ∈ healthy → stage.evicted = some ep
  tried : ∀ ep, stage.tried = some ep → ep ∈ peers ∧ ep ∉ failed

omit [DecidableEq ε] in
theorem Failed.picking {healthy : List ε} :
  Failed peers healthy .picking []
  where
  nodup := nodup_nil
  subset := nil_subset _
  marked := by simp
  tried _ hep := (some_ne_none _ hep.symm).elim

omit [DecidableEq ε] in
theorem Failed.mono {healthy hea failed : List ε} (hsu : hea ⊆ healthy)
    (hf : Failed peers healthy stage failed) :
  Failed peers hea stage failed
  where
  nodup := hf.nodup
  subset := hf.subset
  marked ep hep hh := hf.marked ep hep (hsu hh)
  tried := hf.tried

variable {peers failed : List ε}

theorem Failed.not_mem_healthy (hn : ps.healthy.Nodup) (hf : Failed peers ps.healthy stage failed)
    (h : stage.step ps op = some (ps', stage')) (hep : ep ∈ failed) :
  ep ∉ ps'.healthy
  := by
  intro hh
  have hma := hf.marked ep hep ((step_healthy_sublist h).subset hh)
  rw [step_healthy h, hma] at hh
  exact hn.not_mem_erase hh

theorem Failed.step (hn : ps.healthy.Nodup) (hpe : ps.healthy ⊆ peers)
    (hf : Failed peers ps.healthy stage failed) (h : stage.step ps op = some (ps', stage')) :
  ∃ failed', Failed peers ps'.healthy stage' failed'
    ∧ failed'.length = failed.length + [op].countP FetchStep.isFailure
  := by
  have hno (ep : ε) (hep : ep ∈ failed) : ep ∉ ps'.healthy := hf.not_mem_healthy hn h hep
  by_cases hop : op.isFailure
  · obtain ⟨htr, ep, ht, hev⟩ := step_failure h hop
    obtain ⟨hep, hfa⟩ := hf.tried ep ht
    refine ⟨ep :: failed, ⟨nodup_cons.2 ⟨hfa, hf.nodup⟩,
      cons_subset.2 ⟨hep, hf.subset⟩, ?_, by simp [htr]⟩, by simp [hop]⟩
    intro ep' hep' hh
    rcases mem_cons.1 hep' with rfl | hep'
    · exact hev
    · exact absurd hh (hno ep' hep')
  · rw [Bool.not_eq_true] at hop
    have htr := step_success h hop
    refine ⟨failed, ⟨hf.nodup, hf.subset, fun ep hep hh => absurd hh (hno ep hep), ?_⟩,
      by simp [hop]⟩
    intro ep hep
    rcases htr ep hep with ht | hh
    · exact hf.tried ep ht
    · use hpe ((step_healthy_sublist h).subset hh)
      exact fun hfa => hno ep hfa hh

end FetchStage

variable {peers : List ε} {run : List (κ × FetchStep)} {s t : PeerFetches κ ε}

structure FetchRun (peers : List ε) (run : List (κ × FetchStep)) (s : PeerFetches κ ε) : Prop where
  healthy : List.Sublist s.selector.healthy peers
  room : ∀ layer, (stepsOf layer run).length + (s.stage layer).room ≤ 5 * failures layer run + 3
  failed : ∀ layer, ∃ failed, (s.stage layer).Failed peers s.selector.healthy failed
    ∧ failed.length = failures layer run

variable {layer : κ}

theorem peerFetches_step (h : (peerFetches κ ε).step s (layer, op) = some t) :
  ∃ stage, FetchStage.step s.selector (s.stage layer) op = some (t.selector, stage)
    ∧ t.stage = update s.stage layer stage
  := by
  obtain ⟨⟨ps, stage⟩, hst, rfl⟩ := map_eq_some_iff.1 h
  exact ⟨stage, hst, rfl⟩

variable {a : κ × FetchStep}

theorem stepsOf_concat :
  stepsOf layer (run ++ [a]) = stepsOf layer run ++ if a.1 = layer then [a.2] else []
  := by
  by_cases ha : a.1 = layer
  all_goals simp [stepsOf, ha]

theorem failures_concat :
  failures layer (run ++ [a])
    = failures layer run + if a.1 = layer then [a.2].countP FetchStep.isFailure else 0
  := by
  rw [failures, stepsOf_concat, countP_append, failures]
  split
  all_goals rfl

omit [DecidableEq ε] in
theorem FetchRun.start :
  FetchRun peers [] (.start peers : PeerFetches κ ε)
  where
  healthy := .refl _
  room _ := Nat.le_refl _
  failed _ := ⟨[], .picking, rfl⟩

theorem FetchRun.step (hd : peers.Nodup) (hs : FetchRun peers run s)
    (h : (peerFetches κ ε).step s a = some t) :
  FetchRun peers (run ++ [a]) t
  := by
  obtain ⟨stage, hst, hsa⟩ := peerFetches_step h
  have hsu := FetchStage.step_healthy_sublist hst
  refine ⟨hsu.trans hs.healthy, fun layer => ?_, fun layer => ?_⟩
  · rw [stepsOf_concat, failures_concat, hsa]
    have hro := hs.room layer
    by_cases hl : a.1 = layer
    · subst hl
      have hrm := FetchStage.room_step hst
      simp only [update_self, if_true, length_append, length_singleton]
      omega
    · simpa [hl, update_of_ne (Ne.symm hl)] using hro
  · rw [failures_concat, hsa]
    obtain ⟨failed, hf, hln⟩ := hs.failed layer
    by_cases hl : a.1 = layer
    · subst hl
      rw [update_self, if_pos rfl, ← hln]
      exact hf.step (hd.sublist hs.healthy) hs.healthy.subset hst
    · rw [update_of_ne (Ne.symm hl), if_neg hl]
      exact ⟨failed, hf.mono hsu.subset, hln⟩

theorem run_healthy (h : (peerFetches κ ε).run s run = some t) :
  List.Sublist t.selector.healthy s.selector.healthy
  := by
  apply (peerFetches κ ε).run_history
    (P := fun _ u => List.Sublist u.selector.healthy s.selector.healthy) (.refl _) _ h
  intro _ u a v hu hst
  obtain ⟨_, hst, -⟩ := peerFetches_step hst
  exact (FetchStage.step_healthy_sublist hst).trans hu

/-- A layer has at most as many failed fetches as there are peers, and is done with them after a
bounded number of steps; a peer that is marked is not picked again. -/
theorem peers_not_retried (hdistinct : peers.Nodup)
    (h : (peerFetches κ ε).run (.start peers) run = some s) :
  (∀ layer, failures layer run ≤ peers.length
    ∧ (stepsOf layer run).length ≤ 5 * peers.length + 3
    ∧ ((s.stage layer).isEnded = false → ∃ op t, (peerFetches κ ε).step s (layer, op) = some t))
  ∧ ∀ layer ep answered, s.stage layer = .evicting ep answered
    → ∀ later t, (peerFetches κ ε).run s ((layer, .markBad) :: later) = some t
    → ∀ layer' u, (peerFetches κ ε).step t (layer', .pick) = some u
    → u.stage layer' ≠ .fetching ep
  := by
  have hs : FetchRun peers run s :=
    (peerFetches κ ε).run_history .start (fun _ _ _ _ hu hst => hu.step hdistinct hst) h
  constructor
  · intro layer
    obtain ⟨failed, hf, hln⟩ := hs.failed layer
    have hle : failures layer run ≤ peers.length := by
      rw [← hln]
      apply (subperm_of_subset hf.nodup hf.subset).length_le
    have hro := hs.room layer
    refine ⟨hle, by omega, fun hen => ?_⟩
    obtain ⟨op, hop⟩ := FetchStage.exists_step s.selector hen
    obtain ⟨r, hr⟩ := isSome_iff_exists.mp hop
    exact ⟨op, _, map_eq_some_iff.mpr ⟨r, hr, rfl⟩⟩
  · intro layer ep answered hsa later t hru layer' u hp hfe
    obtain ⟨v, hm, hru⟩ := (peerFetches κ ε).run_cons.mp hru
    obtain ⟨_, hm, -⟩ := peerFetches_step hm
    obtain ⟨stage, hp, hup⟩ := peerFetches_step hp
    rw [hup, update_self] at hfe
    subst hfe
    have hsu := (FetchStage.step_healthy_sublist hp).trans (run_healthy hru)
    have hme := hsu.subset (FetchStage.mem_healthy_of_pick hp)
    rw [FetchStage.step_healthy hm, hsa] at hme
    exact (hdistinct.sublist hs.healthy).not_mem_erase hme

def twoFetches : List (Bool × FetchStep) :=
  [(true, .pick), (false, .pick), (true, .fetchOnePeer false), (true, .markBad),
    (false, .fetchOnePeer true), (true, .pick), (true, .fetchOnePeer true),
    (true, .saveAndExtract false), (false, .saveAndExtract true), (true, .markBad)]

theorem peers_not_retried_two :
  ∃ s, (peerFetches Bool ℕ).run (.start [1, 2]) twoFetches = some s
    ∧ failures true twoFetches ≤ 2 ∧ (stepsOf true twoFetches).length ≤ 13
  := by
  obtain ⟨s, hs⟩ := isSome_iff_exists.mp
    (by decide : ((peerFetches Bool ℕ).run (.start [1, 2]) twoFetches).isSome = true)
  obtain ⟨hfi, hse, -⟩ := (peers_not_retried (by decide) hs).1 true
  exact ⟨s, hs, hfi, hse⟩

end Periapsis.Image
