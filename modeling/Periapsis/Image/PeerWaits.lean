import Periapsis.Transition.Acyclic
import Periapsis.Transition.System

/-!
# Hosts that wait for each other

Hosts pull layers from each other.
-/

namespace Periapsis.Image

open Transition Option Function Prod

inductive PullStage (η : Type*) where
  | idle
  | registered
  | querying
  | found (peer : η)
  | waiting (peer : η)
  | fetching
  deriving DecidableEq

def PullStage.isWaiting {η : Type*} : PullStage η → Bool
  | .waiting _ => true
  | _ => false

structure PeerPulls (η κ : Type*) where
  stage : η → κ → PullStage η
  inflight : η → κ → Bool
  blob : η → κ → Bool

inductive PeerStep (η : Type*) where
  | register
  | query
  | find (peer : η)
  | notFound
  | wait
  | ready
  | timeout
  | save
  | finish
  deriving DecidableEq

namespace PeerPulls

variable {η κ : Type*} [DecidableEq η] [DecidableEq κ]

def start (blob : η → κ → Bool) : PeerPulls η κ where
  stage _ _ := .idle
  inflight _ _ := false
  blob := blob

def set {α : Type*} (f : η → κ → α) (host : η) (hash : κ) (a : α) : η → κ → α :=
  update f host (update (f host) hash a)

def goTo (s : PeerPulls η κ) (host : η) (hash : κ) (stage : PullStage η) : PeerPulls η κ :=
  { s with stage := set s.stage host hash stage }

def step (s : PeerPulls η κ) (host : η) (hash : κ) : PeerStep η → Option (PeerPulls η κ)
  | .register =>
    match s.stage host hash with
    | .idle =>
      some
        { s.goTo host hash .registered with
          inflight := set s.inflight host hash true }
    | _ => none
  | .query =>
    match s.stage host hash with
    | .registered => if s.blob host hash then none else some (s.goTo host hash .querying)
    | _ => none
  | .find peer =>
    match s.stage host hash with
    -- An answer with the marker of the host itself is skipped.
    | .querying =>
      if peer ≠ host ∧ s.inflight peer hash then some (s.goTo host hash (.found peer))
      else none
    | _ => none
  | .notFound =>
    match s.stage host hash with
    | .querying => some (s.goTo host hash .fetching)
    | _ => none
  | .wait =>
    match s.stage host hash with
    | .found peer => some (s.goTo host hash (.waiting peer))
    | _ => none
  | .ready =>
    match s.stage host hash with
    | .waiting peer => if s.blob peer hash then some (s.goTo host hash .fetching) else none
    | _ => none
  | .timeout =>
    match s.stage host hash with
    | .waiting _ => some (s.goTo host hash .fetching)
    | _ => none
  | .save =>
    match s.stage host hash with
    | .fetching => some { s with blob := set s.blob host hash true }
    | _ => none
  | .finish =>
    match s.stage host hash with
    -- A blob on this host is extracted without asking anyone.
    | .registered | .fetching =>
      some { s.goTo host hash .idle with inflight := set s.inflight host hash false }
    | _ => none

def Waits (s : PeerPulls η κ) (hash : κ) (host peer : η) : Prop :=
  s.stage host hash = .waiting peer

end PeerPulls

def peerPulls (η κ : Type*) [DecidableEq η] [DecidableEq κ] :
    System (PeerPulls η κ) (η × κ × PeerStep η) where
  step s a := s.step a.1 a.2.1 a.2.2

section Circles

variable {η κ : Type*} [DecidableEq η] [DecidableEq κ] {s s' : PeerPulls η κ} {host : η}
  {hash : κ}

def PeerPulls.peerWaits (s : PeerPulls η κ) (host : η) (hash : κ) : Bool :=
  match s.stage host hash with
  | .found peer => (s.stage peer hash).isWaiting
  | _ => false

def WaitsForActive (s : PeerPulls η κ) (a : η × κ × PeerStep η) : Prop :=
  a.2.2 = .wait → s.peerWaits a.1 a.2.1 = false

instance (s : PeerPulls η κ) (a : η × κ × PeerStep η) : Decidable (WaitsForActive s a) :=
  inferInstanceAs (Decidable (_ → _))

inductive Moves (s : PeerPulls η κ) (host : η) (hash : κ) (a : PeerStep η) :
    (η → κ → PullStage η) → Prop
  | stays : Moves s host hash a s.stage
  | active {stage : PullStage η} (hfound : ∀ peer, stage ≠ .found peer)
      (hwaiting : ∀ peer, stage ≠ .waiting peer) :
      Moves s host hash a (PeerPulls.set s.stage host hash stage)
  | found {peer : η} (hne : peer ≠ host) :
      Moves s host hash a (PeerPulls.set s.stage host hash (.found peer))
  | waiting {peer : η} (hwait : a = .wait) (hfound : s.stage host hash = .found peer) :
      Moves s host hash a (PeerPulls.set s.stage host hash (.waiting peer))

theorem moves_of_step (h : s.step host hash a = some s') :
  Moves s host hash a s'.stage
  := by
  cases a with
  | register | notFound | timeout =>
    simp only [PeerPulls.step] at h
    split at h
    · cases h
      exact .active (by simp) (by simp)
    · cases h
  | query =>
    simp only [PeerPulls.step] at h
    split at h
    · obtain ⟨-, h⟩ := ite_none_left_eq_some.1 h
      cases h
      exact .active (by simp) (by simp)
    · cases h
  | find peer =>
    simp only [PeerPulls.step] at h
    split at h
    · obtain ⟨hp, h⟩ := ite_none_right_eq_some.1 h
      cases h
      exact .found hp.1
    · cases h
  | wait =>
    simp only [PeerPulls.step] at h
    split at h
    next hf =>
      cases h
      exact .waiting rfl hf
    · cases h
  | ready =>
    simp only [PeerPulls.step] at h
    split at h
    · obtain ⟨-, h⟩ := ite_none_right_eq_some.1 h
      cases h
      exact .active (by simp) (by simp)
    · cases h
  | save =>
    simp only [PeerPulls.step] at h
    split at h
    · cases h
      exact .stays
    · cases h
  | finish =>
    simp only [PeerPulls.step] at h
    split at h
    · cases h
      exact .active (by simp) (by simp)
    · cases h
      exact .active (by simp) (by simp)
    · cases h

/-- No host asks itself, and no hosts wait for each other in a circle. -/
structure Straight (s : PeerPulls η κ) : Prop where
  found : ∀ host hash peer, s.stage host hash = .found peer → peer ≠ host
  acyclic : ∀ hash, Acyclic (s.Waits hash)

theorem set_of_ne {ho : η} {has : κ} (h : (ho, has) ≠ (host, hash)) :
  PeerPulls.set f host hash a ho has = f ho has
  := by
  unfold PeerPulls.set
  by_cases hho : ho = host
  · subst hho
    have hh : has ≠ hash := fun heq => h (by rw [heq])
    rw [update_self, update_of_ne hh]
  · rw [update_of_ne hho]

theorem set_self :
  PeerPulls.set f host hash a host hash = a
  := by
  unfold PeerPulls.set
  rw [update_self, update_self]

variable {stage : PullStage η}

theorem stage_set {P : η → κ → PullStage η → Prop} {f : η → κ → PullStage η}
    (h : ∀ host hash, P host hash (f host hash)) (hn : P host hash stage) :
  ∀ ho has, P ho has (PeerPulls.set f host hash stage ho has)
  := by
  intro ho has
  by_cases heq : (ho, has) = (host, hash)
  · cases heq
    rw [set_self]
    exact hn
  · rw [set_of_ne heq]
    apply h

theorem Straight.active (h : Straight s) (hs : s'.stage = PeerPulls.set s.stage host hash stage)
    (hf : ∀ peer, stage = .found peer → peer ≠ host) (hw : ∀ peer, stage ≠ .waiting peer) :
  Straight s'
  := by
  constructor
  · rw [hs]
    intro ho has
    exact stage_set (P := fun host _ stage => ∀ peer, stage = .found peer → peer ≠ host)
      h.found hf ho has
  · intro has
    refine (h.acyclic has).mono ?_
    intro x
    unfold PeerPulls.Waits
    rw [hs]
    exact stage_set
      (P := fun host hash stage => ∀ y, stage = .waiting y → s.stage host hash = .waiting y)
      (fun _ _ _ hp => hp) (fun peer hp => absurd hp (hw peer)) x has

theorem Straight.waiting (h : Straight s) {peer : η}
    (hs : s'.stage = PeerPulls.set s.stage host hash (.waiting peer))
    (hf : s.stage host hash = .found peer) (hac : s.peerWaits host hash = false) :
  Straight s'
  := by
  have hne := h.found host hash peer hf
  constructor
  · rw [hs]
    intro ho has
    exact stage_set (P := fun host _ stage => ∀ peer, stage = .found peer → peer ≠ host)
      h.found (by simp) ho has
  · intro has
    by_cases hh : has = hash
    · subst hh
      refine (h.acyclic has).add_sink (v := peer) ?_ ?_
      · intro x y hxy hy
        have hx : (x, has) ≠ (host, has) := by
          intro heq
          obtain rfl := (mk.inj heq).1
          rw [PeerPulls.Waits, hs, set_self] at hxy
          exact hy (PullStage.waiting.inj hxy).symm
        rw [PeerPulls.Waits, hs, set_of_ne hx] at hxy
        exact hxy
      · intro y hy
        have hp : (peer, has) ≠ (host, has) := fun heq => hne (mk.inj heq).1
        rw [PeerPulls.Waits, hs, set_of_ne hp] at hy
        simp [PeerPulls.peerWaits, hf, hy, PullStage.isWaiting] at hac
    · refine (h.acyclic has).mono ?_
      intro x y hxy
      have hx : (x, has) ≠ (host, hash) := fun heq => hh (mk.inj heq).2
      rw [PeerPulls.Waits, hs, set_of_ne hx] at hxy
      exact hxy

theorem Straight.moves (h : Straight s) (hm : Moves s host hash a s'.stage)
    (hac : WaitsForActive s (host, hash, a)) :
  Straight s'
  := by
  generalize hs : s'.stage = stage at hm
  cases hm with
  | stays =>
    have hwi (hash : κ) : s'.Waits hash = s.Waits hash := by
      unfold PeerPulls.Waits
      rw [hs]
    exact ⟨by rw [hs]; exact h.found, fun hash => by rw [hwi]; exact h.acyclic hash⟩
  | active hf hw =>
    exact h.active hs (fun peer hp => absurd hp (hf peer)) hw
  | found hne =>
    refine h.active hs ?_ (by simp)
    intro peer hp
    obtain rfl := PullStage.found.inj hp
    exact hne
  | waiting hwa hf =>
    exact h.waiting hs hf (hac hwa)

/-- No hosts wait for each other in a circle for a layer. -/
theorem no_circle {blob : η → κ → Bool} {actions : List (η × κ × PeerStep η)}
    (hmeets : (peerPulls η κ).Meets WaitsForActive (.start blob) actions)
    (hrun : (peerPulls η κ).run (.start blob) actions = some s) (hash : κ) :
  Acyclic (s.Waits hash)
  := by
  have hsa : Straight (.start blob : PeerPulls η κ) := by
    constructor
    · intro _ _ _ h
      cases h
    · intro _
      apply Acyclic.of_empty
      intro _ _ h
      cases h
  exact (System.run_induction _ hsa
    (fun u a v hu ha hv => hu.moves (moves_of_step hv) ha) hmeets hrun).acyclic hash

end Circles

/-- The second of three hosts waits for the first, and the third for the second, which has gone on
to fetch the layer. -/
def relayedPulls : List (Nat × Nat × PeerStep Nat) :=
  [(0, 7, .register), (1, 7, .register), (2, 7, .register), (0, 7, .query), (0, 7, .notFound),
    (1, 7, .query), (1, 7, .find 0), (1, 7, .wait), (1, 7, .timeout), (2, 7, .query),
    (2, 7, .find 1), (2, 7, .wait)]

theorem no_circle_relayed :
  ∃ s, (peerPulls Nat Nat).run (.start fun _ _ => false) relayedPulls = some s
    ∧ s.stage 2 7 = .waiting 1 ∧ Acyclic (s.Waits 7)
  := by
  have hl : ((peerPulls Nat Nat).run (.start fun _ _ => false) relayedPulls).map
      (fun s => s.stage 2 7) = some (.waiting 1) := by decide +kernel
  obtain ⟨s, hr, hs⟩ := map_eq_some_iff.mp hl
  exact ⟨s, hr, hs, no_circle (by decide +kernel) hr 7⟩

theorem waits_in_circle :
  ∃ s, (peerPulls Nat Nat).run (.start fun _ _ => false)
      [(0, 7, .register), (1, 7, .register), (0, 7, .query), (1, 7, .query), (0, 7, .find 1),
        (1, 7, .find 0), (0, 7, .wait), (1, 7, .wait)] = some s
    ∧ Relation.TransGen (s.Waits 7) 0 0
  := by
  have hl : ((peerPulls Nat Nat).run (.start fun _ _ => false)
      [(0, 7, .register), (1, 7, .register), (0, 7, .query), (1, 7, .query), (0, 7, .find 1),
        (1, 7, .find 0), (0, 7, .wait), (1, 7, .wait)]).map
      (fun s => (s.stage 0 7, s.stage 1 7)) = some (.waiting 1, .waiting 0) := by decide +kernel
  obtain ⟨s, hr, hst⟩ := map_eq_some_iff.mp hl
  obtain ⟨hfi, hse⟩ := mk.inj hst
  exact ⟨s, hr, .head hfi (.single hse)⟩

end Periapsis.Image
