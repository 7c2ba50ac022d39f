import Periapsis.Image.Commits

/-!
# Calls and crashes

Calls of `ensureLayer` for different hashes run at the same time, and the process may crash at any
point.
-/

namespace Periapsis.Image

open Files Transition Program Option Function

/-- What the cache has for a hash, and the call for it that is under way. -/
structure Slot where
  cell : Cell := {}
  call : Option (Layer (Except LayerError Unit)) := none

structure Cache (κ : Type) where
  slots : κ → Slot
  up : Bool

structure Wreck where
  tmps : List (Nat × Dir) := []
  blobTmp : Option Blob := none

inductive CacheAction (κ : Type) where
  | begin (hash : κ) (nanos : Nat) (selector : Option Nat)
  | reply (hash : κ) (r : Reply)
  | crash (left : κ → Wreck)
  | sweep (hash : κ) (nanos : Nat)
  | start

namespace Slot

def busy (s : Slot) : Bool :=
  match s.call with
  | some (.call _ _) => true
  | _ => false

def crash (s : Slot) (left : Wreck) : Slot where
  cell := if s.busy then { s.cell with tmps := left.tmps, blobTmp := left.blobTmp } else s.cell

def swept (s : Slot) : Slot :=
  { s with cell := { s.cell with tmps := [] } }

end Slot

namespace Cache

variable {κ : Type} [DecidableEq κ]

def empty : Cache κ where
  slots _ := {}
  up := true

def set (w : Cache κ) (hash : κ) (s : Slot) : Cache κ :=
  { w with slots := Function.update w.slots hash s }

end Cache

def cache {κ : Type} [DecidableEq κ] (codec : Codec) : System (Cache κ) (CacheAction κ) where
  step w
    | .begin hash nanos selector =>
      if w.up ∧ (w.slots hash).busy = false then
        some (w.set hash { w.slots hash with call := some (ensureLayer nanos selector) })
      else none
    | .reply hash r =>
      match (w.slots hash).call with
      | none => none
      | some p =>
        ((thread (layerCalls codec)).step ((w.slots hash).cell, p) r).map fun (cell, p) =>
          w.set hash ⟨cell, some p⟩
    | .crash left => some { slots := fun hash => (w.slots hash).crash (left hash), up := false }
    | .sweep hash nanos =>
      if w.up then none
      else
        let s := w.slots hash
        some (w.set hash { s with cell := { s.cell with tmps := s.cell.without nanos } })
    | .start =>
      if w.up then none else some { slots := fun hash => (w.slots hash).swept, up := true }

/-- No condition on streams. -/
def anyStream (_ : Stream) : Prop := True

def Blob.Saved (codec : Codec) (b : Blob) : Prop :=
  ∃ stream, b.origin = some stream ∧ (codec.extract stream freshDir).2 = none
    ∧ b.bytes = codec.read stream

structure Slot.Sound (codec : Codec) (up : Bool) (s : Slot) : Prop where
  committed : Committed codec anyStream (Blob.Saved codec) s.cell
  idle : up = true → s.call = none → Idle s.cell
  call : ∀ p, s.call = some p
    → up = true ∧ Commits codec anyStream (Blob.Saved codec) (fun _ => Idle) p s.cell

section Slot

variable {codec : Codec} {up : Bool} {s : Slot}

theorem Slot.Sound.not_busy (h : s.Sound codec true) (hb : s.busy = false) :
  Idle s.cell
  := by
  cases hca : s.call with
  | none => apply h.idle rfl hca
  | some p =>
    cases p with
    | ret a => apply (h.call _ hca).2
    | call op next => simp [Slot.busy, hca] at hb

theorem Slot.Sound.begin (h : s.Sound codec true) (hb : s.busy = false) (nanos : Nat)
    (selector : Option Nat) :
  Slot.Sound codec true { s with call := some (ensureLayer nanos selector) }
  := by
  refine ⟨h.committed, nofun, ?_⟩
  rintro p ⟨⟩
  refine ⟨rfl, ?_⟩
  apply commits_ensureLayer _ h.committed (h.not_busy hb)
  · exact fun _ _ _ _ => trivial
  · exact fun stream _ hex => ⟨stream, rfl, hex, rfl⟩

theorem Slot.Sound.reply (h : s.Sound codec up) {cell : Cell} (hca : s.call = some p)
    (hst : (thread (layerCalls codec)).step (s.cell, p) r = some (cell, q)) :
  Slot.Sound codec up ⟨cell, some q⟩
  := by
  obtain ⟨hup, hco⟩ := h.call p hca
  have hh : Heeds (Serves anyStream) (s.cell, p) r := by
    unfold Heeds
    split
    · trivial
    · unfold Serves
      split
      all_goals trivial
  obtain ⟨hc, hn⟩ := hco.step hh hst
  refine ⟨hc, nofun, ?_⟩
  rintro p ⟨⟩
  exact ⟨hup, hn⟩

theorem Slot.Sound.crash (h : s.Sound codec up) (left : Wreck) :
  (s.crash left).Sound codec false
  := by
  refine ⟨?_, nofun, nofun⟩
  unfold Slot.crash
  split
  · exact ⟨h.committed.dir, h.committed.blob⟩
  · apply h.committed

end Slot

section Cache

variable {κ : Type} [DecidableEq κ] {codec : Codec} {w w' : Cache κ}

theorem forall_set {P : Slot → Prop} (h : ∀ hash, P (w.slots hash)) (hash : κ) (hs : P s) (ha : κ) :
  P ((w.set hash s).slots ha)
  := by
  unfold Cache.set
  dsimp only
  by_cases heq : ha = hash
  · rw [heq, update_self]
    apply hs
  · rw [update_of_ne heq]
    apply h

theorem sound_step {a : CacheAction κ} (h : ∀ hash, (w.slots hash).Sound codec w.up)
    (hst : (cache codec).step w a = some w') (hash : κ) :
  (w'.slots hash).Sound codec w'.up
  := by
  cases a with
  | begin ha nanos selector =>
    obtain ⟨⟨hup, hb⟩, heq⟩ := ite_none_right_eq_some.1 hst
    cases heq
    have hsl : Slot.Sound codec w.up
        { w.slots ha with call := some (ensureLayer nanos selector) } := by
      have hsl := h ha
      rw [hup] at hsl ⊢
      apply hsl.begin hb
    exact forall_set h ha hsl hash
  | reply ha r =>
    simp only [cache] at hst
    split at hst
    · cases hst
    next p hca =>
      obtain ⟨⟨cell, q⟩, ht, rfl⟩ := map_eq_some_iff.1 hst
      exact forall_set h ha ((h ha).reply hca ht) hash
  | crash left =>
    cases hst
    exact (h hash).crash (left hash)
  | sweep ha nanos =>
    obtain ⟨hup, heq⟩ := ite_none_left_eq_some.1 hst
    cases heq
    have hsl := h ha
    apply forall_set h ha
    refine ⟨⟨hsl.committed.dir, hsl.committed.blob⟩, fun hu => absurd hu hup, ?_⟩
    intro p hp
    exact absurd (hsl.call p hp).1 hup
  | start =>
    obtain ⟨hup, heq⟩ := ite_none_left_eq_some.1 hst
    cases heq
    have hsl := h hash
    refine ⟨⟨hsl.committed.dir, hsl.committed.blob⟩, fun _ _ => rfl, ?_⟩
    intro p hp
    exact absurd (hsl.call p hp).1 hup

/-- Whatever sources serve and whenever there is a crash, a directory or blob file in the cache is
what a stream without an error has made. -/
theorem committed_of_run {as : List (CacheAction κ)}
    (hrun : (cache codec).run Cache.empty as = some w) (hash : κ) :
  (∀ d, (w.slots hash).cell.dir = some d
      → ∃ stream, d.origin = .extracted stream ∧ codec.extract stream freshDir = (d.files, none))
    ∧ ∀ b, (w.slots hash).cell.blob = some b
      → ∃ stream, b.origin = some stream ∧ (codec.extract stream freshDir).2 = none
        ∧ b.bytes = codec.read stream
  := by
  have hso : ∀ hash, (w.slots hash).Sound codec w.up := by
    apply (cache codec).run_induction (P := fun w => ∀ hash, (w.slots hash).Sound codec w.up)
      _ _ ((cache codec).meets_true _ as) hrun
    · intro hash
      exact ⟨⟨nofun, nofun⟩, fun _ _ => rfl, nofun⟩
    · intro u a v hu _ hst
      exact sound_step hu hst
  have hc := (hso hash).committed
  refine ⟨?_, hc.blob⟩
  intro d hd
  obtain ⟨stream, ho, hex, -⟩ := hc.dir d hd
  exact ⟨stream, ho, hex⟩

end Cache

def oneFileCodec : Codec where
  entries stream :=
    if stream.bytes = [] then none
    else some ([{ name := "a".toList, typeflag := .reg, body := stream.bytes }], stream.complete)
  read stream := stream.bytes

/-- A call fails to read one stream, and the process crashes while reading the next. It starts
again, and a second call succeeds. -/
def crashedPull : List (CacheAction Unit) :=
  [.begin () 7 none, .reply () .failed, .reply () .ok, .reply () .failed,
    .reply () (.served ⟨[1], false⟩), .reply () .ok, .reply () .failed, .reply () .ok,
    .reply () .ok, .reply () .ok, .reply () .ok, .reply () (.served ⟨[1, 2], true⟩),
    .reply () .ok, .crash fun _ => { tmps := [(7, ⟨FileSystem.bare, .fresh⟩)] }, .start,
    .begin () 7 none, .reply () .failed, .reply () .ok, .reply () .failed,
    .reply () (.served ⟨[1, 2], true⟩), .reply () .ok, .reply () .ok, .reply () .ok,
    .reply () .failed, .reply () .ok]

theorem committed_of_run_crashed :
  ∃ w, (cache oneFileCodec).run Cache.empty crashedPull = some w
    ∧ ∃ d, (w.slots ()).cell.dir = some d
      ∧ d.files.at? ["layer".toList, "a".toList] = some (.leaf 0)
      ∧ ∃ stream, d.origin = .extracted stream
        ∧ oneFileCodec.extract stream freshDir = (d.files, none)
  := by
  have hdi : (((cache oneFileCodec).run Cache.empty crashedPull).bind fun w =>
      (w.slots ()).cell.dir.bind fun d => d.files.at? ["layer".toList, "a".toList])
        = some (.leaf 0) := by decide +kernel
  obtain ⟨w, hr, hw⟩ := bind_eq_some_iff.mp hdi
  obtain ⟨d, hd, hf⟩ := bind_eq_some_iff.mp hw
  exact ⟨w, hr, d, hd, hf, (committed_of_run hr ()).1 d hd⟩

end Periapsis.Image
