import Periapsis.Image.LayerCache

/-!
# Whether layers are what their hash says

The hash of a layer is the digest of its uncompressed tar.
-/

namespace Periapsis.Image

open Files Transition Program Option

def FromSources (peers upstream : Stream → Prop) : LayerOp → Cell → Reply → Prop
  | .fetchOnePeer, _, .served stream => peers stream
  | .fetch, _, .served stream => peers stream
  | .compressed, _, .served stream => upstream stream
  | _, _, _ => True

def Authentic {δ : Type} (codec : Codec) (digest : Stream → δ) (hash : δ) (stream : Stream) :
    Prop :=
  (codec.extract stream freshDir).2 = none → digest stream = hash

section May

variable {codec : Codec} {peers upstream : Stream → Prop} {c : Cell} {nanos : Nat}
  {stream : Stream} {files : FileSystem}

theorem may_succeeds {expected : LayerOp → Cell → Reply → Prop} {post : Bool → Cell → Prop}
    {op : LayerOp} (r : Reply) {t : Cell} (hr : expected op c r)
    (ht : (layerCalls codec).exec op c r = some t) (hpo : post r.isOk t) :
  May (layerCalls codec) expected post (succeeds op) c
  := may_bind.2 ⟨r, t, hr, ht, hpo⟩

structure Unpacked (nanos : Nat) (stream : Stream) (c : Cell) : Prop where
  tmps : ∃ files, c.tmps = [(nanos, ⟨files, .extracted stream⟩)]
  dir : c.dir = none

def CommittedFrom (stream : Stream) (c : Cell) : Prop :=
  ∃ d, c.dir = some d ∧ d.origin = .extracted stream

theorem may_commitLayer (h : Unpacked nanos stream c) :
  May (layerCalls codec) (FromSources peers upstream) (fun _ => CommittedFrom stream)
    (commitLayer nanos) c
  := by
  obtain ⟨⟨files, htm⟩, hd⟩ := h
  have hl : c.tmps.lookup nanos = some ⟨files, .extracted stream⟩ := by
    rw [htm, List.lookup_cons_self]
  apply may_bind.2
  apply may_succeeds .failed trivial
  · simp only [layerCalls, hd]
    rfl
  · apply may_bind.2
    apply may_succeeds .ok trivial
    · simp only [layerCalls, hd, hl]
      rfl
    · exact ⟨_, rfl, rfl⟩

theorem may_unpack {tee : Bool} (hex : (codec.extract stream freshDir).2 = none)
    (hf : Fresh nanos c) (hd : c.dir = none) :
  May (layerCalls codec) (FromSources peers upstream)
    (fun ok t => ok = true ∧ Unpacked nanos stream t ∧ (tee = true → t.blobTmp.isSome = true))
    (succeeds (.unpack nanos stream tee)) c
  := by
  obtain ⟨files, hfl⟩ : ∃ files, codec.extract stream freshDir = (files, none) :=
    ⟨_, Prod.ext rfl hex⟩
  apply may_succeeds .ok trivial
  · simp only [layerCalls, unpack_fresh hf, hfl]
    rfl
  · refine ⟨rfl, ⟨⟨files, rfl⟩, hd⟩, ?_⟩
    rintro rfl
    rfl

theorem may_saveAndExtract (hex : (codec.extract stream freshDir).2 = none)
    (hf : Fresh nanos c) (hd : c.dir = none) :
  May (layerCalls codec) (FromSources peers upstream)
    (fun ok t => ok = true ∧ Unpacked nanos stream t) (saveAndExtract nanos stream) c
  := by
  apply may_bind.2
  apply may_succeeds .ok trivial rfl
  apply may_bind.2
  refine (may_unpack hex ?_ ?_).mono ?_
  · exact hf
  · exact hd
  rintro _ t ⟨rfl, hu, hbl⟩
  obtain ⟨b, hb⟩ := isSome_iff_exists.1 (hbl rfl)
  apply may_succeeds .ok trivial
  · simp only [layerCalls, hb]
    rfl
  · exact ⟨rfl, hu.tmps, hu.dir⟩

theorem may_cleanUp (hus : Used nanos c) (hd : c.dir = none) :
  May (layerCalls codec) (FromSources peers upstream)
    (fun ok t => ok = true ∧ Fresh nanos t ∧ t.dir = none) (cleanUp nanos) c
  := by
  obtain ⟨d, htm⟩ := hus
  have hw : c.without nanos = [] := by
    rw [Cell.without, htm]
    simp
  apply may_bind.2
  apply may_succeeds .ok trivial rfl
  apply may_bind.2
  apply may_succeeds .ok trivial rfl
  apply may_succeeds .ok trivial
  · simp only [layerCalls, Cell.without] at hw ⊢
    rw [hw]
    rfl
  · exact ⟨rfl, rfl, hd⟩

theorem may_pullInflight {n : Nat} (hp : peers stream)
    (hex : (codec.extract stream freshDir).2 = none) (hf : Fresh nanos c) (hd : c.dir = none) :
  May (layerCalls codec) (FromSources peers upstream) (fun _ => CommittedFrom stream)
    (pullInflight nanos n) c
  := by
  apply may_bind.2
  apply may_succeeds .ok trivial rfl
  apply may_bind.2
  apply may_succeeds .ok trivial rfl
  apply may_bind.2
  refine may_perform.2 ⟨.served stream, c, hp, rfl, ?_⟩
  apply may_bind.2
  apply (may_saveAndExtract hex hf hd).mono
  rintro _ t ⟨rfl, hu⟩
  apply may_commitLayer hu

theorem may_ensureLayer {selector : Option Nat} {post : Except LayerError Unit → Cell → Prop}
    (hd : c.dir = none) (hi : Idle c) (hn : ∀ t, Fresh nanos t → t.dir = none → t.blob = c.blob
      → May (layerCalls codec) (FromSources peers upstream) post
        (if c.blob.isSome then do
          if ← extractCompressedBlob nanos then commitLayer nanos
          else if ← cleanUp nanos then pullLayer nanos selector
          else return .error .mkdirAll
        else pullLayer nanos selector) t) :
  May (layerCalls codec) (FromSources peers upstream) post (ensureLayer nanos selector) c
  := by
  have hl : c.tmps.lookup nanos = none := by
    rw [hi]
    rfl
  apply may_bind.2
  apply may_succeeds .failed trivial
  · simp only [layerCalls, hd]
    rfl
  · apply may_bind.2
    apply may_succeeds .ok trivial
    · simp only [layerCalls, hl]
      rfl
    · apply may_bind.2
      apply may_succeeds (.of c.blob.isSome) trivial
      · simp only [layerCalls]
        rfl
      · rw [Reply.isOk_of]
        apply hn
        · rw [Fresh, hi]
        · exact hd
        · rfl

theorem may_commit_blob {selector : Option Nat} {b : Blob} (hd : c.dir = none) (hi : Idle c)
    (hbl : c.blob = some b) (hfi : stream.ofFile b.bytes = true)
    (hex : (codec.extract stream freshDir).2 = none) :
  May (layerCalls codec) (FromSources peers upstream) (fun _ => CommittedFrom stream)
    (ensureLayer nanos selector) c
  := by
  apply may_ensureLayer hd hi
  intro t hf hd hs
  rw [hbl] at hs ⊢
  apply may_bind.2
  apply may_bind.2
  refine may_perform.2 ⟨.served stream, t, trivial, ?_, ?_⟩
  · simp only [layerCalls, hs, hfi]
    rfl
  · apply (may_unpack hex hf hd).mono
    rintro _ u ⟨rfl, hu, -⟩
    apply may_commitLayer hu

theorem may_commit_peer {n : Nat} (hd : c.dir = none) (hi : Idle c) (hp : peers stream)
    (hex : (codec.extract stream freshDir).2 = none) :
  May (layerCalls codec) (FromSources peers upstream) (fun _ => CommittedFrom stream)
    (ensureLayer nanos (some n)) c
  := by
  apply may_ensureLayer hd hi
  intro t hf hd hs
  split
  · -- The blob file cannot be opened, and is given up.
    apply may_bind.2
    apply may_bind.2
    refine may_perform.2 ⟨.failed, t, trivial, rfl, ?_⟩
    apply may_bind.2
    apply (may_cleanUp hf.used hd).mono
    rintro _ u ⟨rfl, hfr, hdr⟩
    apply may_pullInflight hp hex hfr hdr
  · apply may_pullInflight hp hex hf hd

end May

theorem committed_of_dir {codec : Codec} {good : Stream → Prop} {c : Cell} (hdi : c.dir = none) :
  Committed codec good (fun _ => True) c
  := by
  refine ⟨?_, fun _ _ => trivial⟩
  intro d hd
  rw [hdi] at hd
  cases hd

theorem heeds_serves {good peers upstream : Stream → Prop}
    (hp : ∀ stream, peers stream → good stream) (hup : ∀ stream, upstream stream → good stream)
    {u : Cell × Layer (Except LayerError Unit)} {r : Reply}
    (h : Heeds (FromSources peers upstream) u r) :
  Heeds (Serves good) u r
  := by
  obtain ⟨c, p⟩ := u
  cases p with
  | ret a => trivial
  | call op next =>
    cases r with
    | ok | failed => cases op with | _ => trivial
    | served stream =>
      cases op with
      | fetchOnePeer | fetch => exact hp stream h
      | compressed => exact hup stream h
      | _ => trivial

/-- A layer that is not in the cache is put there, with peers or without them, and whatever blob
file there is. -/
theorem authentic_iff {δ : Type} (codec : Codec) (digest : Stream → δ) (hash : δ) (nanos : Nat)
    (selector : Option Nat) (c : Cell) (hdir : c.dir = none) (hidle : Idle c)
    (peers : Stream → Prop) :
  (∀ rs t q,
      (thread (layerCalls codec)).Meets
          (Heeds (FromSources (fun stream => selector.isSome = true ∧ peers stream)
            fun stream => digest stream = hash))
          (c, ensureLayer nanos selector) rs
        → (thread (layerCalls codec)).run (c, ensureLayer nanos selector) rs = some (t, q)
        → ∀ d, t.dir = some d → ∃ stream, d.origin = .extracted stream ∧ digest stream = hash)
    ↔ ∀ stream : Stream,
      (selector.isSome = true ∧ peers stream
          ∨ ∃ b, c.blob = some b ∧ stream.ofFile b.bytes = true)
        → (codec.extract stream freshDir).2 = none → digest stream = hash
  := by
  constructor
  · intro h stream hso hex
    have hma : May (layerCalls codec)
        (FromSources (fun stream => selector.isSome = true ∧ peers stream)
          fun stream => digest stream = hash)
        (fun _ => CommittedFrom stream) (ensureLayer nanos selector) c := by
      rcases hso with hp | ⟨b, hbl, hfi⟩
      · obtain ⟨n, rfl⟩ := isSome_iff_exists.mp hp.1
        apply may_commit_peer hdir hidle hp hex
      · apply may_commit_blob hdir hidle hbl hfi hex
    obtain ⟨rs, t, a, hm, hru, d, hd, ho⟩ := hma.run
    obtain ⟨stream', hor, hdi⟩ := h rs t _ hm hru d hd
    rw [ho] at hor
    obtain rfl := Origin.extracted.inj hor
    apply hdi
  · intro h rs t q hm hru d hd
    have hco : Commits codec (Authentic codec digest hash) (fun _ => True) (fun _ => Idle)
        (ensureLayer nanos selector) c := by
      apply commits_ensureLayer (fun _ _ _ => trivial) _ hidle
      · intro b hb stream hfi
        exact h stream (.inr ⟨b, hb, hfi⟩)
      · apply committed_of_dir hdir
    have hse : (thread (layerCalls codec)).Meets (Heeds (Serves (Authentic codec digest hash)))
        (c, ensureLayer nanos selector) rs := by
      apply (thread (layerCalls codec)).meets_of_invariant (P := fun _ => True) trivial
        (fun _ _ _ _ _ _ => trivial) _ hm
      intro u r _ hh
      apply heeds_serves _ _ hh
      · intro stream hp
        exact h stream (.inl hp)
      · exact fun _ hdi _ => hdi
    have hc := (hco.run (committed_of_dir hdir) hse hru).1
    obtain ⟨stream, ho, hex, ha⟩ := hc.dir d hd
    refine ⟨stream, ho, ha ?_⟩
    rw [hex]

theorem extractLayer_incomplete (dst : List Char) (headers : List Header) (t : Trace) :
  (extractLayer dst false headers t).2 ≠ none
  := by
  induction headers generalizing t with
  | nil => nofun
  | cons header headers ih =>
    rw [extractLayer]
    split
    · nofun
    · apply ih

theorem authentic_blob :
  (∃ t, ((thread (layerCalls oneFileCodec)).run
        ({ blob := some ⟨[1, 2], none⟩ }, ensureLayer 7 (some 1))
        [.failed, .ok, .ok, .served ⟨[1, 2], true⟩, .ok, .failed, .ok]).map Prod.fst = some t
      ∧ t.dir.isSome = true)
    ∧ ∀ rs t q,
      (thread (layerCalls oneFileCodec)).Meets
          (Heeds (FromSources (fun stream => (some 1).isSome = true ∧ stream = ⟨[1, 2], true⟩)
            fun stream => stream.bytes = [1, 2]))
          ({ blob := some ⟨[1, 2], none⟩ }, ensureLayer 7 (some 1)) rs
        → (thread (layerCalls oneFileCodec)).run
            ({ blob := some ⟨[1, 2], none⟩ }, ensureLayer 7 (some 1)) rs = some (t, q)
        → ∀ d, t.dir = some d
          → ∃ stream : Stream, d.origin = .extracted stream ∧ stream.bytes = [1, 2]
  := by
  constructor
  · have hsm : (((thread (layerCalls oneFileCodec)).run
        ({ blob := some ⟨[1, 2], none⟩ }, ensureLayer 7 (some 1))
        [.failed, .ok, .ok, .served ⟨[1, 2], true⟩, .ok, .failed, .ok]).map
          fun u => u.1.dir.isSome) = some true := by decide +kernel
    obtain ⟨u, hru, hd⟩ := map_eq_some_iff.mp hsm
    exact ⟨u.1, map_eq_some_iff.mpr ⟨u, hru, rfl⟩, hd⟩
  · apply (authentic_iff oneFileCodec Stream.bytes [1, 2] 7 (some 1)
      { blob := some ⟨[1, 2], none⟩ } rfl rfl (fun stream => stream = ⟨[1, 2], true⟩)).mpr
    rintro ⟨bytes, complete⟩ (⟨-, heq⟩ | ⟨b, ⟨⟩, hfi⟩) hex
    · rw [heq]
    · cases complete with
      | true => simpa [Stream.ofFile] using hfi
      | false =>
        unfold Codec.extract oneFileCodec at hex
        split at hex
        · cases hex
        next headers complete hen =>
          obtain ⟨-, heq⟩ := ite_none_left_eq_some.mp hen
          obtain ⟨-, rfl⟩ := Prod.mk.inj (some.inj heq)
          exact absurd hex (extractLayer_incomplete _ _ _)

theorem peer_stream_committed :
  ∃ d, (((thread (layerCalls oneFileCodec)).run ({}, ensureLayer 7 (some 1))
        [.failed, .ok, .failed, .failed, .served ⟨[9], true⟩, .ok, .ok, .ok, .failed, .ok]).bind
          fun u => u.1.dir) = some d
    ∧ d.origin = .extracted ⟨[9], true⟩ ∧ Stream.bytes ⟨[9], true⟩ ≠ [1, 2]
  := by
  have ho : ((((thread (layerCalls oneFileCodec)).run ({}, ensureLayer 7 (some 1))
        [.failed, .ok, .failed, .failed, .served ⟨[9], true⟩, .ok, .ok, .ok, .failed, .ok]).bind
          fun u => u.1.dir).map Dir.origin) = some (.extracted ⟨[9], true⟩) := by decide +kernel
  obtain ⟨d, hd, ho⟩ := map_eq_some_iff.mp ho
  exact ⟨d, hd, ho, by decide⟩

end Periapsis.Image
