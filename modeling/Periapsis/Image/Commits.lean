import Periapsis.Image.EnsureLayer

/-!
# What is committed

The temporary directory is fresh whenever a source is tried, and is renamed only after an extraction
to it has succeeded.
-/

namespace Periapsis.Image

open Transition Program Option

structure Committed (codec : Codec) (good : Stream → Prop) (kept : Blob → Prop) (c : Cell) :
    Prop where
  dir : ∀ d, c.dir = some d → ∃ stream, d.origin = .extracted stream
    ∧ codec.extract stream freshDir = (d.files, none) ∧ good stream
  blob : ∀ b, c.blob = some b → kept b

def Serves (good : Stream → Prop) : LayerOp → Cell → Reply → Prop
  | .fetchOnePeer, _, .served stream => good stream
  | .fetch, _, .served stream => good stream
  | .compressed, _, .served stream => good stream
  | _, _, _ => True

def Fresh (nanos : Nat) (c : Cell) : Prop :=
  c.tmps = [(nanos, ⟨freshDir, .fresh⟩)]

def Used (nanos : Nat) (c : Cell) : Prop :=
  ∃ d, c.tmps = [(nanos, d)]

def Ready (codec : Codec) (good : Stream → Prop) (nanos : Nat) (c : Cell) : Prop :=
  ∃ stream files, c.tmps = [(nanos, ⟨files, .extracted stream⟩)]
    ∧ codec.extract stream freshDir = (files, none) ∧ good stream

def Idle (c : Cell) : Prop :=
  c.tmps = []

section Temporary

variable {codec : Codec} {good : Stream → Prop} {nanos : Nat} {c t : Cell}

theorem Used.of_eq (h : Used nanos c) (heq : t.tmps = c.tmps) :
  Used nanos t
  := by
  rw [Used, heq]
  apply h

theorem Ready.of_eq (h : Ready codec good nanos c) (heq : t.tmps = c.tmps) :
  Ready codec good nanos t
  := by
  rw [Ready, heq]
  apply h

theorem Fresh.used (h : Fresh nanos c) :
  Used nanos c
  := ⟨_, h⟩

theorem Ready.used (h : Ready codec good nanos c) :
  Used nanos c
  := by
  obtain ⟨stream, files, htm, -⟩ := h
  exact ⟨_, htm⟩

end Temporary

abbrev Commits (codec : Codec) (good : Stream → Prop) (kept : Blob → Prop) {α : Type}
    (post : α → Cell → Prop) (p : Layer α) (c : Cell) : Prop :=
  Keeps (layerCalls codec) (Serves good) (Committed codec good kept) post p c

section Calls

variable {codec : Codec} {good : Stream → Prop} {kept : Blob → Prop} {c : Cell} {nanos : Nat}
  {post : Bool → Cell → Prop}

def LayerOp.aside : LayerOp → Bool
  | .removeBlob | .createBlobTmp | .removeBlobTmp | .renameBlob => true
  | .peersWithInflight | .waitForPeerLayer => true
  | _ => false

variable {op : LayerOp}

theorem exec_aside {r : Reply} {t : Cell} (hop : op.aside)
    (ht : (layerCalls codec).exec op c r = some t) :
  t.dir = c.dir ∧ t.tmps = c.tmps
    ∧ ∀ b, t.blob = some b → c.blob = some b ∨ op = .renameBlob ∧ c.blobTmp = some b
  := by
  cases r with
  | ok =>
    cases op with
    | removeBlob | createBlobTmp | removeBlobTmp | peersWithInflight | waitForPeerLayer =>
      cases ht
      simp
    | renameBlob =>
      simp only [layerCalls] at ht
      split at ht
      next blob hbl =>
        cases ht
        simp [hbl]
      · cases ht
    | _ => cases hop
  | failed =>
    cases op with
    | removeBlob | removeBlobTmp => cases ht
    | createBlobTmp | renameBlob | peersWithInflight | waitForPeerLayer =>
      cases ht
      exact ⟨rfl, rfl, fun b hb => .inl hb⟩
    | _ => cases hop
  | served stream =>
    cases op with
    | removeBlob | removeBlobTmp | createBlobTmp | renameBlob | peersWithInflight
    | waitForPeerLayer => cases ht
    | _ => cases hop

theorem commits_succeeds
    (h : ∀ r t, (layerCalls codec).exec op c r = some t → Committed codec good kept t ∧ post
      r.isOk t) :
  Commits codec good kept post (succeeds op) c
  := keeps_bind.2 fun r t _ ht => h r t ht

theorem commits_stat {found : Bool}
    (hop : op = .statDir ∧ c.dir.isSome = found ∨ op = .statBlob ∧ c.blob.isSome = found)
    (h : Committed codec good kept c) (hpo : post found c) :
  Commits codec good kept post (succeeds op) c
  := by
  apply commits_succeeds
  intro r t ht
  rcases hop with ⟨rfl, rfl⟩ | ⟨rfl, rfl⟩
  all_goals
    obtain ⟨rfl, heq⟩ := ite_none_right_eq_some.1 ht
    cases heq
    rw [Reply.isOk_of]
    exact ⟨h, hpo⟩

theorem commits_mkdirTmp (h : Committed codec good kept c) (hi : Idle c)
    (hok : ∀ t, Committed codec good kept t → t.blob = c.blob → Fresh nanos t → post true t)
    (hfa : post false c) :
  Commits codec good kept post (succeeds (.mkdirTmp nanos)) c
  := by
  apply commits_succeeds
  intro r t ht
  cases r with
  | ok =>
    have hno : c.tmps.lookup nanos = none := by rw [hi]; rfl
    simp only [layerCalls, hno, isSome_none, Bool.false_eq_true, if_false,
      Option.some.injEq] at ht
    subst ht
    refine ⟨⟨h.dir, h.blob⟩, hok _ ⟨h.dir, h.blob⟩ rfl ?_⟩
    rw [Fresh, hi]
  | failed =>
    cases ht
    exact ⟨h, hfa⟩
  | served stream => cases ht

theorem commits_removeTmp (h : Committed codec good kept c) (hus : Used nanos c)
    (hok : ∀ t, Committed codec good kept t → Idle t → post true t) :
  Commits codec good kept post (succeeds (.removeTmp nanos)) c
  := by
  apply commits_succeeds
  intro r t ht
  cases r with
  | ok =>
    cases ht
    refine ⟨⟨h.dir, h.blob⟩, hok _ ⟨h.dir, h.blob⟩ ?_⟩
    obtain ⟨d, hd⟩ := hus
    simp [Idle, Cell.without, hd]
  | failed | served => cases ht

theorem commits_aside (hop : op.aside) (h : Committed codec good kept c)
    (hkept : op = .renameBlob → ∀ b, c.blobTmp = some b → kept b)
    (hpo : ∀ ok t, Committed codec good kept t → t.tmps = c.tmps → post ok t) :
  Commits codec good kept post (succeeds op) c
  := by
  apply commits_succeeds
  intro r t ht
  obtain ⟨hdi, htm, hbl⟩ := exec_aside hop ht
  have hc : Committed codec good kept t := by
    constructor
    · rw [hdi]
      apply h.dir
    · intro b hb
      rcases hbl b hb with hb | ⟨hop, hb⟩
      · apply h.blob b hb
      · apply hkept hop b hb
  exact ⟨hc, hpo _ t hc htm⟩

theorem commits_source {post : Reply → Cell → Prop}
    (hop : op = .fetchOnePeer ∨ op = .fetch ∨ op = .compressed) (h : Committed codec good kept c)
    (hs : ∀ stream, good stream → post (.served stream) c) (hfa : post .failed c) :
  Commits codec good kept post (perform op) c
  := by
  apply keeps_perform.2
  intro r t hr ht
  rcases hop with rfl | rfl | rfl
  all_goals
    cases r with
    | ok => cases ht
    | failed =>
      cases ht
      exact ⟨h, hfa⟩
    | served stream =>
      cases ht
      exact ⟨h, hs stream hr⟩

theorem commits_renameDir (h : Committed codec good kept c) (hre : Ready codec good nanos c)
    (hok : ∀ t, Committed codec good kept t → Idle t → post true t) (hfa : post false c) :
  Commits codec good kept post (succeeds (.renameDir nanos)) c
  := by
  obtain ⟨stream, files, htm, hex, hg⟩ := hre
  apply commits_succeeds
  intro r t ht
  cases r with
  | ok =>
    simp only [layerCalls] at ht
    split at ht
    next dir hno hdi =>
      rw [htm, List.lookup_cons_self] at hdi
      cases hdi
      cases ht
      have hc : Committed codec good kept
          { c with dir := some ⟨files, .extracted stream⟩, tmps := c.without nanos } := by
        refine ⟨?_, h.blob⟩
        rintro d ⟨⟩
        exact ⟨stream, rfl, hex, hg⟩
      refine ⟨hc, hok _ hc ?_⟩
      simp [Idle, Cell.without, htm]
    · cases ht
  | failed =>
    cases ht
    exact ⟨h, hfa⟩
  | served => cases ht

variable {stream : Stream} {tee : Bool}

theorem unpack_fresh (hf : Fresh nanos c) :
  c.unpack codec nanos stream tee
    = let (files, err) := codec.extract stream freshDir
      ({ c with
          tmps := [(nanos, ⟨files, if err.isNone then .extracted stream else .spoiled⟩)]
          blobTmp := if tee then some ⟨codec.read stream, if err.isNone then some stream else none⟩
            else c.blobTmp },
        err.isNone)
  := by
  have ht : c.tmp nanos = ⟨freshDir, .fresh⟩ := by
    rw [Cell.tmp, hf, List.lookup_cons_self]
    rfl
  have hw : c.without nanos = [] := by
    rw [Cell.without, hf]
    simp
  unfold Cell.unpack
  rw [ht, hw]
  simp

theorem commits_unpack (h : Committed codec good kept c) (hg : good stream) (hf : Fresh nanos c)
    (hok : ∀ t, Committed codec good kept t → Ready codec good nanos t → (codec.extract stream
      freshDir).2 = none → (tee → t.blobTmp = some ⟨codec.read stream, some stream⟩) →
      post true t) (hfa : ∀ t, Committed codec good kept t → Used nanos t → post false t) :
  Commits codec good kept post (succeeds (.unpack nanos stream tee)) c
  := by
  apply commits_succeeds
  intro r t ht
  simp only [layerCalls, unpack_fresh hf] at ht
  obtain ⟨rfl, heq⟩ := ite_none_right_eq_some.1 ht
  cases heq
  refine ⟨⟨h.dir, h.blob⟩, ?_⟩
  cases hex : codec.extract stream freshDir with
  | mk files err =>
    rw [hex] at hok
    cases err with
    | none =>
      refine hok _ ⟨h.dir, h.blob⟩ ⟨stream, files, rfl, hex, hg⟩ rfl ?_
      rintro rfl
      rfl
    | some e => exact hfa _ ⟨h.dir, h.blob⟩ ⟨_, rfl⟩

end Calls

section Programs

variable {codec : Codec} {good : Stream → Prop} {kept : Blob → Prop} {c : Cell} {nanos : Nat}

section

variable (h : Committed codec good kept c)
include h

theorem commits_cleanUp (hus : Used nanos c) :
  Commits codec good kept
    (fun ok t => Committed codec good kept t ∧ if ok then Fresh nanos t else Idle t)
    (cleanUp nanos) c
  := by
  apply keeps_bind.2
  apply commits_aside (rfl : LayerOp.aside .removeBlob) h nofun
  intro _ t ht htm
  apply keeps_bind.2
  apply commits_removeTmp ht
  · rw [Used, htm]
    apply hus
  · intro u hu hi
    apply commits_mkdirTmp hu hi
    · intro v hv _ hf
      exact ⟨hv, hf⟩
    · exact ⟨hu, hi⟩

theorem commits_again {next : Layer (Except LayerError Unit)} {e : LayerError} (hus : Used nanos c)
    (hn : ∀ t, Committed codec good kept t → Fresh nanos t →
      Commits codec good kept (fun _ => Idle) next t)
    :
  Commits codec good kept (fun _ => Idle)
    (do if ← cleanUp nanos then next else return .error e) c
  := by
  apply keeps_bind.2
  apply (commits_cleanUp h hus).mono
  rintro ok t ⟨ht, htm⟩
  cases ok with
  | true => apply hn t ht htm
  | false => apply htm

theorem commits_commitLayer (hre : Ready codec good nanos c) :
  Commits codec good kept (fun _ => Idle) (commitLayer nanos) c
  := by
  have hrm (result : Except LayerError Unit) :
      Commits codec good kept (fun _ => Idle)
        (do
          let _ ← succeeds (.removeTmp nanos)
          return result) c := by
    apply keeps_bind.2
    apply commits_removeTmp h hre.used
    intro t _ hi
    apply hi
  apply keeps_bind.2
  apply commits_stat (.inl ⟨rfl, rfl⟩) h
  split
  · apply hrm
  · apply keeps_bind.2
    apply commits_renameDir h hre
    · intro t _ hi
      apply hi
    · apply hrm

theorem commits_extractCompressedBlob (hf : Fresh nanos c)
    (hbl : ∀ b, c.blob = some b → ∀ stream : Stream, stream.ofFile b.bytes → good stream) :
  Commits codec good kept
    (fun ok t =>
      Committed codec good kept t ∧ if ok then Ready codec good nanos t else Used nanos t)
    (extractCompressedBlob nanos) c
  := by
  apply keeps_bind.2
  apply keeps_perform.2
  intro r t _ ht
  cases r with
  | ok => cases ht
  | failed =>
    cases ht
    exact ⟨h, h, hf.used⟩
  | served stream =>
    simp only [layerCalls] at ht
    split at ht
    next blob hso =>
      obtain ⟨hfi, heq⟩ := ite_none_right_eq_some.1 ht
      cases heq
      refine ⟨h, ?_⟩
      apply commits_unpack h (hbl blob hso stream hfi) hf
      · intro u hu hre _ _
        exact ⟨hu, hre⟩
      · intro u hu hus
        exact ⟨hu, hus⟩
    · cases ht

end

section Sources

variable (hkept : ∀ stream, good stream → (codec.extract stream freshDir).2 = none
  → kept ⟨codec.read stream, some stream⟩)

include hkept

variable {stream : Stream}

section

variable (h : Committed codec good kept c)
include h

theorem commits_saveAndExtract (hg : good stream) (hf : Fresh nanos c) :
  Commits codec good kept
    (fun ok t =>
      Committed codec good kept t ∧ if ok then Ready codec good nanos t else Used nanos t)
    (saveAndExtract nanos stream) c
  := by
  apply keeps_bind.2
  apply commits_aside (rfl : LayerOp.aside .createBlobTmp) h nofun
  intro ok t ht htm
  have hfr : Fresh nanos t := htm.trans hf
  split
  · apply keeps_bind.2
    apply commits_unpack ht hg hfr
    · intro u hu hre hex hbl
      apply commits_aside rfl hu
      · intro _ b hb
        rw [hbl rfl] at hb
        cases hb
        apply hkept stream hg hex
      · intro ok v hv htp
        refine ⟨hv, ?_⟩
        split
        · apply hre.of_eq htp
        · apply (hre.of_eq htp).used
    · intro u hu hus
      apply keeps_bind.2
      apply commits_aside (rfl : LayerOp.aside .removeBlobTmp) hu nofun
      intro _ v hv htp
      exact ⟨hv, hus.of_eq htp⟩
  · exact ⟨ht, hfr.used⟩

theorem commits_try {next : Layer (Except LayerError Unit)} (hg : good stream) (hf : Fresh nanos c)
    (hn : ∀ t, Committed codec good kept t → Used nanos t →
      Commits codec good kept (fun _ => Idle) next t)
    :
  Commits codec good kept (fun _ => Idle)
    (do if ← saveAndExtract nanos stream then commitLayer nanos else next) c
  := by
  apply keeps_bind.2
  apply (commits_saveAndExtract hkept h hg hf).mono
  rintro ok t ⟨ht, htm⟩
  cases ok with
  | true => apply commits_commitLayer ht htm
  | false => apply hn t ht htm

theorem commits_pullUpstream {first : Bool} {attempts : Nat}
    (htm : if first then Fresh nanos c else Used nanos c) :
  Commits codec good kept (fun _ => Idle) (pullUpstream nanos first attempts) c
  := by
  induction attempts generalizing first c with
  | zero =>
    apply keeps_bind.2
    apply commits_removeTmp h
    · split at htm
      · apply htm.used
      · apply htm
    · intro t _ hi
      apply hi
  | succ attempts ih =>
    have hrt (t : Cell) (ht : Committed codec good kept t) (hus : Used nanos t) :
        Commits codec good kept (fun _ => Idle) (pullUpstream nanos false attempts) t :=
      ih ht hus
    have ha (t : Cell) (ht : Committed codec good kept t) (hf : Fresh nanos t) :
        Commits codec good kept (fun _ => Idle) (pullUpstream nanos true (attempts + 1)) t := by
      apply keeps_bind.2
      apply commits_source (.inr (.inr rfl)) ht
      · intro stream hg
        apply commits_try hkept ht hg hf hrt
      · apply hrt t ht hf.used
    cases first with
    | true => apply ha c h htm
    | false => apply commits_again h htm ha

end

variable {peers : Nat}

theorem commits_pullFromPeers (h : Committed codec good kept c) (hf : Fresh nanos c) :
  Commits codec good kept (fun _ => Idle) (pullFromPeers nanos peers) c
  := by
  induction peers generalizing c with
  | zero => exact commits_pullUpstream hkept h hf
  | succ peers ih =>
    apply keeps_bind.2
    apply commits_source (.inr (.inl rfl)) h
    · intro stream hg
      apply commits_try hkept h hg hf
      intro t ht hus
      apply commits_again ht hus
      intro u hu hfr
      apply ih hu hfr
    · exact commits_pullUpstream hkept h hf

theorem commits_pullInflight (h : Committed codec good kept c) (hf : Fresh nanos c) :
  Commits codec good kept (fun _ => Idle) (pullInflight nanos peers) c
  := by
  have hp (t : Cell) (ht : Committed codec good kept t) (hf : Fresh nanos t) :
      Commits codec good kept (fun _ => Idle) (pullFromPeers nanos peers) t :=
    commits_pullFromPeers hkept ht hf
  apply keeps_bind.2
  apply commits_aside (rfl : LayerOp.aside .peersWithInflight) h nofun
  intro ok t ht htm
  have hfs : Fresh nanos t := htm.trans hf
  split
  · apply keeps_bind.2
    apply commits_aside (rfl : LayerOp.aside .waitForPeerLayer) ht nofun
    intro ok u hu htm
    have hfe : Fresh nanos u := htm.trans hfs
    split
    · apply keeps_bind.2
      apply commits_source (.inl rfl) hu
      · intro stream hg
        apply commits_try hkept hu hg hfe
        intro v hv hus
        apply commits_again hv hus hp
      · apply commits_again hu hfe.used hp
    · apply hp u hu hfe
  · apply hp t ht hfs

variable {selector : Option Nat}

theorem commits_pullLayer (h : Committed codec good kept c) (hf : Fresh nanos c) :
  Commits codec good kept (fun _ => Idle) (pullLayer nanos selector) c
  := by
  cases selector with
  | none => exact commits_pullUpstream hkept h hf
  | some peers => apply commits_pullInflight hkept h hf

theorem commits_ensureLayer (h : Committed codec good kept c) (hi : Idle c)
    (hbl : ∀ b, c.blob = some b → ∀ stream : Stream, stream.ofFile b.bytes → good stream) :
  Commits codec good kept (fun _ => Idle) (ensureLayer nanos selector) c
  := by
  apply keeps_bind.2
  apply commits_stat (.inl ⟨rfl, rfl⟩) h
  split
  · apply hi
  · apply keeps_bind.2
    apply commits_mkdirTmp h hi
    · intro t ht hsa hf
      rw [← hsa] at hbl
      apply keeps_bind.2
      apply commits_stat (.inr ⟨rfl, rfl⟩) ht
      split
      · apply keeps_bind.2
        apply (commits_extractCompressedBlob ht hf hbl).mono
        rintro ok u ⟨hu, htm⟩
        cases ok with
        | true => apply commits_commitLayer hu htm
        | false =>
          apply commits_again hu htm
          intro v hv hfr
          apply commits_pullLayer hkept hv hfr
      · apply commits_pullLayer hkept ht hf
    · apply hi

end Sources

end Programs

end Periapsis.Image
