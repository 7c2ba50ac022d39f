import Periapsis.Image.Manifests

/-!
# What was saved is what is loaded

The records of two images are saved in any order.
-/

namespace Periapsis.Image

open Files List Function Path

/-- The four kinds of records. -/
inductive RecordKind where
  | layers
  | config
  | manifestDigest
  | indexDigest
  deriving DecidableEq

def RecordKind.suffix : RecordKind → List Char
  | .layers => ".json".toList
  | .config => ".config.json".toList
  | .manifestDigest => ".digest".toList
  | .indexDigest => ".index".toList

def RecordKind.file (kind : RecordKind) : List Char → List Char :=
  recordFile kind.suffix

inductive Save where
  | layers (layerPaths : List Path)
  | config (cfg : ImageConfig)
  | manifestDigest (digest : List Char)
  | indexDigest (digest : List Char)
  deriving DecidableEq

namespace Save

def kind : Save → RecordKind
  | layers _ => .layers
  | config _ => .config
  | manifestDigest _ => .manifestDigest
  | indexDigest _ => .indexDigest

def data (json : Json) : Save → List Char
  | layers layerPaths => json.marshalStrings (layerPaths.map base)
  | config cfg => json.marshalConfig cfg
  | manifestDigest digest => digest
  | indexDigest digest => digest

def save {host : Host} (imageName : List Char) : Save → Manifests host → Manifests host
  | layers layerPaths => saveLayerCache imageName layerPaths
  | config cfg => saveImageConfig imageName cfg
  | manifestDigest digest => saveManifestDigest imageName digest
  | indexDigest digest => saveIndexDigest imageName digest

def Valid (host : Host) : Save → Prop
  | layers layerPaths => ∀ p ∈ layerPaths, layerPath host (base p) = p
  | indexDigest digest => trimSpace digest = digest
  | _ => True

instance (host : Host) : DecidablePred (Valid host)
  | layers layerPaths => inferInstanceAs (Decidable (∀ p ∈ layerPaths, _ = p))
  | indexDigest _ => inferInstanceAs (Decidable (_ = _))
  | config _ | manifestDigest _ => inferInstanceAs (Decidable True)

end Save

def saveAll {host : Host} (saves : List (List Char × Save)) (m : Manifests host) :
    Manifests host :=
  saves.foldl (fun m s => s.2.save s.1 m) m

def lastSaved (kind : RecordKind) (imageName : List Char) (saves : List (List Char × Save)) :
    Option Save :=
  saves.foldl (fun last s => if s.1 = imageName ∧ s.2.kind = kind then some s.2 else last) none

structure Faithful {host : Host} (imageName : List Char) (saves : List (List Char × Save))
    (m : Manifests host) : Prop where
  layers : loadLayerCache imageName (saveAll saves m)
    = match lastSaved .layers imageName saves with
      | some (.layers layerPaths) => verified host layerPaths
      | _ => loadLayerCache imageName m
  config : loadImageConfig imageName (saveAll saves m)
    = match lastSaved .config imageName saves with
      | some (.config cfg) => .ok cfg
      | _ => loadImageConfig imageName m
  index : loadIndexDigest imageName (saveAll saves m)
    = match lastSaved .indexDigest imageName saves with
      | some (.indexDigest digest) => digest
      | _ => loadIndexDigest imageName m

theorem layerCacheFile_eq_imageConfigFile :
  layerCacheFile a = imageConfigFile b ↔ safe a = safe b ++ ".config".toList
  := by
  have hsu : ".config.json".toList = ".config".toList ++ ".json".toList := rfl
  rw [layerCacheFile, imageConfigFile, recordFile, recordFile, hsu, ← append_assoc,
    append_left_inj]

variable {kind kind' : RecordKind}

theorem getLast_suffix_of_file_eq (h : kind.file a = kind'.file b) :
  kind.suffix.getLast? = kind'.suffix.getLast?
  := by
  have hso (kind : RecordKind) : kind.suffix.getLast?.isSome := by
    cases kind with
    | layers | config | manifestDigest | indexDigest => rfl
  have hl (kind : RecordKind) (a : List Char) :
      (kind.file a).getLast? = kind.suffix.getLast? := by
    rw [RecordKind.file, recordFile, getLast?_append, Option.or_of_isSome (hso kind)]
  rw [← hl kind a, h, hl]

/-- Two records of one kind have the same file if the names differ in slashes and underscores only;
or the one is a list of layers and the other a configuration. -/
theorem file_eq_iff :
  kind.file a = kind'.file b
    ↔ kind = kind' ∧ safe a = safe b
      ∨ kind = .layers ∧ kind' = .config ∧ safe a = safe b ++ ".config".toList
      ∨ kind = .config ∧ kind' = .layers ∧ safe b = safe a ++ ".config".toList
  := by
  constructor
  · intro heq
    have hl := getLast_suffix_of_file_eq heq
    by_cases hk : kind = kind'
    · subst hk
      exact .inl ⟨rfl, append_cancel_right heq⟩
    · cases kind with
      | layers =>
        cases kind' with
        | layers => exact absurd rfl hk
        | config => exact .inr (.inl ⟨rfl, rfl, layerCacheFile_eq_imageConfigFile.1 heq⟩)
        | manifestDigest | indexDigest => exact absurd hl (by decide)
      | config =>
        cases kind' with
        | layers =>
          exact .inr (.inr ⟨rfl, rfl, layerCacheFile_eq_imageConfigFile.1 heq.symm⟩)
        | config => exact absurd rfl hk
        | manifestDigest | indexDigest => exact absurd hl (by decide)
      | manifestDigest =>
        cases kind' with
        | manifestDigest => exact absurd rfl hk
        | layers | config | indexDigest => exact absurd hl (by decide)
      | indexDigest =>
        cases kind' with
        | indexDigest => exact absurd rfl hk
        | layers | config | manifestDigest => exact absurd hl (by decide)
  · rintro (⟨rfl, heq⟩ | ⟨rfl, rfl, heq⟩ | ⟨rfl, rfl, heq⟩)
    · rw [RecordKind.file, recordFile, recordFile, heq]
    · apply layerCacheFile_eq_imageConfigFile.2 heq
    · exact (layerCacheFile_eq_imageConfigFile.2 heq).symm

section Saves

variable {host : Host} {m : Manifests host} {a b : List Char} {saves : List (List Char × Save)}
  {name : List Char} {m' : Manifests host} {data : List Char}

theorem files_writeFile (hm : m.made) (ha : host.accepts name) :
  (m.writeFile name data).files = update m.files name (some data)
  := by
  unfold Manifests.writeFile
  rw [dif_pos ⟨hm, ha⟩]

theorem made_writeFile :
  (m.writeFile name data).made = m.made
  := by
  unfold Manifests.writeFile
  split
  all_goals rfl

theorem files_writeFile_of_ne (hne : name' ≠ name) :
  (m.writeFile name data).files name' = m.files name'
  := by
  unfold Manifests.writeFile
  split
  · dsimp only
    rw [update_of_ne hne]
  · rfl

theorem made_save (hm : m.made) (s : Save) :
  (s.save a m).made
  := by
  cases s with
  | layers | config | manifestDigest => exact made_writeFile
  | indexDigest => exact made_writeFile.trans hm

theorem files_save (hm : m.made) (s : Save) (ha : host.accepts (s.kind.file a)) :
  (s.save a m).files (s.kind.file a) = some (s.data host.json)
  := by
  cases s with
  | layers | config | manifestDigest =>
    exact (congrFun (files_writeFile rfl ha) _).trans (update_self _ _ _)
  | indexDigest =>
    exact (congrFun (files_writeFile hm ha) _).trans (update_self _ _ _)

variable {s : Save}

theorem files_save_of_ne (hne : name ≠ s.kind.file a) :
  (s.save a m).files name = m.files name
  := by
  cases s with
  | layers | config | manifestDigest | indexDigest => exact files_writeFile_of_ne hne

theorem made_saveAll (hm : m.made) :
  (saveAll saves m).made
  := by
  induction saves generalizing m with
  | nil => apply hm
  | cons s saves ih => apply ih (made_save hm s.2)

theorem lastSaved_concat {s : List Char × Save} :
  lastSaved kind a (saves ++ [s])
    = if s.1 = a ∧ s.2.kind = kind then some s.2 else lastSaved kind a saves
  := foldl_concat _ _ _ _

theorem kind_of_lastSaved (h : lastSaved kind a saves = some s) :
  s.kind = kind ∧ (a, s) ∈ saves
  := by
  induction saves using reverseRecOn with
  | nil => cases h
  | append_singleton saves s' ih =>
    rw [lastSaved_concat] at h
    split at h
    next hs =>
      cases h
      exact ⟨hs.2, by simp [← hs.1]⟩
    · exact ⟨(ih h).1, mem_append_left _ (ih h).2⟩

theorem files_saveAll (hm : m.made) (ha : host.accepts (kind.file a))
    (hfl : ∀ s ∈ saves, s.2.kind.file s.1 = kind.file a → s.1 = a ∧ s.2.kind = kind) :
  (saveAll saves m).files (kind.file a)
    = match lastSaved kind a saves with
      | some s => some (s.data host.json)
      | none => m.files (kind.file a)
  := by
  induction saves using reverseRecOn with
  | nil => rfl
  | append_singleton saves s ih =>
    have hpr := ih fun s hs => hfl s (mem_append_left _ hs)
    have hsv : saveAll (saves ++ [s]) m = s.2.save s.1 (saveAll saves m) :=
      foldl_concat _ _ _ _
    rw [lastSaved_concat, hsv]
    by_cases hs : s.1 = a ∧ s.2.kind = kind
    · rw [if_pos hs]
      obtain ⟨rfl, rfl⟩ := hs
      apply files_save (made_saveAll hm) s.2 ha
    · rw [if_neg hs, files_save_of_ne, hpr]
      intro heq
      exact hs (hfl s (by simp) heq.symm)

/-! ### Loads -/

theorem loadLayerCache_congr (h : m'.files (layerCacheFile a) = m.files (layerCacheFile a)) :
  loadLayerCache a m' = loadLayerCache a m
  := by
  rw [loadLayerCache, loadLayerCache, h]

theorem loadImageConfig_congr (h : m'.files (imageConfigFile a) = m.files (imageConfigFile a)) :
  loadImageConfig a m' = loadImageConfig a m
  := by
  rw [loadImageConfig, loadImageConfig, h]

theorem loadIndexDigest_congr (h : m'.files (indexDigestFile a) = m.files (indexDigestFile a)) :
  loadIndexDigest a m' = loadIndexDigest a m
  := by
  rw [loadIndexDigest, loadIndexDigest, h]

theorem loadLayerCache_of_files (hv : (Save.layers l).Valid host)
    (h : m.files (layerCacheFile a) = some ((Save.layers l).data host.json)) :
  loadLayerCache a m = verified host l
  := by
  have hpa : (l.map base).map (layerPath host) = l := by
    rw [map_map]
    exact (map_congr_left hv).trans (map_id _)
  rw [loadLayerCache, h]
  simp only [Save.data, host.json.strings_eq, hpa]

theorem loadImageConfig_of_files
    (h : m.files (imageConfigFile a) = some ((Save.config cfg).data host.json)) :
  loadImageConfig a m = .ok cfg
  := by
  rw [loadImageConfig, h]
  simp only [Save.data, host.json.config_eq]

theorem loadIndexDigest_of_files {digest : List Char} (hv : (Save.indexDigest digest).Valid host)
    (h : m.files (indexDigestFile a) = some ((Save.indexDigest digest).data host.json)) :
  loadIndexDigest a m = digest
  := by
  rw [loadIndexDigest, h]
  exact hv

def Apart (a b : List Char) : Prop :=
  safe a ≠ safe b ∧ safe a ≠ safe b ++ ".config".toList ∧ safe b ≠ safe a ++ ".config".toList

instance (a b : List Char) : Decidable (Apart a b) :=
  inferInstanceAs (Decidable (_ ∧ _ ∧ _))

theorem kind_eq_of_file_eq (heq : kind'.file a = kind.file a) :
  kind' = kind
  := by
  have hse : safe a ≠ safe a ++ ".config".toList := by simp
  rcases file_eq_iff.1 heq with ⟨hk, -⟩ | ⟨-, -, heq⟩ | ⟨-, -, heq⟩
  · exact hk
  all_goals exact absurd heq hse

theorem file_eq_of_apart (h : Apart a b) (hn : n = a ∨ n = b) (heq : kind'.file n = kind.file a) :
  n = a ∧ kind' = kind
  := by
  obtain ⟨hsa, hc, hco⟩ := h
  rcases hn with rfl | rfl
  · exact ⟨rfl, kind_eq_of_file_eq heq⟩
  · rcases file_eq_iff.1 heq with ⟨-, heq⟩ | ⟨-, -, heq⟩ | ⟨-, -, heq⟩
    · exact absurd heq.symm hsa
    · exact absurd heq hco
    · exact absurd heq hc

theorem faithful_of_apart (hm : m.made) (hla : host.accepts (layerCacheFile a))
    (hc : host.accepts (imageConfigFile a))
    (hi : host.accepts (indexDigestFile a)) (hap : Apart a b)
    (hna : ∀ s ∈ saves, s.1 = a ∨ s.1 = b) (hv : ∀ s ∈ saves, s.1 = a → s.2.Valid host) :
  Faithful a saves m
  := by
  have hfl (kind : RecordKind) (ha : host.accepts (kind.file a)) :=
    files_saveAll hm ha fun s hs heq => file_eq_of_apart hap (hna s hs) heq
  constructor
  · have hfi := hfl .layers hla
    cases hl : lastSaved .layers a saves with
    | none =>
      rw [hl] at hfi
      exact loadLayerCache_congr hfi
    | some s =>
      obtain ⟨hk, hme⟩ := kind_of_lastSaved hl
      rw [hl] at hfi
      cases s with
      | layers l => exact loadLayerCache_of_files (hv _ hme rfl) hfi
      | config | manifestDigest | indexDigest => cases hk
  · have hfi := hfl .config hc
    cases hl : lastSaved .config a saves with
    | none =>
      rw [hl] at hfi
      exact loadImageConfig_congr hfi
    | some s =>
      obtain ⟨hk, -⟩ := kind_of_lastSaved hl
      rw [hl] at hfi
      cases s with
      | config cfg => exact loadImageConfig_of_files hfi
      | layers | manifestDigest | indexDigest => cases hk
  · have hfi := hfl .indexDigest hi
    cases hl : lastSaved .indexDigest a saves with
    | none =>
      rw [hl] at hfi
      exact loadIndexDigest_congr hfi
    | some s =>
      obtain ⟨hk, hme⟩ := kind_of_lastSaved hl
      rw [hl] at hfi
      cases s with
      | indexDigest digest => exact loadIndexDigest_of_files (hv _ hme rfl) hfi
      | layers | config | manifestDigest => cases hk

/-! ### Saves that are lost -/

theorem files_eq_none_of_refused (h : m.made = false ∨ host.accepts name = false) :
  m.files name = none
  := by
  by_contra hfi
  have hac := m.accepted name (Option.isSome_iff_ne_none.2 hfi)
  simp [hac] at h

end Saves

section Lost

variable {host : Host} {m : Manifests host} {a b : List Char}

theorem layers_refused (h : host.accepts (layerCacheFile a) = false) :
  ¬ Faithful a [(a, .layers [])] m
  := by
  intro hf
  have hlo := hf.layers
  rw [loadLayerCache, files_eq_none_of_refused (.inr h)] at hlo
  simp [lastSaved, Save.kind, verified] at hlo

theorem config_refused (h : host.accepts (imageConfigFile a) = false) :
  ¬ Faithful a [(a, .config {})] m
  := by
  intro hf
  have hlo := hf.config
  rw [loadImageConfig, files_eq_none_of_refused (.inr h)] at hlo
  simp [lastSaved, Save.kind] at hlo

theorem index_refused (h : m.made = false ∨ host.accepts (indexDigestFile a) = false) :
  ¬ Faithful a [(a, .indexDigest ['x'])] m
  := by
  have hm : (saveAll [(a, .indexDigest ['x'])] m).made = m.made := made_writeFile
  intro hf
  have hlo := hf.index
  rw [loadIndexDigest, files_eq_none_of_refused (by rw [hm]; exact h)] at hlo
  simp [lastSaved, Save.kind] at hlo

theorem base_layerPath (host : Host) {hash : Name} (h : Path.Proper hash) :
  base (layerPath host hash) = hash
  := by
  have hl (rooted : Bool) (names : List Name) :
      (clean ⟨rooted, names ++ [hash]⟩).names.getLast? = some hash := by
    simp [clean, push_of_proper h]
  rw [base, getLastD_eq_getLast?, layerPath, join]
  split
  · rw [← nil_append [hash], hl]
    rfl
  · rw [hl]
    rfl

theorem files_overwritten (hm : m.made) (kind : RecordKind) (s s' : Save)
    (ha : host.accepts (kind.file a)) (hfi : s'.kind.file b = kind.file a) :
  (saveAll [(a, s), (b, s')] m).files (kind.file a) = some (s'.data host.json)
  := by
  rw [← hfi] at ha ⊢
  exact files_save (made_save hm s) s' ha

theorem layers_overwritten (hab : a ≠ b) (hm : m.made)
    (ha : host.accepts (layerCacheFile a)) (hsa : safe a = safe b) :
  ¬ Faithful a [(a, .layers [layerPath host ['x']]), (b, .layers [])] m
  := by
  have hfi := files_overwritten hm .layers (.layers [layerPath host ['x']])
    (.layers []) ha (file_eq_iff.2 (.inl ⟨rfl, hsa.symm⟩))
  intro hf
  have hlo := hf.layers
  rw [loadLayerCache_of_files (by simp [Save.Valid]) hfi] at hlo
  cases hst : host.stat (layerPath host ['x']) with
  | false | true => simp [lastSaved, Save.kind, hab.symm, verified, hst] at hlo

theorem layers_overwritten_by_config (hab : a ≠ b) (hm : m.made)
    (ha : host.accepts (layerCacheFile a)) (hsa : safe a = safe b ++ ".config".toList) :
  ¬ Faithful a [(a, .layers []), (b, .config {})] m
  := by
  have hfi : (saveAll [(a, .layers []), (b, .config {})] m).files (layerCacheFile a) = _ :=
    files_overwritten hm .layers (.layers []) (.config {}) ha
      (layerCacheFile_eq_imageConfigFile.2 hsa).symm
  intro hf
  have hlo := hf.layers
  rw [loadLayerCache, hfi] at hlo
  simp [Save.data, host.json.strings_of_config, lastSaved, Save.kind, hab.symm, verified] at hlo

theorem config_overwritten (hm : m.made) (ha : host.accepts (imageConfigFile a))
    (hsa : safe b = safe a ++ ".config".toList) :
  ¬ Faithful a [(a, .config {}), (b, .layers [layerPath host ['x']])] m
  := by
  have hfi : (saveAll [(a, .config {}), (b, .layers [layerPath host ['x']])] m).files
      (imageConfigFile a) = _ :=
    files_overwritten hm .config (.config {}) (.layers [layerPath host ['x']]) ha
      (layerCacheFile_eq_imageConfigFile.2 hsa)
  intro hf
  have hlo := hf.config
  rw [loadImageConfig, hfi] at hlo
  simp [Save.data, host.json.config_of_strings, lastSaved, Save.kind] at hlo

end Lost

/-- What is loaded for an image was saved for it last if and only if the directory is there, the
names are accepted, and the records of the other image have different files. -/
theorem faithful_iff (host : Host) (m : Manifests host) {a b : List Char} (hab : a ≠ b) :
  (∀ saves : List (List Char × Save), (∀ s ∈ saves, s.1 = a ∨ s.1 = b)
      → (∀ s ∈ saves, s.1 = a → s.2.Valid host) → Faithful a saves m)
    ↔ m.made = true ∧ host.accepts (layerCacheFile a) = true
      ∧ host.accepts (imageConfigFile a) = true ∧ host.accepts (indexDigestFile a) = true
      ∧ Apart a b
  := by
  have hca : (Save.layers [layerPath host ['x']]).Valid host := by
    have hb := base_layerPath host (by simp [Path.Proper, dot, dotDot] : Path.Proper ['x'])
    intro p hp
    rw [mem_singleton.mp hp, hb]
  have hd : (Save.indexDigest ['x']).Valid host := (by decide : trimSpace ['x'] = ['x'])
  constructor
  · intro h
    have hm : m.made = true := by
      by_contra hm
      exact index_refused (.inl (by simpa using hm)) (h _ (by simp) (by simp [hd]))
    have hla : host.accepts (layerCacheFile a) = true := by
      by_contra ha
      exact layers_refused (by simpa using ha) (h _ (by simp) (by simp [Save.Valid]))
    have hc : host.accepts (imageConfigFile a) = true := by
      by_contra ha
      exact config_refused (by simpa using ha) (h _ (by simp) (by simp [Save.Valid]))
    have hi : host.accepts (indexDigestFile a) = true := by
      by_contra ha
      exact index_refused (.inr (by simpa using ha)) (h _ (by simp) (by simp [hd]))
    refine ⟨hm, hla, hc, hi, ?_, ?_, ?_⟩
    · intro hsa
      exact layers_overwritten hab hm hla hsa
        (h _ (by simp) (by simp [hca, hab.symm]))
    · intro hsa
      exact layers_overwritten_by_config hab hm hla hsa
        (h _ (by simp) (by simp [Save.Valid]))
    · intro hsa
      exact config_overwritten hm hc hsa
        (h _ (by simp) (by simp [Save.Valid, hab.symm]))
  · rintro ⟨hm, hla, hc, hi, hap⟩ saves hna hv
    exact faithful_of_apart hm hla hc hi hap hna hv

def plainManifests : Manifests plainHost :=
  Manifests.missing.mkdirAll

theorem faithful_plain :
  "nginx".toList ≠ "redis".toList
    ∧ ∀ saves : List (List Char × Save),
      (∀ s ∈ saves, s.1 = "nginx".toList ∨ s.1 = "redis".toList)
      → (∀ s ∈ saves, s.1 = "nginx".toList → s.2.Valid plainHost)
      → Faithful "nginx".toList saves plainManifests
  := ⟨by decide, (faithful_iff plainHost plainManifests (by decide)).mpr
    ⟨rfl, rfl, rfl, rfl, by decide⟩⟩

def clashingSaves : List (List Char × Save) :=
  [("team/app".toList, .layers [layerPath plainHost "c0ffee".toList]),
    ("team_app".toList, .layers [])]

theorem layers_lost :
  (∀ s ∈ clashingSaves, s.2.Valid plainHost)
    ∧ lastSaved .layers "team/app".toList clashingSaves
      = some (.layers [layerPath plainHost "c0ffee".toList])
    ∧ loadLayerCache "team/app".toList (saveAll clashingSaves plainManifests)
      = .ok []
  := by decide +kernel

end Periapsis.Image
