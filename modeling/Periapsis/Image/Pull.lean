import Periapsis.Image.SavedRecords
import Periapsis.Transition.System

/-!
# Pulls

The calls of the manager of images for one image name.
-/

namespace Periapsis.Image

open Files Transition List

structure Registry where
  Manifest : Type
  digest : Manifest → List Char
  layers : Manifest → List Name
  config : Manifest → ImageConfig
  proper : ∀ img, ∀ hash ∈ layers img, Path.Proper hash

structure Answer (r : Registry) where
  head : Option (List Char)
  image : Option r.Manifest
  digest : Bool

structure World (r : Registry) where
  parses : Bool
  stat : Path → Bool
  checked : Answer r
  resolved : Answer r
  layers : Bool
  config : Bool

def Manifests.seen {host : Host} (stat : Path → Bool) (m : Manifests host) :
    Manifests { host with stat := stat } where
  made := m.made
  files := m.files
  accepted := m.accepted

structure ImageManager (r : Registry) (host : Host) where
  manifestCache : Option r.Manifest
  configCache : Option ImageConfig
  disk : Manifests host

def newImageManager {r : Registry} {host : Host} (disk : Manifests host) : ImageManager r host where
  manifestCache := none
  configCache := none
  disk := disk

/-- The pull policies. -/
inductive PullPolicy where
  | always
  | ifNotPresent
  | never
  deriving DecidableEq

def PullPolicy.ofString (s : String) : PullPolicy :=
  if s = "IfNotPresent" then .ifNotPresent
  else if s = "Never" then .never
  else .always

inductive PullError where
  | notInCache
  | manifest
  | layers
  deriving DecidableEq

abbrev PullResult := Except PullError (List Path × Bool)

section Pulling

variable {r : Registry} {host : Host}

def layersFromImage (host : Host) (img : r.Manifest) (w : World r) :
    Except PullError (List Path) :=
  if w.layers then .ok ((r.layers img).map (layerPath host)) else .error .layers

def resolveManifestDigest (w : World r) : Option (List Char) :=
  if w.parses then
    match w.checked.head with
    | some digest => some digest
    | none =>
      match w.checked.image with
      | none => none
      | some img => if w.checked.digest then some (r.digest img) else none
  else none

structure ManifestResult (r : Registry) where
  img : r.Manifest
  indexDigest : List Char

def resolveManifest (w : World r) : Option (ManifestResult r) :=
  if w.parses then
    w.resolved.image.map fun img => ⟨img, w.resolved.head.getD []⟩
  else none

variable (imageName : List Char)

def diskLayers (w : World r) (im : ImageManager r host) :
    Except LoadError (List Path) :=
  loadLayerCache imageName (im.disk.seen w.stat)

def pullCached (pullPolicy : PullPolicy) (w : World r)
    (im : ImageManager r host) : Option PullResult :=
  if pullPolicy = .ifNotPresent ∨ pullPolicy = .never then
    match im.manifestCache with
    | some cached =>
      match diskLayers imageName w im with
      | .ok paths => some (.ok (paths, true))
      -- Fallback if disk is gone but memory is there
      | .error _ => some ((layersFromImage host cached w).map (·, true))
    | none =>
      match diskLayers imageName w im with
      | .ok paths => some (.ok (paths, true))
      | .error _ => if pullPolicy = .never then some (.error .notInCache) else none
  else none

def upToDate (w : World r) (im : ImageManager r host) :
    Option (List Path) :=
  match diskLayers imageName w im with
  | .error _ => none
  | .ok cachedPaths =>
    let cachedIndex := loadIndexDigest imageName im.disk
    if cachedIndex ≠ [] ∧ resolveManifestDigest w = some cachedIndex then some cachedPaths
    else none

def pullUnavailable (w : World r) (im : ImageManager r host) :
    PullResult :=
  match im.manifestCache with
  | some cached => (layersFromImage host cached w).map (·, true)
  | none =>
    match diskLayers imageName w im with
    | .ok paths => .ok (paths, true)
    | .error _ => .error .manifest

def persist (res : ManifestResult r) (layerPaths : List Path) (w : World r)
    (m : Manifests host) : Manifests host :=
  let m := saveLayerCache imageName layerPaths m
  let m := if res.indexDigest ≠ [] then saveIndexDigest imageName res.indexDigest m else m
  let m := if w.resolved.digest then saveManifestDigest imageName (r.digest res.img) m else m
  if w.config then saveImageConfig imageName (r.config res.img) m else m

def pullManifest (w : World r) (im : ImageManager r host) :
    PullResult × ImageManager r host :=
  match resolveManifest w with
  | none => (pullUnavailable imageName w im, im)
  | some res =>
    -- The manifest is kept before it is known whether there are its layers.
    let im := { im with manifestCache := some res.img }
    match layersFromImage host res.img w with
    | .error e => (.error e, im)
    | .ok layerPaths =>
      (.ok (layerPaths, false), { im with disk := persist imageName res layerPaths w im.disk })

def pullWithOptions (pullPolicy : String) (w : World r)
    (im : ImageManager r host) : PullResult × ImageManager r host :=
  match pullCached imageName (.ofString pullPolicy) w im with
  | some result => (result, im)
  | none =>
    match upToDate imageName w im with
    | some paths => (.ok (paths, true), im)
    | none => pullManifest imageName w im

def imageEntrypoint (config : Bool) (im : ImageManager r host) :
    ImageConfig × ImageManager r host :=
  match im.manifestCache with
  | some img => (if config then r.config img else {}, im)
  | none =>
    match im.configCache with
    | some cfg => (cfg, im)
    | none =>
      match loadImageConfig imageName im.disk with
      | .ok cfg => (cfg, { im with configCache := some cfg })
      | .error _ => ({}, im)

end Pulling

inductive PullAction (r : Registry) where
  | pull (pullPolicy : String) (w : World r)
  | entrypoint (config : Bool)
  | restart

def pulls (r : Registry) (host : Host) (imageName : List Char) :
    System (ImageManager r host) (PullAction r) where
  step im
    | .pull pullPolicy w => some (pullWithOptions imageName pullPolicy w im).2
    | .entrypoint config => some (imageEntrypoint imageName config im).2
    | .restart => some (newImageManager im.disk)

def resolvedManifests {r : Registry} (actions : List (PullAction r)) : List r.Manifest :=
  actions.filterMap fun
    | .pull _ w => (resolveManifest w).map ManifestResult.img
    | _ => none

section Effects

variable {r : Registry} {host : Host} {imageName : List Char} {w : World r}
  {im : ImageManager r host} {m : Manifests host} {img : r.Manifest} {paths : List Path}

/-- What a pull can return, and what it leaves behind. -/
inductive Pulled (imageName : List Char) (w : World r) (im : ImageManager r host) :
    PullResult → ImageManager r host → Prop
  | failed (e : PullError) : Pulled imageName w im (.error e) im
  | disk {paths : List Path} (h : diskLayers imageName w im = .ok paths) :
      Pulled imageName w im (.ok (paths, true)) im
  | memory {img : r.Manifest} {paths : List Path} (h : im.manifestCache = some img)
      (hlayers : layersFromImage host img w = .ok paths) :
      Pulled imageName w im (.ok (paths, true)) im
  | incomplete {res : ManifestResult r} (h : resolveManifest w = some res) (e : PullError)
      (hlayers : layersFromImage host res.img w = .error e) :
      Pulled imageName w im (.error e) { im with manifestCache := some res.img }
  | fetched {res : ManifestResult r} (h : resolveManifest w = some res) {paths : List Path}
      (hlayers : layersFromImage host res.img w = .ok paths) :
      Pulled imageName w im (.ok (paths, false))
        { im with
          manifestCache := some res.img
          disk := persist imageName res paths w im.disk }

theorem Pulled.of_memory (h : im.manifestCache = some img) :
  Pulled imageName w im ((layersFromImage host img w).map (·, true)) im
  := by
  cases hl : layersFromImage host img w with
  | error e => exact .failed e
  | ok paths => exact .memory h hl

theorem pullCached_pulled (h : pullCached imageName pullPolicy w im = some result) :
  Pulled imageName w im result im
  := by
  unfold pullCached at h
  split at h
  · cases hm : im.manifestCache with
    | some img =>
      cases hd : diskLayers imageName w im with
      | ok paths =>
        simp only [hm, hd, Option.some.injEq] at h
        subst h
        exact .disk hd
      | error e =>
        simp only [hm, hd, Option.some.injEq] at h
        subst h
        exact .of_memory hm
    | none =>
      cases hd : diskLayers imageName w im with
      | ok paths =>
        simp only [hm, hd, Option.some.injEq] at h
        subst h
        exact .disk hd
      | error e =>
        simp only [hm, hd, Option.ite_none_right_eq_some, Option.some.injEq] at h
        obtain ⟨-, rfl⟩ := h
        exact .failed _
  · cases h

theorem upToDate_eq_some (h : upToDate imageName w im = some paths) :
  diskLayers imageName w im = .ok paths ∧ loadIndexDigest imageName im.disk ≠ []
    ∧ resolveManifestDigest w = some (loadIndexDigest imageName im.disk)
  := by
  cases hd : diskLayers imageName w im with
  | error e => simp [upToDate, hd] at h
  | ok cachedPaths =>
    simp only [upToDate, hd, Option.ite_none_right_eq_some, Option.some.injEq] at h
    obtain ⟨hdi, rfl⟩ := h
    exact ⟨rfl, hdi⟩

theorem pullUnavailable_pulled :
  Pulled imageName w im (pullUnavailable imageName w im) im
  := by
  unfold pullUnavailable
  split
  next hm =>
    exact .of_memory hm
  · split
    next hd =>
      exact .disk hd
    · exact .failed _

theorem pullManifest_pulled :
  Pulled imageName w im (pullManifest imageName w im).1 (pullManifest imageName w im).2
  := by
  cases hr : resolveManifest w with
  | none =>
    simp only [pullManifest, hr]
    exact pullUnavailable_pulled
  | some res =>
    cases hl : layersFromImage host res.img w with
    | error e =>
      simp only [pullManifest, hr, hl]
      exact .incomplete hr e hl
    | ok paths =>
      simp only [pullManifest, hr, hl]
      exact .fetched hr hl

theorem pullWithOptions_pulled (imageName : List Char) (pullPolicy : String) (w : World r)
    (im : ImageManager r host) :
  Pulled imageName w im (pullWithOptions imageName pullPolicy w im).1
    (pullWithOptions imageName pullPolicy w im).2
  := by
  unfold pullWithOptions
  split
  next hc =>
    exact pullCached_pulled hc
  · split
    next hp =>
      exact .disk (upToDate_eq_some hp).1
    · exact pullManifest_pulled

theorem eq_of_layersFromImage (h : layersFromImage host img w = .ok paths) :
  (r.layers img).map (layerPath host) = paths
  := by
  unfold layersFromImage at h
  split_ifs at h
  exact Except.ok.inj h

theorem layers_of_layersFromImage :
  (layersFromImage host img w).isOk = w.layers
  := by
  unfold layersFromImage
  cases w.layers with
  | false | true => rfl

theorem eq_of_verified (h : verified host paths = .ok paths') :
  paths' = paths
  := by
  unfold verified at h
  split at h
  · cases h
  · exact (Except.ok.inj h).symm

theorem eq_of_diskLayers {has : List Name}
    (h : im.disk.files (layerCacheFile imageName) = some (host.json.marshalStrings has))
    (hd : diskLayers imageName w im = .ok paths) :
  paths = has.map (layerPath host)
  := by
  have hf : (im.disk.seen w.stat).files (layerCacheFile imageName) = _ := h
  rw [diskLayers, loadLayerCache, hf] at hd
  simp only [host.json.strings_eq] at hd
  exact eq_of_verified hd

theorem files_ne_none_of_diskLayers (hd : diskLayers imageName w im = .ok paths) :
  im.disk.files (layerCacheFile imageName) ≠ none
  := by
  intro h
  have hf : (im.disk.seen w.stat).files (layerCacheFile imageName) = none := h
  rw [diskLayers, loadLayerCache, hf] at hd
  cases hd

def pullSaves (imageName : List Char) (res : ManifestResult r) (paths : List Path) (w : World r) :
    List (List Char × Save) :=
  [(imageName, .layers paths)]
    ++ (if res.indexDigest ≠ [] then [(imageName, .indexDigest res.indexDigest)] else [])
    ++ (if w.resolved.digest then [(imageName, .manifestDigest (r.digest res.img))] else [])
    ++ (if w.config then [(imageName, .config (r.config res.img))] else [])

variable {res : ManifestResult r}

theorem persist_eq :
  persist imageName res paths w m = saveAll (pullSaves imageName res paths w) m.mkdirAll
  := by
  unfold persist pullSaves
  split_ifs
  all_goals rfl

theorem files_persist (kind : RecordKind) (ha : host.accepts (kind.file imageName)) :
  (persist imageName res paths w m).files (kind.file imageName)
    = match lastSaved kind imageName (pullSaves imageName res paths w) with
      | some s => some (s.data host.json)
      | none => m.files (kind.file imageName)
  := by
  have hn : ∀ s ∈ pullSaves imageName res paths w, s.1 = imageName := by
    unfold pullSaves
    split_ifs
    all_goals simp
  rw [persist_eq]
  apply files_saveAll rfl ha
  intro s hs heq
  exact ⟨hn s hs, kind_eq_of_file_eq (by rw [← heq, hn s hs])⟩

theorem lastSaved_layers :
  lastSaved .layers imageName (pullSaves imageName res paths w) = some (.layers paths)
  := by
  unfold pullSaves
  split_ifs
  all_goals simp [lastSaved, Save.kind]

theorem map_base_of_layersFromImage (h : layersFromImage host img w = .ok paths) :
  paths.map base = r.layers img
  := by
  rw [← eq_of_layersFromImage h, map_map]
  exact (map_congr_left fun h hh => base_layerPath host (r.proper _ h hh)).trans
    (map_id _)

theorem files_persist_layers (hl : layersFromImage host res.img w = .ok paths)
    (ha : host.accepts (layerCacheFile imageName)) :
  (persist imageName res paths w m).files (layerCacheFile imageName)
    = some (host.json.marshalStrings (r.layers res.img))
  := by
  have hf : (persist imageName res paths w m).files _ = _ := files_persist .layers ha
  rw [lastSaved_layers] at hf
  rw [← map_base_of_layersFromImage hl]
  exact hf

end Effects

end Periapsis.Image
