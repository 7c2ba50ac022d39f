import Periapsis.Image.Pull

/-!
# Layers and command

After a pull the entrypoint and the command are read.
-/

namespace Periapsis.Image

open Files Transition List

variable {r : Registry} {host : Host} {imageName : List Char} {w : World r}
  {im im' : ImageManager r host} {m : Manifests host} {img : r.Manifest} {paths : List Path}

def Recorded (imageName : List Char) (img : r.Manifest) (m : Manifests host) : Prop :=
  m.files (layerCacheFile imageName) = some (host.json.marshalStrings (r.layers img))
    ∧ m.files (imageConfigFile imageName) = some (host.json.marshalConfig (r.config img))

theorem Recorded.diskLayers_eq (h : Recorded imageName img im.disk)
    (hd : diskLayers imageName w im = .ok paths) :
  paths = (r.layers img).map (layerPath host)
  := eq_of_diskLayers h.1 hd

theorem Recorded.loadImageConfig_eq (h : Recorded imageName img m) :
  loadImageConfig imageName m = .ok (r.config img)
  := loadImageConfig_of_files h.2

theorem recorded_persist {res : ManifestResult r} (hc : w.config)
    (hl : layersFromImage host res.img w = .ok paths)
    (hac : host.accepts (layerCacheFile imageName))
    (hae : host.accepts (imageConfigFile imageName)) :
  Recorded imageName res.img (persist imageName res paths w m)
  := by
  have hla : lastSaved .config imageName (pullSaves imageName res paths w)
      = some (.config (r.config res.img)) := by
    unfold pullSaves
    rw [if_pos hc, lastSaved_concat, if_pos ⟨rfl, rfl⟩]
  have hf : (persist imageName res paths w m).files _ = _ := files_persist .config hae
  rw [hla] at hf
  exact ⟨files_persist_layers hl hac, hf⟩

/-- A resolved manifest has a configuration if its layers can be obtained; if not, there is no list
of layers on disk, or the records are those of the manifest. -/
def Obtained (imageName : List Char) (im : ImageManager r host) : PullAction r → Prop
  | .pull _ w => ∀ res, resolveManifest w = some res →
      if w.layers then w.config = true
      else im.disk.files (layerCacheFile imageName) = none ∨ Recorded imageName res.img im.disk
  | _ => True

structure Known (imageName : List Char) (imgs : List r.Manifest) (im : ImageManager r host) :
    Prop where
  disk : im.disk.files (layerCacheFile imageName) = none
    ∨ ∃ img ∈ imgs, Recorded imageName img im.disk
  memory : ∀ img, im.manifestCache = some img → img ∈ imgs
    ∧ (im.disk.files (layerCacheFile imageName) = none ∨ Recorded imageName img im.disk)
  config : im.manifestCache = none → ∀ cfg, im.configCache = some cfg
    → loadImageConfig imageName im.disk = .ok cfg

section Known

variable {imgs : List r.Manifest}

theorem known_newImageManager
    (h : m.files (layerCacheFile imageName) = none ∨ ∃ img ∈ imgs, Recorded imageName img m) :
  Known imageName imgs (newImageManager m : ImageManager r host)
  where
  disk := h
  memory _ h := nomatch h
  config _ _ h := nomatch h

theorem Known.imageEntrypoint (h : Known imageName imgs im) (config : Bool) :
  Known imageName imgs (imageEntrypoint imageName config im).2
  := by
  unfold Image.imageEntrypoint
  split
  · exact h
  · split
    · exact h
    · split
      next hm _ _ cfg hlo =>
        constructor
        · exact h.disk
        · exact h.memory
        · rintro - cfg' hcf
          cases hcf
          exact hlo
      · exact h

section

variable (hac : host.accepts (layerCacheFile imageName) → host.accepts (imageConfigFile imageName))
include hac

theorem known_persist {res : ManifestResult r} (hc : w.config)
    (hl : layersFromImage host res.img w = .ok paths) :
  (persist imageName res paths w m).files (layerCacheFile imageName) = none
    ∨ Recorded imageName res.img (persist imageName res paths w m)
  := by
  by_cases h : host.accepts (layerCacheFile imageName)
  · exact .inr (recorded_persist hc hl h (hac h))
  · exact .inl (files_eq_none_of_refused (.inr (Bool.eq_false_iff.2 h)))

theorem Known.pulled {result : PullResult} (h : Known imageName imgs im)
    (ho : Obtained imageName im (.pull pullPolicy w))
    (hm : ∀ res, resolveManifest w = some res → res.img ∈ imgs)
    (hp : Pulled imageName w im result im') :
  Known imageName imgs im'
  := by
  cases hp with
  | failed | disk | memory => exact h
  | @incomplete res hre e hl =>
    have hr := ho res hre
    have hfa : w.layers = false := by
      rw [← layers_of_layersFromImage, hl]
      rfl
    rw [hfa] at hr
    constructor
    · exact h.disk
    · intro img hi
      cases hi
      exact ⟨hm res hre, hr⟩
    · intro hn
      cases hn
  | @fetched res hre paths hl =>
    have hc := ho res hre
    have ho : w.layers := by
      rw [← layers_of_layersFromImage, hl]
      rfl
    rw [ho] at hc
    have hr := known_persist (m := im.disk) hac hc hl
    constructor
    · exact hr.imp_right fun hr => ⟨res.img, hm res hre, hr⟩
    · intro img hi
      cases hi
      exact ⟨hm res hre, hr⟩
    · intro hn
      cases hn

theorem Known.run {start : ImageManager r host} (hst : Known imageName imgs start)
    (hme : (pulls r host imageName).Meets (Obtained imageName) start actions)
    (hm : resolvedManifests actions ⊆ imgs)
    (hru : (pulls r host imageName).run start actions = some im) :
  Known imageName imgs im
  := by
  have hmt := System.meets_and _ hme
    (System.meets_of_forall _ (C := fun _ a => a ∈ actions) (fun _ ha _ => ha) start)
  refine System.run_induction _ hst ?_ hmt hru
  rintro u a v hu ⟨ha, hmm⟩ hs
  cases a with
  | pull pullPolicy w =>
    cases hs
    apply hu.pulled hac ha _ (pullWithOptions_pulled imageName pullPolicy w u)
    intro res hre
    apply hm
    exact mem_filterMap.2 ⟨_, hmm, by simp [hre]⟩
  | entrypoint config =>
    cases hs
    exact hu.imageEntrypoint config
  | restart =>
    cases hs
    exact known_newImageManager hu.disk

end

theorem imageEntrypoint_of_memory (h : im.manifestCache = some img) :
  (imageEntrypoint imageName true im).1 = r.config img
  := by
  simp [imageEntrypoint, h]

theorem Known.exists_of_diskLayers (h : Known imageName imgs im)
    (hd : diskLayers imageName w im = .ok paths) :
  ∃ img ∈ imgs, paths = (r.layers img).map (layerPath host)
    ∧ (Image.imageEntrypoint imageName true im).1 = r.config img
  := by
  have hf := files_ne_none_of_diskLayers hd
  cases hm : im.manifestCache with
  | some img =>
    obtain ⟨hme, hr⟩ := h.memory img hm
    have hr := hr.resolve_left hf
    exact ⟨img, hme, hr.diskLayers_eq hd, imageEntrypoint_of_memory hm⟩
  | none =>
    obtain ⟨img, hme, hr⟩ := h.disk.resolve_left hf
    refine ⟨img, hme, hr.diskLayers_eq hd, ?_⟩
    have hlo := hr.loadImageConfig_eq
    cases hca : im.configCache with
    | none => simp [Image.imageEntrypoint, hm, hca, hlo]
    | some cfg =>
      have hcg := (h.config hm cfg hca).symm.trans hlo
      simpa [Image.imageEntrypoint, hm, hca] using hcg

end Known

/-- The entrypoint and the command read right after a pull belong to the manifest that the layers
belong to, which was resolved by the pull or before it. -/
theorem pulled_together (haccepts : host.accepts (layerCacheFile imageName) = true
      → host.accepts (imageConfigFile imageName) = true)
    {disk : Manifests host} (hdisk : disk.files (layerCacheFile imageName) = none)
    {actions : List (PullAction r)}
    (hmeets : (pulls r host imageName).Meets (Obtained imageName) (newImageManager disk) actions)
    (hrun : (pulls r host imageName).run (newImageManager disk) actions = some im)
    {pullPolicy : String} {cached : Bool}
    (hpull : pullWithOptions imageName pullPolicy w im = (.ok (paths, cached), im')) :
  ∃ img ∈ resolvedManifests (actions ++ [.pull pullPolicy w]),
    paths = (r.layers img).map (layerPath host)
      ∧ (imageEntrypoint imageName true im').1 = r.config img
  := by
  have hk := (known_newImageManager (.inl hdisk)).run haccepts hmeets (List.Subset.refl _) hrun
  have hp : Pulled imageName w im (.ok (paths, cached)) im' := by
    simpa only [hpull] using pullWithOptions_pulled imageName pullPolicy w im
  rw [resolvedManifests, filterMap_append]
  cases hp with
  | disk hdisk =>
    obtain ⟨img, hme, hi⟩ := hk.exists_of_diskLayers hdisk
    exact ⟨img, mem_append_left _ hme, hi⟩
  | @memory img _ hm hl =>
    exact ⟨img, mem_append_left _ (hk.memory img hm).1,
      (eq_of_layersFromImage hl).symm, imageEntrypoint_of_memory hm⟩
  | @fetched res hre _ hl =>
    exact ⟨res.img, mem_append_right _ (by simp [hre]),
      (eq_of_layersFromImage hl).symm, imageEntrypoint_of_memory rfl⟩

def twoManifests : Registry where
  Manifest := Bool
  digest
    | false => "sha256:00000000000a".toList
    | true => "sha256:00000000000b".toList
  layers
    | false => ["1a".toList]
    | true => ["1b".toList]
  config
    | false => { entrypoint := ["/old".toList] }
    | true => { entrypoint := ["/new".toList] }
  proper img := by
    cases img with
    | false | true => simp [Path.Proper, dot, dotDot]

def serves (hashes : List Name) (img layers : Bool) : World twoManifests where
  parses := true
  stat p := p ∈ hashes.map (layerPath plainHost)
  checked := ⟨some (twoManifests.digest img), some img, true⟩
  resolved := ⟨some (twoManifests.digest img), some img, true⟩
  layers := layers
  config := true

theorem pulled_together_restarted :
  ∃ im im' : ImageManager twoManifests plainHost,
    (pulls twoManifests plainHost "app".toList).run (newImageManager plainManifests)
        [.pull "Always" (serves [] false false), .pull "Always" (serves [] false true), .restart]
      = some im
    ∧ pullWithOptions "app".toList "Never" (serves ["1a".toList] true false) im
      = (.ok ([layerPath plainHost "1a".toList], true), im')
    ∧ ∃ img ∈ resolvedManifests
        [.pull "Always" (serves [] false false), .pull "Always" (serves [] false true), .restart,
          .pull "Never" (serves ["1a".toList] true false)],
      [layerPath plainHost "1a".toList] = (twoManifests.layers img).map (layerPath plainHost)
        ∧ (imageEntrypoint "app".toList true im').1 = twoManifests.config img
  := by
  have hla : ((pulls twoManifests plainHost "app".toList).run (newImageManager plainManifests)
      [.pull "Always" (serves [] false false), .pull "Always" (serves [] false true), .restart]).map
      (fun im => (pullWithOptions "app".toList "Never" (serves ["1a".toList] true false) im).1)
      = some (.ok ([layerPath plainHost "1a".toList], true)) := by decide +kernel
  obtain ⟨im, hru, hpu⟩ := Option.map_eq_some_iff.mp hla
  refine ⟨im, _, hru, Prod.ext hpu rfl, pulled_together (fun _ => rfl) rfl ?_ hru
    (Prod.ext hpu rfl)⟩
  constructor
  · intro res hre
    exact .inl rfl
  · intro t _
    refine System.meets_of_forall _ ?_ t
    simp [Obtained, serves]

/-- The image is pulled; the tag changes, and a layer of the new manifest cannot be downloaded. -/
theorem entrypoint_of_other_manifest :
  ((pulls twoManifests plainHost "app".toList).run (newImageManager plainManifests)
      [.pull "Always" (serves [] false true),
        .pull "Always" (serves ["1a".toList] true false)]).map
    (fun im =>
      let pulled := pullWithOptions "app".toList "IfNotPresent" (serves ["1a".toList] true false) im
      (pulled.1, (imageEntrypoint "app".toList true pulled.2).1))
    = some (.ok ([layerPath plainHost "1a".toList], true), { entrypoint := ["/new".toList] })
    ∧ ∀ img : Bool, (twoManifests.layers img).map (layerPath plainHost)
        = [layerPath plainHost "1a".toList]
      → twoManifests.config img ≠ { entrypoint := ["/new".toList] }
  := by
  constructor
  · decide +kernel
  · intro img
    cases img with
    | false | true => decide +kernel

/-- The record on disk has the layers of one of the manifests. -/
def Lists (imageName : List Char) (imgs : List r.Manifest) (m : Manifests host) : Prop :=
  ∃ img ∈ imgs,
    m.files (layerCacheFile imageName) = some (host.json.marshalStrings (r.layers img))

theorem Lists.pulled (ha : host.accepts (layerCacheFile imageName))
    (h : Lists imageName imgs im.disk) (hm : ∀ res, resolveManifest w = some res → res.img ∈ imgs)
    (hp : Pulled imageName w im result im') :
  Lists imageName imgs im'.disk
  := by
  cases hp with
  | fetched hre hl => exact ⟨_, hm _ hre, files_persist_layers hl ha⟩
  | _ => exact h

theorem disk_imageEntrypoint :
  (imageEntrypoint imageName config im).2.disk = im.disk
  := by
  unfold imageEntrypoint
  split
  · rfl
  split
  · rfl
  split
  all_goals rfl

theorem Lists.run (ha : host.accepts (layerCacheFile imageName)) (h : Lists imageName imgs im.disk)
    (hm : resolvedManifests actions ⊆ imgs)
    (hru : (pulls r host imageName).run im actions = some im') :
  Lists imageName imgs im'.disk
  := by
  refine System.run_induction _ (C := fun _ a => a ∈ actions)
    (P := fun u : ImageManager r host => Lists imageName imgs u.disk) h ?_
    (System.meets_of_forall _ (fun _ ha _ => ha) im) hru
  intro u a v hu hmm hs
  cases a with
  | pull pullPolicy w =>
    cases hs
    apply hu.pulled ha _ (pullWithOptions_pulled imageName pullPolicy w u)
    intro res hre
    apply hm
    exact mem_filterMap.2 ⟨_, hmm, by simp [hre]⟩
  | entrypoint config =>
    cases hs
    rwa [disk_imageEntrypoint]
  | restart =>
    cases hs
    exact hu

theorem Lists.diskLayers (h : Lists imageName imgs im.disk)
    (hs : ∀ img ∈ imgs, ∀ hash ∈ r.layers img, w.stat (layerPath host hash)) :
  ∃ img ∈ imgs, diskLayers imageName w im = .ok ((r.layers img).map (layerPath host))
  := by
  obtain ⟨img, hi, hf⟩ := h
  have hf : (im.disk.seen w.stat).files (layerCacheFile imageName) = _ := hf
  use img, hi
  rw [Image.diskLayers, loadLayerCache, hf]
  simp only [host.json.strings_eq]
  change verified { host with stat := w.stat } ((r.layers img).map (layerPath host)) = _
  rw [verified, find?_eq_none.2 (by simpa using hs img hi)]

/-- Once an image was fetched under an accepted name, and with no other name pulled since, a pull
that need not check again asks no registry: while their layers are on the disk, it gives those of a
manifest resolved since, and changes nothing. -/
theorem pull_offline (ha : host.accepts (layerCacheFile imageName)) {pullPolicy policy : String}
    (hfetch : pullWithOptions imageName pullPolicy w im = (.ok (paths, false), im'))
    {later : List (PullAction r)} {im'' : ImageManager r host}
    (hrun : (pulls r host imageName).run im' later = some im'')
    (hpolicy : PullPolicy.ofString policy ≠ .always) {w' : World r}
    (hstat : ∀ img ∈ resolvedManifests (.pull pullPolicy w :: later), ∀ hash ∈ r.layers img,
      w'.stat (layerPath host hash)) :
  ∃ img ∈ resolvedManifests (.pull pullPolicy w :: later),
    pullWithOptions imageName policy w' im''
      = (.ok ((r.layers img).map (layerPath host), true), im'')
  := by
  have hp := pullWithOptions_pulled imageName pullPolicy w im
  rw [hfetch] at hp
  have hl : Lists imageName (resolvedManifests (.pull pullPolicy w :: later)) im'.disk := by
    cases hp with
    | fetched hre hl =>
      exact ⟨_, by simp [resolvedManifests, hre], files_persist_layers hl ha⟩
  have hsu : resolvedManifests later ⊆ resolvedManifests (.pull pullPolicy w :: later) :=
    ((sublist_cons_self _ later).filterMap _).subset
  obtain ⟨img, hi, hd⟩ := (hl.run ha hsu hrun).diskLayers hstat
  use img, hi
  have hc : pullCached imageName (.ofString policy) w' im''
      = some (.ok ((r.layers img).map (layerPath host), true)) := by
    cases hpo : PullPolicy.ofString policy with
    | always => exact absurd hpo hpolicy
    | _ =>
      cases hm : im''.manifestCache with
      | _ => simp [pullCached, hd, hm]
  simp [pullWithOptions, hc]

theorem pull_offline_restarted :
  let w := serves [] true true
  let unreachable : World twoManifests :=
    ⟨false, fun _ => true, ⟨none, none, false⟩, ⟨none, none, false⟩, false, false⟩
  ∃ im im' : ImageManager twoManifests plainHost,
    pullWithOptions "app".toList "Always" w (newImageManager plainManifests)
      = (.ok ([layerPath plainHost "1b".toList], false), im)
    ∧ (pulls twoManifests plainHost "app".toList).run im [.restart] = some im'
    ∧ ∃ img ∈ resolvedManifests [.pull "Always" w, .restart],
      pullWithOptions "app".toList "Never" unreachable im'
        = (.ok ((twoManifests.layers img).map (layerPath plainHost), true), im')
  := ⟨_, _, rfl, rfl, @pull_offline _ _ _ _ (newImageManager plainManifests) _ _ rfl _ _ rfl _ _ rfl
    (by decide) _ fun _ _ _ _ => rfl⟩

end Periapsis.Image
