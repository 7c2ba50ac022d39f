import Periapsis.Image.Entrypoint

/-!
# Images that are up to date

A pull does not download anything if the digest that the registry has for the image is the one on
disk.
-/

namespace Periapsis.Image

open Files Transition Option

variable {r : Registry} {host : Host} {imageName : List Char} {w : World r}
  {im im' : ImageManager r host} {m : Manifests host} {paths : List Path}
  {imageOf : List Char → Option r.Manifest}

def keptDigest (imageName : List Char) (res : ManifestResult r) (m : Manifests host) : List Char :=
  if res.indexDigest ≠ [] then trimSpace res.indexDigest else loadIndexDigest imageName m

def Paired (imageOf : List Char → Option r.Manifest) (imageName : List Char)
    (im : ImageManager r host) : PullAction r → Prop
  | .pull _ w => ∀ res, resolveManifest w = some res → w.layers = true →
      ∀ img, imageOf (keptDigest imageName res im.disk) = some img → img = res.img
  | _ => True

def Current (imageOf : List Char → Option r.Manifest) (imageName : List Char)
    (m : Manifests host) : Prop :=
  loadIndexDigest imageName m ≠ [] →
    ∀ img, imageOf (loadIndexDigest imageName m) = some img →
      m.files (layerCacheFile imageName) = none
        ∨ m.files (layerCacheFile imageName) = some (host.json.marshalStrings (r.layers img))

variable {res : ManifestResult r}

theorem lastSaved_indexDigest :
  lastSaved .indexDigest imageName (pullSaves imageName res paths w)
    = if res.indexDigest ≠ [] then some (.indexDigest res.indexDigest) else none
  := by
  unfold pullSaves
  split_ifs
  all_goals simp [lastSaved, Save.kind]

theorem loadIndexDigest_persist
    (h : loadIndexDigest imageName (persist imageName res paths w m) ≠ []) :
  loadIndexDigest imageName (persist imageName res paths w m) = keptDigest imageName res m
  := by
  by_cases hac : host.accepts (indexDigestFile imageName)
  · have hf : (persist imageName res paths w m).files (indexDigestFile imageName) = _ :=
      files_persist .indexDigest hac
    rw [lastSaved_indexDigest] at hf
    unfold keptDigest
    split
    next hd =>
      rw [if_pos hd] at hf
      rw [loadIndexDigest, hf]
      rfl
    next hd =>
      rw [if_neg hd] at hf
      exact loadIndexDigest_congr hf
  · have hf : (persist imageName res paths w m).files (indexDigestFile imageName) = none :=
      files_eq_none_of_refused (.inr (Bool.eq_false_iff.2 hac))
    rw [loadIndexDigest, hf] at h
    exact absurd rfl h

theorem current_persist (hl : layersFromImage host res.img w = .ok paths)
    (hp : ∀ img, imageOf (keptDigest imageName res m) = some img → img = res.img) :
  Current imageOf imageName (persist imageName res paths w m)
  := by
  intro hne img him
  rw [loadIndexDigest_persist hne] at him
  obtain rfl := hp img him
  by_cases hac : host.accepts (layerCacheFile imageName)
  · exact .inr (files_persist_layers hl hac)
  · exact .inl (files_eq_none_of_refused (.inr (Bool.eq_false_iff.2 hac)))

theorem Pulled.current {result : PullResult} (hpu : Pulled imageName w im result im')
    (h : Current imageOf imageName im.disk)
    (hp : Paired imageOf imageName im (.pull pullPolicy w)) :
  Current imageOf imageName im'.disk
  := by
  cases hpu with
  | failed | disk | memory | incomplete => exact h
  | @fetched res hre paths hl =>
    have ho : w.layers := by
      rw [← layers_of_layersFromImage, hl]
      rfl
    exact current_persist hl (hp res hre ho)

theorem current_step (h : Current imageOf imageName im.disk) (hp : Paired imageOf imageName im a)
    (hst : (pulls r host imageName).step im a = some im') :
  Current imageOf imageName im'.disk
  := by
  cases a with
  | pull pullPolicy w =>
    cases hst
    exact (pullWithOptions_pulled imageName pullPolicy w im).current h hp
  | entrypoint config =>
    cases hst
    rw [disk_imageEntrypoint]
    exact h
  | restart =>
    cases hst
    exact h

/-- If the download is skipped because the registry has the digest that is on disk, then the
layers that are returned are those of the image with that digest. -/
theorem upToDate_current {disk : Manifests host} (hdisk : loadIndexDigest imageName disk = [])
    {actions : List (PullAction r)}
    (hmeets : (pulls r host imageName).Meets (Paired imageOf imageName) (newImageManager disk)
      actions)
    (hrun : (pulls r host imageName).run (newImageManager disk) actions = some im)
    {pullPolicy : String} (hpolicy : pullCached imageName (.ofString pullPolicy) w im = none)
    (hskip : upToDate imageName w im = some paths) :
  pullWithOptions imageName pullPolicy w im = (.ok (paths, true), im)
    ∧ ∃ digest, resolveManifestDigest w = some digest
      ∧ ∀ img, imageOf digest = some img → paths = (r.layers img).map (layerPath host)
  := by
  have hc : Current imageOf imageName im.disk :=
    System.run_induction _ (P := fun im => Current imageOf imageName im.disk)
      (fun hne => absurd hdisk hne) (fun u a v hu ha hv => current_step hu ha hv) hmeets hrun
  obtain ⟨hl, hne, hd⟩ := upToDate_eq_some hskip
  constructor
  · rw [pullWithOptions, hpolicy, hskip]
  · use loadIndexDigest imageName im.disk, hd
    intro img him
    have hf := (hc hne img him).resolve_left (files_ne_none_of_diskLayers hl)
    exact eq_of_diskLayers hf hl

def twoDigests (digest : List Char) : Option twoManifests.Manifest :=
  if digest = twoManifests.digest false then some false
  else if digest = twoManifests.digest true then some true
  else none

theorem paired_serves {im : ImageManager twoManifests plainHost} {pullPolicy : String}
    {has : List Name} {img : twoManifests.Manifest} :
  Paired twoDigests imageName im (.pull pullPolicy (serves has img layers))
  := by
  let res : ManifestResult twoManifests := ⟨img, twoManifests.digest img⟩
  have ht : trimSpace (twoManifests.digest img) = twoManifests.digest img := by
    cases img with
    | false | true => decide +kernel
  have hk : keptDigest imageName res im.disk = twoManifests.digest img := by
    cases img with
    | false | true => exact ht
  have hd : twoDigests (twoManifests.digest img) = some img := by
    cases img with
    | false | true => rfl
  intro res' hr _ img' hi
  obtain rfl : res = res' := some.inj hr
  rw [hk, hd] at hi
  exact (some.inj hi).symm

theorem upToDate_current_moved :
  ∃ im : ImageManager twoManifests plainHost,
    (pulls twoManifests plainHost "app".toList).run (newImageManager plainManifests)
        [.pull "Always" (serves [] false true), .pull "Always" (serves ["1a".toList] true true)]
      = some im
    ∧ pullWithOptions "app".toList "Always" (serves ["1a".toList, "1b".toList] true true) im
      = (.ok ([layerPath plainHost "1b".toList], true), im)
    ∧ ∃ digest, resolveManifestDigest (serves ["1a".toList, "1b".toList] true true) = some digest
      ∧ ∀ img, twoDigests digest = some img
        → [layerPath plainHost "1b".toList]
          = (twoManifests.layers img).map (layerPath plainHost)
  := by
  have hla : ((pulls twoManifests plainHost "app".toList).run (newImageManager plainManifests)
      [.pull "Always" (serves [] false true), .pull "Always" (serves ["1a".toList] true true)]).bind
      (fun im => upToDate "app".toList (serves ["1a".toList, "1b".toList] true true) im)
      = some [layerPath plainHost "1b".toList] := by decide +kernel
  obtain ⟨im, hru, hs⟩ := bind_eq_some_iff.mp hla
  refine ⟨im, hru, upToDate_current (by decide +kernel) ?_ hru rfl hs⟩
  apply System.meets_of_forall
  intro a ha s
  simp only [List.mem_cons, List.not_mem_nil, or_false] at ha
  obtain rfl | rfl := ha
  all_goals apply paired_serves

/-- The tag moves back and forth while the image is pulled: the digest is that of the one manifest,
and the layers are those of the other. -/
theorem layers_of_other_digest :
  ((pulls twoManifests plainHost "app".toList).run (newImageManager plainManifests)
      [.pull "Always"
        { serves [] true true with
          resolved := ⟨some (twoManifests.digest false), some true, true⟩ }]).map
    (fun im => (pullWithOptions "app".toList "Always" (serves ["1b".toList] false true) im).1)
    = some (.ok ([layerPath plainHost "1b".toList], true))
    ∧ resolveManifestDigest (serves ["1b".toList] false true) = some (twoManifests.digest false)
    ∧ twoManifests.layers false = ["1a".toList]
  := by decide +kernel

end Periapsis.Image
