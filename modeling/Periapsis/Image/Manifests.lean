import Mathlib.Data.List.DropRight
import Periapsis.Files.Path

/-!
# The records of images

Under the name of an image the layer cache keeps four records on disk: its layers, its
configuration, and the digests of its manifest and its index.
-/

namespace Periapsis.Image

open Files

/-- What is kept of the configuration of an image. -/
structure ImageConfig where
  entrypoint : List (List Char) := []
  cmd : List (List Char) := []
  deriving DecidableEq

/-- The texts of lists of strings and of configurations, which are read as what they were; only an
empty list, written as `null`, may be read as either. -/
structure Json where
  marshalStrings : List (List Char) → List Char
  unmarshalStrings : List Char → Option (List (List Char))
  marshalConfig : ImageConfig → List Char
  unmarshalConfig : List Char → Option ImageConfig
  strings_eq : ∀ l, unmarshalStrings (marshalStrings l) = some l
  config_eq : ∀ c, unmarshalConfig (marshalConfig c) = some c
  strings_of_config : ∀ c, unmarshalStrings (marshalConfig c) = none
  config_of_strings : ∀ l, l ≠ [] → unmarshalConfig (marshalStrings l) = none

def marked (s : List Char) : List Char :=
  s.flatMap (fun c => ['1', c]) ++ ['0']

def unmarked : List Char → Option (List (List Char))
  | [] => some []
  | '0' :: rest => (unmarked rest).map ([] :: ·)
  | '1' :: c :: rest =>
    match unmarked rest with
    | some (s :: l) => some ((c :: s) :: l)
    | _ => none
  | _ => none

theorem unmarked_flatMap (l : List (List Char)) :
  unmarked (l.flatMap marked) = some l
  := by
  induction l with
  | nil => rfl
  | cons s l ih =>
    rw [List.flatMap_cons]
    induction s with
    | nil => simp [marked, unmarked, ih]
    | cons c s ih' =>
      change unmarked ('1' :: c :: (marked s ++ l.flatMap marked)) = _
      rw [unmarked, ih']

def plainJson : Json where
  marshalStrings l := l.flatMap marked
  unmarshalStrings := unmarked
  marshalConfig c :=
    'c' :: (c.entrypoint.map (fun _ => 'x') :: (c.entrypoint ++ c.cmd)).flatMap marked
  unmarshalConfig
    | 'c' :: rest =>
      match unmarked rest with
      | some (n :: l) => some ⟨l.take n.length, l.drop n.length⟩
      | _ => none
    | _ => none
  strings_eq := unmarked_flatMap
  config_eq c := by
    simp only [unmarked_flatMap]
    simp
  strings_of_config c := by simp [unmarked]
  config_of_strings l h := by
    cases l with
    | nil => exact absurd rfl h
    | cons s l =>
      cases s with
      | nil => rfl
      | cons c s => rfl

/-- What the records depend on: JSON, the file names that the file system takes, the absolute path
of the layer cache, and which paths there are. -/
structure Host where
  json : Json
  accepts : List Char → Bool
  layerCache : Path
  stat : Path → Bool

def plainHost : Host where
  json := plainJson
  accepts _ := true
  layerCache := parse "/var/lib/apsis/perigeos/layers".toList
  stat _ := true

structure Manifests (host : Host) where
  made : Bool
  files : List Char → Option (List Char)
  accepted : ∀ name, (files name).isSome = true → made = true ∧ host.accepts name = true

def Manifests.missing {host : Host} : Manifests host where
  made := false
  files _ := none
  accepted := by simp

section Directory

variable {host : Host}

def Manifests.mkdirAll (m : Manifests host) : Manifests host where
  made := true
  files := m.files
  accepted name hname := ⟨rfl, (m.accepted name hname).2⟩

def Manifests.writeFile (name data : List Char) (m : Manifests host) : Manifests host :=
  if h : m.made = true ∧ host.accepts name = true then
    { made := m.made
      files := Function.update m.files name (some data)
      accepted := by
        intro name' hname'
        by_cases heq : name' = name
        · rw [heq]
          apply h
        · rw [Function.update_of_ne heq] at hname'
          apply m.accepted name' hname' }
  else m

end Directory

def safe (imageName : List Char) : List Char :=
  imageName.map fun c => if c = '/' then '_' else c

def recordFile (suffix imageName : List Char) : List Char :=
  safe imageName ++ suffix

def layerCacheFile : List Char → List Char :=
  recordFile ".json".toList

def imageConfigFile : List Char → List Char :=
  recordFile ".config.json".toList

def manifestDigestFile : List Char → List Char :=
  recordFile ".digest".toList

def indexDigestFile : List Char → List Char :=
  recordFile ".index".toList

def layerPath (host : Host) (hash : Name) : Path :=
  host.layerCache.join ⟨false, [hash]⟩

def base (p : Path) : List Char :=
  p.names.getLastD (if p.rooted then ['/'] else dot)

section Saving

variable {host : Host}

def saveLayerCache (imageName : List Char) (layerPaths : List Path) (m : Manifests host) :
    Manifests host :=
  m.mkdirAll.writeFile (layerCacheFile imageName)
    (host.json.marshalStrings (layerPaths.map base))

def saveImageConfig (imageName : List Char) (cfg : ImageConfig) (m : Manifests host) :
    Manifests host :=
  m.mkdirAll.writeFile (imageConfigFile imageName) (host.json.marshalConfig cfg)

def saveManifestDigest (imageName digest : List Char) (m : Manifests host) : Manifests host :=
  m.mkdirAll.writeFile (manifestDigestFile imageName) digest

def saveIndexDigest (imageName digest : List Char) (m : Manifests host) : Manifests host :=
  m.writeFile (indexDigestFile imageName) digest

end Saving

/-- Why a record is not loaded. -/
inductive LoadError where
  | readFile
  | unmarshal
  | layerMissing (path : Path)
  deriving DecidableEq

def isSpace (c : Char) : Bool :=
  c.toNat ∈ [0x09, 0x0a, 0x0b, 0x0c, 0x0d, 0x20, 0x85, 0xa0, 0x1680, 0x2028, 0x2029, 0x202f,
    0x205f, 0x3000] || (0x2000 ≤ c.toNat && c.toNat ≤ 0x200a)

def trimSpace (s : List Char) : List Char :=
  (s.dropWhile isSpace).rdropWhile isSpace

section Loading

variable {host : Host}

def verified (host : Host) (paths : List Path) : Except LoadError (List Path) :=
  match paths.find? fun p => !host.stat p with
  | some p => .error (.layerMissing p)
  | none => .ok paths

variable (imageName : List Char)

def loadLayerCache (m : Manifests host) : Except LoadError (List Path) :=
  match m.files (layerCacheFile imageName) with
  | none => .error .readFile
  | some data =>
    match host.json.unmarshalStrings data with
    | none => .error .unmarshal
    | some hashes => verified host (hashes.map (layerPath host))

def loadImageConfig (m : Manifests host) : Except LoadError ImageConfig :=
  match m.files (imageConfigFile imageName) with
  | none => .error .readFile
  | some data =>
    match host.json.unmarshalConfig data with
    | none => .error .unmarshal
    | some cfg => .ok cfg

def loadIndexDigest (m : Manifests host) : List Char :=
  match m.files (indexDigestFile imageName) with
  | none => []
  | some data => trimSpace data

end Loading

end Periapsis.Image
