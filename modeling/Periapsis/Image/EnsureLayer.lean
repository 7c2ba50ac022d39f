import Periapsis.Image.Extract
import Periapsis.Transition.Program

/-!
# The layer cache

`ensureLayer` puts the layer of a hash in the cache: the directory it is extracted to, and the
compressed blob it was extracted from.
-/

namespace Periapsis.Image

open Files Transition

/-- What a source serves, with or without an error at the end. -/
structure Stream where
  bytes : List UInt8
  complete : Bool
  deriving DecidableEq

structure Codec where
  entries : Stream → Option (List Header × Bool)
  read : Stream → List UInt8

def layerDir : List Char := "/layer".toList

def freshDir : FileSystem :=
  FileSystem.bare.add [] "layer".toList .dir FileSystem.bare.root rfl FileSystem.bare.dir_allocated

def Codec.extract (codec : Codec) (stream : Stream) (files : FileSystem) :
    FileSystem × Option ExtractError :=
  match codec.entries stream with
  | none => (files, some .read)
  | some (headers, complete) =>
    match extractLayer layerDir complete headers (.start files) with
    | (t, err) => (t.now, err)

inductive Origin where
  | fresh
  | extracted (stream : Stream)
  | spoiled
  deriving DecidableEq

structure Dir where
  files : FileSystem
  origin : Origin

structure Blob where
  bytes : List UInt8
  origin : Option Stream
  deriving DecidableEq

structure Cell where
  dir : Option Dir := none
  blob : Option Blob := none
  blobTmp : Option Blob := none
  tmps : List (Nat × Dir) := []

/-- The calls of `ensureLayer` that may fail. -/
inductive LayerOp where
  | statDir
  | mkdirTmp (nanos : Nat)
  | statBlob
  | openBlob
  /-- `gzip.NewReader` and `extractLayer(tmpPath, ..)`; what is read is also written to the
  temporary blob file, or is not. -/
  | unpack (nanos : Nat) (stream : Stream) (tee : Bool)
  | removeBlob
  | removeTmp (nanos : Nat)
  | peersWithInflight
  | waitForPeerLayer
  | fetchOnePeer
  | fetch
  | compressed
  | createBlobTmp
  | removeBlobTmp
  | renameBlob
  | renameDir (nanos : Nat)
  deriving DecidableEq

inductive Reply where
  | ok
  | failed
  | served (stream : Stream)
  deriving DecidableEq

def Reply.isOk : Reply → Bool
  | .ok => true
  | _ => false

def Reply.of (ok : Bool) : Reply :=
  if ok then .ok else .failed

@[simp]
theorem Reply.isOk_of (ok : Bool) :
  (Reply.of ok).isOk = ok
  := by
  cases ok with
  | true | false => rfl

def Stream.ofFile (stream : Stream) (bytes : List UInt8) : Bool :=
  if stream.complete then stream.bytes = bytes else stream.bytes.isPrefixOf bytes

namespace Cell

def tmp (c : Cell) (nanos : Nat) : Dir :=
  (c.tmps.lookup nanos).getD ⟨FileSystem.bare, .spoiled⟩

def without (c : Cell) (nanos : Nat) : List (Nat × Dir) :=
  c.tmps.filter fun entry => entry.1 ≠ nanos

def unpack (codec : Codec) (c : Cell) (nanos : Nat) (stream : Stream) (tee : Bool) :
    Cell × Bool :=
  let dir := c.tmp nanos
  match codec.extract stream dir.files with
  | (files, err) =>
    let clean := err.isNone && dir.origin = .fresh
    ({ c with
        tmps := (nanos, ⟨files, if clean then .extracted stream else .spoiled⟩) :: c.without nanos
        blobTmp := if tee then some ⟨codec.read stream, if clean then some stream else none⟩
          else c.blobTmp },
      err.isNone)

end Cell

def layerCalls (codec : Codec) : Calls Cell LayerOp Reply where
  exec
    | .statDir, c, r => if r = .of c.dir.isSome then some c else none
    | .statBlob, c, r => if r = .of c.blob.isSome then some c else none
    | .mkdirTmp nanos, c, .ok =>
      if (c.tmps.lookup nanos).isSome then some c
      else some { c with tmps := (nanos, ⟨freshDir, .fresh⟩) :: c.tmps }
    | .openBlob, c, .served stream =>
      match c.blob with
      | some blob => if stream.ofFile blob.bytes then some c else none
      | none => none
    | .unpack nanos stream tee, c, r =>
      match c.unpack codec nanos stream tee with
      | (c, ok) => if r = .of ok then some c else none
    | .removeBlob, c, .ok => some { c with blob := none }
    | .removeTmp nanos, c, .ok => some { c with tmps := c.without nanos }
    | .peersWithInflight, c, .ok => some c
    | .waitForPeerLayer, c, .ok => some c
    | .fetchOnePeer, c, .served _ => some c
    | .fetch, c, .served _ => some c
    | .compressed, c, .served _ => some c
    | .createBlobTmp, c, .ok => some { c with blobTmp := some ⟨[], none⟩ }
    | .removeBlobTmp, c, .ok => some { c with blobTmp := none }
    | .renameBlob, c, .ok =>
      match c.blobTmp with
      | some blob => some { c with blob := some blob, blobTmp := none }
      | none => none
    | .renameDir nanos, c, .ok =>
      match c.dir, c.tmps.lookup nanos with
      | none, some dir => some { c with dir := some dir, tmps := c.without nanos }
      | _, _ => none
    -- The removals succeed; every other call may fail, and then does nothing.
    | .removeBlob, _, _ | .removeTmp _, _, _ | .removeBlobTmp, _, _ => none
    | _, c, .failed => some c
    | _, _, _ => none

/-- The errors of `ensureLayer`. -/
inductive LayerError where
  | mkdirAll
  | commitFailed
  | upstreamFailed
  deriving DecidableEq

abbrev Layer := Program LayerOp Reply

open Program in
def succeeds (op : LayerOp) : Layer Bool := do
  return (← perform op).isOk

variable (nanos : Nat)

def saveAndExtract (stream : Stream) : Layer Bool := do
  if ← succeeds .createBlobTmp then
    if ← succeeds (.unpack nanos stream true) then
      succeeds .renameBlob
    else
      let _ ← succeeds .removeBlobTmp
      return false
  else return false

open Program in
def extractCompressedBlob (nanos : Nat) : Layer Bool := do
  match ← perform .openBlob with
  | .served stream => succeeds (.unpack nanos stream false)
  | _ => return false

def commitLayer : Layer (Except LayerError Unit) := do
  if ← succeeds .statDir then
    let _ ← succeeds (.removeTmp nanos)
    return .ok ()
  else if ← succeeds (.renameDir nanos) then return .ok ()
  else
    let _ ← succeeds (.removeTmp nanos)
    return .error .commitFailed

def cleanUp : Layer Bool := do
  let _ ← succeeds .removeBlob
  let _ ← succeeds (.removeTmp nanos)
  succeeds (.mkdirTmp nanos)

def maxAttempts : Nat := 3

open Program in
def pullUpstream (nanos : Nat) (first : Bool) : Nat → Layer (Except LayerError Unit)
  | 0 => do
    let _ ← succeeds (.removeTmp nanos)
    return .error .upstreamFailed
  | attempts + 1 => do
    if ← (if first then return true else cleanUp nanos) then
      match ← perform .compressed with
      | .served stream =>
        if ← saveAndExtract nanos stream then commitLayer nanos
        else pullUpstream nanos false attempts
      | _ => pullUpstream nanos false attempts
    else return .error .mkdirAll

open Program in
def pullFromPeers (nanos : Nat) : Nat → Layer (Except LayerError Unit)
  | 0 => pullUpstream nanos true maxAttempts
  | peers + 1 => do
    match ← perform .fetch with
    | .served stream =>
      if ← saveAndExtract nanos stream then commitLayer nanos
      else if ← cleanUp nanos then pullFromPeers nanos peers
      else return .error .mkdirAll
    | _ => pullUpstream nanos true maxAttempts

open Program in
def pullInflight (nanos peers : Nat) : Layer (Except LayerError Unit) := do
  if ← succeeds .peersWithInflight then
    if ← succeeds .waitForPeerLayer then
      match ← perform .fetchOnePeer with
      | .served stream =>
        if ← saveAndExtract nanos stream then commitLayer nanos
        else if ← cleanUp nanos then pullFromPeers nanos peers
        else return .error .mkdirAll
      | _ =>
        if ← cleanUp nanos then pullFromPeers nanos peers
        else return .error .mkdirAll
    else pullFromPeers nanos peers
  else pullFromPeers nanos peers

def pullLayer : Option Nat → Layer (Except LayerError Unit)
  | some peers => pullInflight nanos peers
  | none => pullUpstream nanos true maxAttempts

def ensureLayer (selector : Option Nat) : Layer (Except LayerError Unit) := do
  if ← succeeds .statDir then return .ok ()
  else if ← succeeds (.mkdirTmp nanos) then
    if ← succeeds .statBlob then
      if ← extractCompressedBlob nanos then commitLayer nanos
      else if ← cleanUp nanos then pullLayer nanos selector
      else return .error .mkdirAll
    else pullLayer nanos selector
  else return .error .mkdirAll

end Periapsis.Image
