import Periapsis.Files.FileSystem
import Periapsis.Transition.System

/-!
# The extraction of a layer

`extractLayer` unpacks the tar stream of a layer into a directory, one entry after the other.
-/

namespace Periapsis.Image

open Files Transition

inductive Typeflag where
  | dir
  | reg
  | symlink
  | link
  | other
  deriving DecidableEq

structure Header where
  name : List Char
  typeflag : Typeflag
  linkname : List Char := []
  body : List UInt8 := []
  complete : Bool := true
  deriving DecidableEq

inductive ExtractError where
  | securityViolation (message : List Char)
  | call (e : Errno)
  | read
  deriving DecidableEq

def target (dst name : List Char) : Except ExtractError (Option Path) :=
  let clean := (parse name).clean
  if clean.rooted then
    .error (.securityViolation ("security violation: absolute path ".toList ++ name))
  else
    let target := (parse dst).join clean
    let dstClean := (parse dst).clean
    if target.text ≠ dstClean.text ∧ ¬ (dstClean.text ++ ['/']) <+: target.text then
      .error (.securityViolation ("security violation: invalid path ".toList ++ name))
    else if target.text = dstClean.text then .ok none
    else .ok (some target)

def orFail : Trace × Option Errno → Trace × Option ExtractError
  | (t, err) => (t, err.map .call)

def extractTo (dst : List Char) (header : Header) (target : Path) (t : Trace) :
    Trace × Option ExtractError :=
  match header.typeflag with
  | .dir => orFail (t.mkdirAll target)
  | .reg =>
    match t.mkdirAll target.parent with
    | (t, some e) => (t, some (.call e))
    | (t, none) =>
      match t.call (FileSystem.write target header.body) with
      | (t, some e) => (t, some (.call e))
      | (t, none) => (t, if header.complete then none else some .read)
  | .symlink =>
    let (t, _) := t.mkdirAll target.parent
    let (t, _) := t.call (FileSystem.remove target)
    orFail (t.call (FileSystem.symlink header.linkname target))
  | .link =>
    let linkTarget := (parse dst).join (parse header.linkname)
    let (t, _) := t.mkdirAll target.parent
    let (t, _) := t.call (FileSystem.remove target)
    orFail (t.call (FileSystem.link linkTarget target))
  | .other => (t, none)

def extractEntry (dst : List Char) (header : Header) (t : Trace) : Trace × Option ExtractError :=
  match target dst header.name with
  | .error e => (t, some e)
  | .ok none => (t, none)
  | .ok (some target) => extractTo dst header target t

def extractLayer (dst : List Char) (complete : Bool) :
    List Header → Trace → Trace × Option ExtractError
  | [], t => (t, if complete then none else some .read)
  | header :: headers, t =>
    match extractEntry dst header t with
    | (t, some e) => (t, some e)
    | (t, none) => extractLayer dst complete headers t

def extraction (dst : List Char) : System Trace Header where
  step t header :=
    match extractEntry dst header t with
    | (_, some _) => none
    | (t, none) => some t

end Periapsis.Image
