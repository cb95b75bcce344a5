import ScriptWire.Files.Basic
import ScriptWire.Files.Path

/-!
# Disks

A disk is a list of places with what is there, a file or a directory. A place is given by the names
that lead to it from the root. The directories of a disk are the root, those that are listed, and
those on the way to a place that is listed. A path starts from a working directory, or from the root
if a slash is its first character.

## Main definitions

- `Disk` — places with what is there
- `Disk.read`, `Disk.write` — whole files by their paths
- `Disk.files` — access to the files of a disk
-/

namespace ScriptWire

/-- What is at a place of a disk. -/
inductive Disk.Entry
  | file (bytes : Wire.Bytes)
  | directory
deriving DecidableEq

/-- Places with what is there, under the names that lead to them from the root. -/
structure Disk where
  contents : List (List String × Disk.Entry)
deriving DecidableEq

namespace Disk

/-- The contents of the file at a place. -/
def file? (disk : Disk) (place : List String) : Option Wire.Bytes :=
  match disk.contents.lookup place with
  | some (.file bytes) => some bytes
  | _ => none

/-- A place is a directory if it is the root, or is listed as one, or lies on the way to a place
that is listed. -/
def isDirectory (disk : Disk) (place : List String) : Bool :=
  place.isEmpty ||
    disk.contents.any fun listed =>
      place.isPrefixOf listed.1 && (place.length < listed.1.length || listed.2 = .directory)

/-- The place that names lead to from a place. Each name needs a directory to start from. -/
def locate (disk : Disk) : List String → List String → Except FileError (List String)
  | [], place => .ok place
  | name :: names, place =>
    if disk.isDirectory place then disk.locate names (Path.step place name)
    else if (disk.file? place).isSome then .error .notDirectory
    else .error .notFound

/-- The contents of the file that a path leads to from the working directory. -/
def read (disk : Disk) (path : String) (working : List String := []) :
    Except FileError Wire.Bytes := do
  if path.isEmpty then throw .notFound
  let place ← disk.locate (Path.parts path) (Path.start working path)
  if disk.isDirectory place then throw .isDirectory
  match disk.file? place with
  | some bytes => return bytes
  | none => throw .notFound

/-- The disk with new contents for the file at a place. -/
def put (disk : Disk) (place : List String) (bytes : Wire.Bytes) : Disk :=
  ⟨(place, .file bytes) :: disk.contents.filter fun listed => listed.1 ≠ place⟩

/-- The names of a path without the empty ones at its end. -/
def targetParts (path : String) : List String :=
  ((Path.parts path).reverse.dropWhile (·.isEmpty)).reverse

/-- The place of the file that is written under a path: it may be new, but its directory must be
there, and a path with a slash at its end names no file. -/
def target (disk : Disk) (path : String) (working : List String := []) :
    Except FileError (List String) := do
  if path.isEmpty then throw .notFound
  let place ← disk.locate (targetParts path) (Path.start working path)
  if disk.isDirectory place || (Path.parts path).getLast?.any (·.isEmpty) then throw .isDirectory
  return place

/-- The disk after a file is written as a whole. -/
def write (disk : Disk) (path : String) (bytes : Wire.Bytes) (working : List String := []) :
    Except FileError Disk := do
  return disk.put (← disk.target path working) bytes

/-- Access to the files of a disk that is carried along, from a working directory. -/
def files (working : List String := []) : Files (StateM Disk) where
  read := fun path disk => (disk.read path working, disk)
  write := fun path bytes disk =>
    match disk.write path bytes working with
    | .ok after => (.ok (), after)
    | .error e => (.error e, disk)

end Disk

end ScriptWire
