import ScriptWire.Wire.Varint

/-!
# Access to files

What a command needs of the files around it. Commands are written for any such access, so that the
same command runs on the files of a computer and on a disk that is a plain value.

## Main definitions

- `FileError` — why a file is not read or written
- `Files` — reading and writing whole files
- `Files.readText` — reading a file that holds text
-/

namespace ScriptWire

/-- Why a file is not read or written. -/
inductive FileError
  /-- There is no such file, or no directory on the way to it. -/
  | notFound
  /-- A file stands on the way where a directory is needed. -/
  | notDirectory
  /-- The path leads to a directory. -/
  | isDirectory
  /-- The bytes of the file are no text. -/
  | notText
  /-- Any other reason, in the words of the system. -/
  | other (reason : String)
deriving DecidableEq

/-- The wording of a fault. -/
def FileError.message : FileError → String
  | .notFound => "No such file or directory (os error 2)"
  | .notDirectory => "Not a directory (os error 20)"
  | .isDirectory => "Is a directory (os error 21)"
  | .notText => "stream did not contain valid UTF-8"
  | .other reason => reason

/-- Reading and writing whole files that are named by paths. -/
structure Files (m : Type → Type) where
  read : String → m (Except FileError Wire.Bytes)
  write : String → Wire.Bytes → m (Except FileError Unit)

/-- The text that bytes hold. -/
def textOfBytes (bytes : Wire.Bytes) : Except FileError String :=
  match String.fromUTF8? ⟨bytes.toArray⟩ with
  | some text => .ok text
  | none => .error .notText

/-- The text of a file. -/
def Files.readText {m : Type → Type} [Monad m] (files : Files m) (path : String) :
    m (Except FileError String) := do
  return (← files.read path) >>= textOfBytes

end ScriptWire
