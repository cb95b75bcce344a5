import ScriptWire.Command.Run

/-!
# The command line

Commands run on the files of the computer.
-/

namespace ScriptWire

/-- Why the computer does not read or write a file. -/
def FileError.ofSystem : IO.Error → FileError
  | .noFileOrDirectory _ _ _ => .notFound
  | .inappropriateType _ _ reason =>
    if reason.startsWith "Not" then .notDirectory else .isDirectory
  | e => .other (toString e)

/-- Access to the files of the computer. -/
def systemFiles : Files IO where
  read := fun path => do
    try
      return .ok (← IO.FS.readBinFile path).data.toList
    catch e => return .error (.ofSystem e)
  write := fun path bytes => do
    try
      IO.FS.writeBinFile path ⟨bytes.toArray⟩
      return .ok ()
    catch e => return .error (.ofSystem e)

/-- The user's directory for configurations. -/
def configurationDirectory : IO (Option String) := do
  match ← IO.getEnv "XDG_CONFIG_HOME" with
  | some directory => return some directory
  | none => return (← IO.getEnv "HOME").map (· ++ "/.config")

/-- What the command line can do. -/
def usage : String :=
  String.join [
    "Compile JavaScript into an encoded syntax tree\n\n",
    "Usage: [-v...] compile INPUT OUTPUT ",
    "[--format auto|javascript|estree] [--max-depth N] [--dump]\n",
    "       [-v...] inspect FILE\n"]

end ScriptWire

open ScriptWire in
/-- Runs the arguments, prints what the run prints, and reports its failure. -/
def main (arguments : List String) : IO UInt32 := do
  let outcome ← runArguments systemFiles (← configurationDirectory) arguments
  match outcome with
  | .help => IO.print usage
  | .refused => IO.eprint usage
  | .done printed => IO.print printed
  | .failed printed failure =>
    IO.print printed
    IO.eprintln failure.report
  return outcome.status.toUInt32
