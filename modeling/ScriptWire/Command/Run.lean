import ScriptWire.Command.Arguments
import ScriptWire.Files.Basic
import ScriptWire.Files.Path
import ScriptWire.Language.Registry
import ScriptWire.Lowering.Basic
import ScriptWire.Message.Dump
import ScriptWire.Wire.Decoder
import ScriptWire.Wire.Encoder

/-!
# Running commands

A command reads its files, and writes its output as a whole and last, once everything before has
succeeded.

## Main definitions

- `Failure` — why a command fails, with its wording and its exit status
- `Outcome` — how a run ends
- `Command.run` — a command with its settings
- `runArguments` — a run from the arguments on
-/

namespace ScriptWire

/-- Why a command fails. -/
inductive Failure
  /-- The format of the input is not given, and its extension does not tell it. -/
  | unknownFormat (path : String)
  | unreadable (path : String) (cause : FileError)
  | unwritable (path : String) (cause : FileError)
  /-- The input has no tree. -/
  | noTree (path : String) (cause : ReadError)
  /-- The tree has no message. -/
  | noMessage (path : String) (cause : CompileError)
  /-- The bytes are no message. -/
  | undecodable (path : String) (cause : Wire.DecodeError)

namespace Failure

/-- The wording of a failure and of what caused it. -/
def chain : Failure → List String
  | .unknownFormat path => ["cannot tell the input format of " ++ path ++ "; pass --format"]
  | .unreadable path cause => ["failed to read " ++ path, cause.message]
  | .unwritable path cause => ["failed to write " ++ path, cause.message]
  | .noTree path cause => ("failed to parse " ++ path) :: cause.chain
  | .noMessage path cause => ["failed to compile " ++ path, cause.message]
  | .undecodable path cause => ["failed to decode " ++ path, cause.message]

/-- The line that reports a failure. -/
def report (failure : Failure) : String :=
  "error: " ++ ": ".intercalate failure.chain

/-- The exit status that tells which step failed. -/
def status : Failure → Nat
  | .unreadable _ _ => 1
  | .unwritable _ _ => 1
  | .unknownFormat _ => 2
  | .noTree _ _ => 3
  | .undecodable _ _ => 3
  | .noMessage _ cause => if cause.isInputFault then 4 else 5

end Failure

/-- How a run ends. -/
inductive Outcome
  /-- Help was asked for. -/
  | help
  /-- The arguments make no sense. -/
  | refused
  /-- The command succeeded. -/
  | done (printed : String)
  /-- The command failed, maybe after it had printed something. -/
  | failed (printed : String) (failure : Failure)

/-- The exit status of a run. -/
def Outcome.status : Outcome → Nat
  | .help => 0
  | .refused => 2
  | .done _ => 0
  | .failed _ failure => failure.status

/-- The reader for a format, which the extension of the input decides where nothing else does. -/
def Format.reader? (format : Format) (path : String) : Option Reader :=
  match format with
  | .auto => Path.extension? path >>= Registry.builtin.forExtension?
  | .javascript => Registry.builtin.forLanguage? "javascript"
  | .estree => Registry.builtin.forLanguage? "estree"

/-- The number of levels that a compilation accepts. -/
def CompileOptions.limit (options : CompileOptions) (settings : Settings) : Nat :=
  (options.maxDepth <|> settings.maxDepth).getD defaultDepth

/-- The format that a compilation reads. -/
def CompileOptions.inputFormat (options : CompileOptions) (settings : Settings) : Format :=
  (options.format <|> settings.format).getD .auto

/-- The compilation prints its message. -/
def CompileOptions.prints (options : CompileOptions) (settings : Settings) : Bool :=
  options.dump || settings.dump.getD false

/-- The text that shows a message. -/
def Message.shown (ast : Message .ast) : String :=
  ast.dump ++ "\n"

/-- The message of a source text. -/
def Reader.messageOf (reader : Reader) (limit : Nat) (path source : String) :
    Except Failure (Message .ast) := do
  let program ← (reader.read source).mapError (.noTree path)
  (compile limit program).mapError (.noMessage path)

namespace Command

variable {m : Type → Type} [Monad m]

/-- Compile a file. -/
def runCompile (files : Files m) (settings : Settings) (options : CompileOptions) : m Outcome := do
  match (options.inputFormat settings).reader? options.input with
  | none => return .failed "" (.unknownFormat options.input)
  | some reader =>
    match ← files.readText options.input with
    | .error e => return .failed "" (.unreadable options.input e)
    | .ok source =>
      match reader.messageOf (options.limit settings) options.input source with
      | .error failure => return .failed "" failure
      | .ok ast =>
        let printed := if options.prints settings then ast.shown else ""
        match ← files.write options.output (Wire.encode ast) with
        | .error e => return .failed printed (.unwritable options.output e)
        | .ok () => return .done printed

/-- Print an encoded message. -/
def runInspect (files : Files m) (path : String) : m Outcome := do
  match ← files.read path with
  | .error e => return .failed "" (.unreadable path e)
  | .ok bytes =>
    match Wire.decode bytes with
    | .error e => return .failed "" (.undecodable path e)
    | .ok ast => return .done ast.shown

/-- A command with its settings. -/
def run (files : Files m) (settings : Settings) : Command → m Outcome
  | .compile options => runCompile files settings options
  | .inspect path => runInspect files path

end Command

section

variable {m : Type → Type} [Monad m]

/-- The settings in a file. A file that is not there or makes no sense sets nothing. -/
def Settings.load (files : Files m) (path : String) : m Settings := do
  match ← files.readText path with
  | .error _ => return .unset
  | .ok text => return (Settings.ofText? text).getD .unset

/-- The file with the settings of a user, in the user's directory for configurations. -/
def userSettings (directory : String) : String :=
  directory ++ "/jsir/config.toml"

/-- The file with the settings of a project, in its directory. -/
def projectSettings : String :=
  ".jsir/config.toml"

/-- The settings of a user and of a project; where both set a key, the project counts. -/
def Settings.loadAll (files : Files m) (directory : Option String) : m Settings := do
  let user ← match directory with
    | none => pure .unset
    | some d => Settings.load files (userSettings d)
  return user.override (← Settings.load files projectSettings)

/-- A run from the arguments on, with the user's directory for configurations, if there is one. -/
def runArguments (files : Files m) (directory : Option String) (arguments : List String) :
    m Outcome := do
  match Request.ofArguments arguments with
  | .help => return .help
  | .refused => return .refused
  | .run command => command.run files (← Settings.loadAll files directory)

end

end ScriptWire
