import ScriptWire.Settings.Basic

/-!
# Arguments of the command line

Arguments are read from left to right. The first that is not accepted refuses the command, and the
first that asks for help ends the reading, whatever follows.

## Main definitions

- `Command` — what the command line can do
- `Request` — what arguments ask for
- `Request.ofArguments` — how arguments are read
-/

namespace ScriptWire

/-- The files and options of a compilation. -/
structure CompileOptions where
  input : String
  output : String
  format : Option Format
  maxDepth : Option Nat
  dump : Bool
deriving DecidableEq

/-- What the command line can do. -/
inductive Command
  /-- Compile a file into an encoded message. -/
  | compile (options : CompileOptions)
  /-- Print an encoded message. -/
  | inspect (file : String)
deriving DecidableEq

/-- What arguments ask for. -/
inductive Request
  | run (command : Command)
  /-- A description of the command line, or its version. -/
  | help
  /-- The arguments make no sense. -/
  | refused
deriving DecidableEq

namespace Command

/-- The names of commands. -/
inductive Verb
  | compile
  | inspect
deriving DecidableEq

/-- The number of paths that a command takes. -/
def Verb.paths : Verb → Nat
  | .compile => 2
  | .inspect => 1

/-- The form of an argument. -/
inductive Word
  /-- A path, or the value of the option in front of it. -/
  | plain
  /-- Two hyphens: everything that follows is a path. -/
  | pathsOnly
  /-- An option with a long name, and the value after an equals sign. -/
  | option (name : String) (value : Option String)
  /-- Options of one letter each. -/
  | letters (cs : List Char)
deriving DecidableEq

/-- The form of an argument. A single hyphen is a path. -/
def Word.ofArgument (argument : String) : Word :=
  match argument.toList with
  | ['-', '-'] => .pathsOnly
  | '-' :: '-' :: cs =>
    let name := String.ofList (cs.takeWhile (· ≠ '='))
    match cs.dropWhile (· ≠ '=') with
    | _ :: value => .option name (some (String.ofList value))
    | [] => .option name none
  | '-' :: c :: cs => .letters (c :: cs)
  | _ => .plain

/-- Why the reading of arguments ends early. -/
inductive Stop
  | help
  | refused
deriving DecidableEq

/-- What was read of the arguments after the name of a command. -/
structure Given where
  format : Option Format
  maxDepth : Option Nat
  dump : Bool
  paths : List String
deriving DecidableEq

namespace Given

/-- Nothing was read. -/
def empty : Given :=
  ⟨none, none, false, []⟩

/-- A path was read. It must not be empty, and there is a number of paths for each command. -/
def takePath (verb : Verb) (given : Given) (path : String) : Except Stop Given :=
  if path.isEmpty || given.paths.length = verb.paths then .error .refused
  else .ok { given with paths := given.paths ++ [path] }

/-- Options of one letter were read. -/
def takeLetters (given : Given) : List Char → Except Stop Given
  | [] => .ok given
  | 'v' :: cs => given.takeLetters cs
  | 'h' :: _ => .error .help
  | _ => .error .refused

/-- An option without a value was read. -/
def takeFlag (verb : Verb) (given : Given) (name : String) : Except Stop Given :=
  if name = "help" then .error .help
  else if name = "verbose" then .ok given
  else if name = "dump" && verb = .compile && !given.dump then .ok { given with dump := true }
  else .error .refused

/-- The number of levels that an argument denotes. It fits in sixty-four bits. -/
def depth? (value : String) : Option Nat :=
  unsigned? 10 64 value.toList

/-- The option needs a value. -/
def needsValue (verb : Verb) (name : String) : Bool :=
  verb = .compile && (name = "format" || name = "max-depth")

/-- An option with a value was read. Each such option may be given once. -/
def takeValue (given : Given) (name value : String) : Except Stop Given :=
  if name = "format" then
    match given.format, Format.ofName? value with
    | none, some f => .ok { given with format := some f }
    | _, _ => .error .refused
  else
    match given.maxDepth, depth? value with
    | none, some n => .ok { given with maxDepth := some n }
    | _, _ => .error .refused

/-- What the arguments after the name of a command give. -/
def read (verb : Verb) : Given → List String → Except Stop Given
  | given, [] => .ok given
  | given, argument :: rest =>
    match Word.ofArgument argument with
    | .plain => do read verb (← given.takePath verb argument) rest
    | .pathsOnly => rest.foldlM (takePath verb) given
    | .letters cs => do read verb (← given.takeLetters cs) rest
    | .option name (some value) =>
      if needsValue verb name then do read verb (← given.takeValue name value) rest
      else .error .refused
    | .option name none =>
      if needsValue verb name then
        match rest with
        | [] => .error .refused
        | value :: rest =>
          if Word.ofArgument value = .plain then do read verb (← given.takeValue name value) rest
          else .error .refused
      else do read verb (← given.takeFlag verb name) rest

/-- The command that is given, if none of its paths is missing. -/
def command? (verb : Verb) (given : Given) : Option Command :=
  match verb, given.paths with
  | .compile, [input, output] =>
    some (.compile ⟨input, output, given.format, given.maxDepth, given.dump⟩)
  | .inspect, [file] => some (.inspect file)
  | _, _ => none

end Given

end Command

namespace Request

open Command

/-- What the arguments after the name of a command ask for. -/
def ofCommand (verb : Verb) (arguments : List String) : Request :=
  match Given.empty.read verb arguments with
  | .error .help => .help
  | .error .refused => .refused
  | .ok given =>
    match given.command? verb with
    | some command => .run command
    | none => .refused

/-- What the arguments after the word for help ask for: at most the name of one command. -/
def ofHelp : List String → Request
  | [] => .help
  | [name] =>
    if name = "compile" || name = "inspect" || name = "help" then .help else .refused
  | _ => .refused

/-- What options of one letter in front of the name of a command ask for, if they end the
reading. -/
def ofLetters? : List Char → Option Request
  | [] => none
  | 'v' :: cs => ofLetters? cs
  | c :: _ => some (if c = 'h' || c = 'V' then .help else .refused)

/-- What arguments ask for. -/
def ofArguments : List String → Request
  | [] => .refused
  | argument :: rest =>
    if argument = "compile" then ofCommand .compile rest
    else if argument = "inspect" then ofCommand .inspect rest
    else if argument = "help" then ofHelp rest
    else
      match Word.ofArgument argument with
      | .letters cs => (ofLetters? cs).getD (ofArguments rest)
      | .option name none =>
        if name = "help" || name = "version" then .help
        else if name = "verbose" then ofArguments rest
        else .refused
      | _ => .refused

end Request

end ScriptWire
