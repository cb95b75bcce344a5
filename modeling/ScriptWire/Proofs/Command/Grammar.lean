import ScriptWire.Command.Arguments
import ScriptWire.Proofs.Literal.Numeral

/-!
# The grammar of the command line

After the name of a command stand items: paths and options, in any order. Options may be given once
each, and there is a number of paths for each command. After two hyphens everything is a path. In
front of the name only the option that asks for a longer log may stand. A word for help ends the
reading wherever items may go on.

## Main definitions

- `Command.Item`, `Command.Item.Written` — items, and how they are written
- `Command.Line`, `Command.HelpLine` — arguments that are items, or items and a word for help
- `Command.Verb.Admits` — the items that a command takes
- `Command.Names` — the command that items name
- `Request.Asks` — what arguments ask for

## Main results

- `Request.asks_compile`, `Request.asks_inspect` — what a command with its paths and options asks
  for
-/

namespace ScriptWire

namespace Command

/-- An argument that is no option: it does not begin with a hyphen, or is a single one. -/
def Plain (argument : String) : Prop :=
  argument = "-" ∨ argument.toList.head? ≠ some '-'

/-- The argument denotes a number of levels: digits, after a plus sign or not, and a number that
fits in sixty-four bits. -/
def Levels (argument : String) (n : Nat) : Prop :=
  ∃ digits, (argument.toList = '+' :: digits ∨ argument.toList = digits) ∧ digits ≠ [] ∧
    Numeral 10 digits n ∧ n < Nat.pow 2 64

/-- What may stand after the name of a command. -/
inductive Item
  | path (text : String)
  | verbose
  | dump
  | format (format : Format)
  | maxDepth (levels : Nat)
deriving DecidableEq

namespace Item

/-- The path that an item is. -/
@[simp]
def path? : Item → Option String
  | .path text => some text
  | _ => none

/-- The format that an item sets. -/
@[simp]
def format? : Item → Option Format
  | .format f => some f
  | _ => none

/-- The limit on levels that an item sets. -/
@[simp]
def maxDepth? : Item → Option Nat
  | .maxDepth n => some n
  | _ => none

/-- How an item is written: in one argument, or in two. -/
inductive Written : Item → List String → Prop
  | path {text : String} (hplain : Plain text) (hne : text ≠ "") : Written (.path text) [text]
  | verbose : Written .verbose ["--verbose"]
  | letters (n : Nat) : Written .verbose [String.ofList ('-' :: List.replicate (n + 1) 'v')]
  | dump : Written .dump ["--dump"]
  | format (f : Format) : Written (.format f) ["--format", f.name]
  | formatJoined (f : Format) : Written (.format f) ["--format=" ++ f.name]
  | maxDepth {text : String} {n : Nat} (h : Levels text n) :
      Written (.maxDepth n) ["--max-depth", text]
  | maxDepthJoined {text : String} {n : Nat} (h : Levels text n) :
      Written (.maxDepth n) ["--max-depth=" ++ text]

theorem Written.ne_nil {item : Item} {words : List String} (h : item.Written words) :
    words ≠ [] := by
  cases h <;> exact List.cons_ne_nil _ _

end Item

/-- Arguments that are items, the last of them paths after two hyphens or not. -/
inductive Line : List Item → List String → Prop
  | nil : Line [] []
  | pathsOnly {paths : List String} (hpaths : "" ∉ paths) : Line (paths.map .path) ("--" :: paths)
  | cons {item : Item} {words : List String} {items : List Item} {rest : List String}
      (hitem : item.Written words) (hrest : Line items rest) : Line (item :: items) (words ++ rest)

/-- A word that asks for help: an option, or letters of which the first that is no `v` is an `h`. -/
inductive HelpWord : String → Prop
  | option : HelpWord "--help"
  | letters (n : Nat) (rest : List Char) :
      HelpWord (String.ofList ('-' :: (List.replicate n 'v' ++ 'h' :: rest)))

/-- Arguments that are items, a word that asks for help, and anything after it. -/
inductive HelpLine : List Item → List String → Prop
  | word {word : String} {rest : List String} (hword : HelpWord word) : HelpLine [] (word :: rest)
  | cons {item : Item} {words : List String} {items : List Item} {rest : List String}
      (hitem : item.Written words) (hrest : HelpLine items rest) :
      HelpLine (item :: items) (words ++ rest)

/-- The name of a command. -/
def Verb.name : Verb → String
  | .compile => "compile"
  | .inspect => "inspect"

/-- How often each option with a meaning for a command may be given. -/
def Verb.options : Verb → Nat
  | .compile => 1
  | .inspect => 0

/-- A command takes items: there are neither too many paths nor too many options. -/
structure Verb.Admits (verb : Verb) (items : List Item) : Prop where
  paths : (items.filterMap Item.path?).length ≤ verb.paths
  format : (items.filterMap Item.format?).length ≤ verb.options
  maxDepth : (items.filterMap Item.maxDepth?).length ≤ verb.options
  dump : items.count .dump ≤ verb.options

/-- The command that items name. -/
inductive Names : Verb → List Item → Command → Prop
  | compile {items : List Item} {options : CompileOptions}
      (hpaths : items.filterMap Item.path? = [options.input, options.output])
      (hformat : items.filterMap Item.format? = options.format.toList)
      (hmaxDepth : items.filterMap Item.maxDepth? = options.maxDepth.toList)
      (hdump : items.count .dump = options.dump.toNat) : Names .compile items (.compile options)
  | inspect {items : List Item} {file : String} (hpaths : items.filterMap Item.path? = [file])
      (hformat : items.filterMap Item.format? = [])
      (hmaxDepth : items.filterMap Item.maxDepth? = [])
      (hdump : items.count .dump = 0) : Names .inspect items (.inspect file)

end Command

namespace Request

open Command

/-- An option in front of the name of a command that asks for help, or for the version. -/
inductive HelpOption : String → Prop
  | help : HelpOption "--help"
  | version : HelpOption "--version"
  | letters (n : Nat) {c : Char} (hc : c ∈ ['h', 'V']) (rest : List Char) :
      HelpOption (String.ofList ('-' :: (List.replicate n 'v' ++ c :: rest)))

/-- What arguments that make sense ask for. -/
inductive Wants : List String → Request → Prop
  | run {lead words : List String} {verb : Verb} {items : List Item} {command : Command}
      (hlead : ∀ word ∈ lead, Item.verbose.Written [word]) (hline : Line items words)
      (hcommand : Names verb items command) : Wants (lead ++ verb.name :: words) (.run command)
  | helpOn {lead words : List String} {verb : Verb} {items : List Item}
      (hlead : ∀ word ∈ lead, Item.verbose.Written [word]) (hline : HelpLine items words)
      (hadmits : verb.Admits items) : Wants (lead ++ verb.name :: words) .help
  | help {lead names : List String} (hlead : ∀ word ∈ lead, Item.verbose.Written [word])
      (hnames : names = [] ∨ ∃ name ∈ ["compile", "inspect", "help"], names = [name]) :
      Wants (lead ++ "help" :: names) .help
  | helpOption {lead rest : List String} {word : String}
      (hlead : ∀ word ∈ lead, Item.verbose.Written [word]) (hword : HelpOption word) :
      Wants (lead ++ word :: rest) .help

/-- What arguments ask for. Those that make no sense are refused. -/
def Asks (arguments : List String) (request : Request) : Prop :=
  Wants arguments request ∨ request = .refused ∧ ∀ other, ¬ Wants arguments other

variable {items : List Item} {words : List String}

theorem wants_name {verb : Verb} {command : Command} (hline : Line items words)
    (hcommand : Names verb items command) : Wants (verb.name :: words) (.run command) :=
  @Wants.run [] words verb items command (List.forall_mem_nil _) hline hcommand

/-- Two paths, and the options of a compilation after them. -/
theorem asks_compile (options : CompileOptions)
    (hinput : (Item.path options.input).Written [options.input])
    (houtput : (Item.path options.output).Written [options.output]) (hline : Line items words)
    (hpaths : items.filterMap Item.path? = [])
    (hformat : items.filterMap Item.format? = options.format.toList)
    (hmaxDepth : items.filterMap Item.maxDepth? = options.maxDepth.toList)
    (hdump : items.count .dump = options.dump.toNat) :
    Asks ("compile" :: options.input :: options.output :: words) (.run (.compile options)) := by
  refine .inl (@wants_name _ _ .compile _ (.cons hinput (.cons houtput hline)) ?_)
  refine .compile ?_ ?_ ?_ ?_
  · simp [hpaths]
  · exact hformat
  · exact hmaxDepth
  · simpa using hdump

theorem asks_inspect {file : String} (hfile : (Item.path file).Written [file]) :
    Asks ["inspect", file] (.run (.inspect file)) :=
  .inl (@wants_name _ _ .inspect _ (.cons hfile .nil) (.inspect rfl rfl rfl rfl))

end Request

end ScriptWire
