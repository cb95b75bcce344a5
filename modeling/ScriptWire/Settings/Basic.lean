import ScriptWire.Toml.Parser

/-!
# Settings

What the configuration files may set. Each file sets some of the keys; of two files that set the
same key the later one counts.

## Main definitions

- `Format` — how the input is read
- `Settings` — the keys that a file sets
- `Settings.override` — two files together
- `Settings.ofText?` — the settings that a file holds
-/

namespace ScriptWire

/-- How the input is read. -/
inductive Format
  /-- By the extension of the file. -/
  | auto
  /-- As a script. -/
  | javascript
  /-- As a tree that is given as a document. -/
  | estree
deriving DecidableEq

namespace Format

/-- The name of a format. -/
def name : Format → String
  | .auto => "auto"
  | .javascript => "javascript"
  | .estree => "estree"

/-- The format with a name. -/
def ofName? (name : String) : Option Format :=
  [auto, javascript, estree].find? fun f => f.name = name

end Format

/-- The keys that a configuration sets. -/
structure Settings where
  /-- The number of levels on which nodes may stand inside each other. -/
  maxDepth : Option Nat
  format : Option Format
  /-- Whether the compiled message is also printed. -/
  dump : Option Bool
deriving DecidableEq

namespace Settings

/-- The settings of a configuration that sets nothing. -/
def unset : Settings :=
  ⟨none, none, none⟩

/-- The settings of two configurations: where both set a key, the second counts. -/
def override (first second : Settings) : Settings where
  maxDepth := second.maxDepth <|> first.maxDepth
  format := second.format <|> first.format
  dump := second.dump <|> first.dump

/-- The value of the only key of a section. A section that is written as an array holds that value
first, and so does one of tables under a repeated header. The outer failure means that the value is
no section. -/
def sectionValue? (key : String) : Toml.Value → Option (Option Toml.Value)
  | .table _ members => some (Toml.Table.get? members key)
  | .array items => some items.head?
  | .tables earlier last => some (some (.table .header (earlier.headD last)))
  | .moment => some none
  | _ => none

/-- The value of a key in a section of a table, as `convert` understands it. A key that is not there
is not set, and one that is there must make sense. -/
def key? {α : Type} (t : Toml.Table) (sectionName key : String) (convert : Toml.Value → Option α) :
    Option (Option α) :=
  match t.get? sectionName with
  | none => some none
  | some inner =>
    match sectionValue? key inner with
    | none => none
    | some none => some none
    | some (some v) => (convert v).map some

/-- The number of levels that a value denotes. -/
def depthOf? : Toml.Value → Option Nat
  | .integer (.ofNat n) => some n
  | _ => none

/-- The format that a value names: a string, or a table with the name as its only key and nothing
under it. -/
def formatOf? : Toml.Value → Option Format
  | .string name => Format.ofName? name
  | .table _ [(name, v)] => if v.isEmpty then Format.ofName? name else none
  | _ => none

/-- The truth value that a value is. -/
def booleanOf? : Toml.Value → Option Bool
  | .boolean b => some b
  | _ => none

/-- The settings that a table holds. -/
def ofTable? (t : Toml.Table) : Option Settings := do
  return {
    maxDepth := ← key? t "compiler" "max_depth" depthOf?
    format := ← key? t "input" "format" formatOf?
    dump := ← key? t "output" "dump" booleanOf?
  }

/-- The settings that the text of a file holds. A text that is malformed, or has a known key with a
value that makes no sense, holds none at all. -/
def ofText? (text : String) : Option Settings := do
  ofTable? (← Toml.parse? text)

end Settings

end ScriptWire
