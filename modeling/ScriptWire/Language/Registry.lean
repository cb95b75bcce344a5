import ScriptWire.Language.Error

/-!
# Readers and where to find them

## Main definitions

- `Reader` — a format, and how it is read
- `Registry` — readers in the order in which they are asked
- `Registry.forLanguage?`, `Registry.forExtension?` — the first reader that fits
-/

namespace ScriptWire

/-- A format: its name, the extensions of its files, and how a text is read. -/
structure Reader where
  language : String
  extensions : List String
  read : String → Except ReadError Tree.Program

/-- The reader of scripts. -/
def scriptReader : Reader where
  language := "javascript"
  extensions := ["js", "mjs", "cjs"]
  read := fun source => (Script.read source).mapError .script

/-- The reader of trees that are given as documents. -/
def documentReader : Reader where
  language := "estree"
  extensions := ["json"]
  read := fun source => (Estree.read source).mapError .document

/-- Readers in the order in which they are asked. -/
abbrev Registry := List Reader

namespace Registry

/-- The readers that are always there. -/
def builtin : Registry :=
  [scriptReader, documentReader]

/-- The readers with one more, which is asked last. -/
def register (registry : Registry) (reader : Reader) : Registry :=
  registry ++ [reader]

/-- The first reader of a format. -/
def forLanguage? (registry : Registry) (language : String) : Option Reader :=
  registry.find? fun r => r.language = language

/-- The first reader for files with an extension. -/
def forExtension? (registry : Registry) (extension : String) : Option Reader :=
  registry.find? fun r => r.extensions.contains extension

end Registry

end ScriptWire
