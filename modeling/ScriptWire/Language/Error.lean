import ScriptWire.Estree.Reader
import ScriptWire.Script.Reader

/-!
# Why a text has no tree

## Main definitions

- `ReadError` — the faults of all readers
- `ReadError.message` — the wording of a fault
- `ReadError.chain` — the wording of a fault and of what caused it
-/

namespace ScriptWire

/-- The wording of a number of levels that was exceeded. -/
def nestingMessage (limit : Nat) : String :=
  "nesting exceeds the limit of " ++ toString limit ++ " levels"

/-- The wording of a fault in a script. -/
def Script.ReadError.message : Script.ReadError → String
  | .malformed => "syntax error"
  | .literal cause => cause.message
  | .tooNested limit => nestingMessage limit

/-- Why a text has no tree. -/
inductive ReadError
  | script (cause : Script.ReadError)
  | document (cause : Estree.ReadError)
deriving DecidableEq

namespace ReadError

/-- The kinds of root that hold a program, as faults name them. -/
def expectedRoot : String :=
  "File or Program"

/-- The wording of a fault. -/
def message : ReadError → String
  | .script cause => "parse error: " ++ cause.message
  | .document .untyped => "parse error: root node has no type"
  | .document .noProgram => "parse error: File node without a program"
  | .document (.root kind) => "expected " ++ expectedRoot ++ ", got " ++ kind
  | .document (.text cause) => "invalid ESTree document: " ++ cause.message
  | .document (.fault cause) => "invalid ESTree document: " ++ cause.message

/-- The wording of a fault and of what caused it. -/
def chain (e : ReadError) : List String :=
  match e with
  | .document (.text cause) => [e.message, cause.message]
  | .document (.fault cause) => [e.message, cause.message]
  | _ => [e.message]

end ReadError

end ScriptWire
