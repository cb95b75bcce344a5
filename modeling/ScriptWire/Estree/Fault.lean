import ScriptWire.Document.Text
import ScriptWire.Text.Quoted

/-!
# Faults in the documents of trees

## Main definitions

- `Estree.Found` — a value as a fault reports it
- `Estree.Fault` — why a document is no tree
- `Estree.Fault.message` — its wording
-/

namespace ScriptWire

namespace Estree

open Document (Value)

/-- A value as a fault reports it: lists and objects without their contents. -/
inductive Found
  | null
  | boolean (value : Bool)
  | integer (value : Int)
  | float (value : Binary64)
  | string (text : String)
  | sequence
  | map
deriving DecidableEq

/-- What a value is reported as. -/
def found : Value → Found
  | .null => .null
  | .boolean b => .boolean b
  | .integer n => .integer n
  | .float x => .float x
  | .string text => .string text
  | .array _ => .sequence
  | .object _ => .map

/-- The wording for a value. -/
def Found.text : Found → String
  | .null => "null"
  | .boolean b => "boolean \x60" ++ (if b then "true" else "false") ++ "\x60"
  | .integer n => "integer \x60" ++ toString n ++ "\x60"
  | .float x => "floating point \x60" ++ NumberStyle.document.render x ++ "\x60"
  | .string text => "string " ++ Text.quoted text
  | .sequence => "sequence"
  | .map => "map"

/-- Why a document is no tree. -/
inductive Fault
  /-- A member that must be there is not. -/
  | missing (name : String)
  /-- A value of one type stands where another is expected. -/
  | type (value : Found) (expected : String)
  /-- An array that stands for a node has too few or too many elements. -/
  | length (count : Nat) (expected : String)
  /-- A name is none of those that can stand there. -/
  | unknown (name : String) (known : List String)
  /-- An object that stands for a name has not exactly one member. -/
  | severalNames
deriving DecidableEq

/-- The wording of a number of elements. -/
def elements (count : Nat) : String :=
  toString count ++ (if count = 1 then " element" else " elements")

/-- A name between grave accents. -/
def marked (name : String) : String :=
  "\x60" ++ name ++ "\x60"

/-- The wording of a fault. -/
def Fault.message : Fault → String
  | .missing name => "missing field " ++ marked name
  | .type value expected => "invalid type: " ++ value.text ++ ", expected " ++ expected
  | .length count expected => "invalid length " ++ toString count ++ ", expected " ++ expected
  | .unknown name known =>
    "unknown variant " ++ marked name ++ ", expected one of " ++ ", ".intercalate (known.map marked)
  | .severalNames => "invalid value: map, expected map with a single key"

end Estree

end ScriptWire
