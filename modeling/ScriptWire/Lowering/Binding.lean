import ScriptWire.Lowering.Error
import ScriptWire.Message.Build
import ScriptWire.Tree.Kind

/-!
# Names, words and flags of a tree

## Main definitions

- `Lowering.bindingName` — the name that a binding introduces
- `Lowering.declarationKind`, `Lowering.functionType` — the choices that words and flags stand for
- `Lowering.indexKey` — the index that a numeric key stands for
-/

namespace ScriptWire

namespace Lowering

open ScriptWire.Tree

/-- The message, if it is well-formed. -/
def checked {k : Message.Kind} (m : Message k) : Except CompileError (Message k) :=
  m.make.mapError .shape

/-- A text that must not be empty. -/
def requiredText (kind field text : String) : Except CompileError String :=
  if text = "" then .error (.unsupported kind (.emptyText field)) else .ok text

/-- The name that a binding introduces. Only plain names are accepted. -/
def bindingName (p : Pattern) : Except CompileError String :=
  match p with
  | .identifier name => if name = "" then .error (.unsupported p.kind .emptyBinding) else .ok name
  | .assignmentPattern _ _ => .error (.unsupported p.kind .defaultValue)
  | .restElement _ => .error (.unsupported p.kind .restBinding)
  | .objectPattern => .error (.unsupported p.kind .destructuring)
  | .arrayPattern => .error (.unsupported p.kind .destructuring)
  | .unsupported kind => .error (.unhandled kind)

/-- A parameter. -/
def parameter (p : Pattern) : Except CompileError (Message .parameter) := do
  checked (Message.parameter (← bindingName p))

/-- Parameters. -/
def parameters : List Pattern → Except CompileError (List (Message .parameter))
  | [] => return []
  | p :: rest => do
    let p ← parameter p
    return p :: (← parameters rest)

/-- The choice that the word of a declaration stands for. -/
def declarationKind (word : String) : Except CompileError Int32 :=
  if word = "var" then .ok 0
  else if word = "let" then .ok 1
  else if word = "const" then .ok 2
  else .error (.unsupported "VariableDeclaration" (.declarationKind word))

/-- The choice that the flags of a function stand for. -/
def functionType (generator isAsync : Bool) : Int32 :=
  match generator, isAsync with
  | false, false => 0
  | true, false => 1
  | false, true => 2
  | true, true => 3

/-- The index that a numeric key stands for. The number must be an integer of sixty-four bits; the
one right above their range is taken for the largest. -/
def indexKey (value : Binary64) : Except CompileError Int64 :=
  match value.toInt? with
  | some n =>
    if -(Nat.pow 2 63) ≤ n ∧ n ≤ Nat.pow 2 63 then .ok (Int64.ofInt (min n (Nat.pow 2 63 - 1)))
    else .error (.unsupported "ObjectProperty" (.keyNotInteger value))
  | none => .error (.unsupported "ObjectProperty" (.keyNotInteger value))

/-- The name of a method. -/
def methodName (key : Expression) (computed shorthand : Bool) : Except CompileError String :=
  if computed || shorthand then .error (.unsupported "ObjectMethod" .computedMethod)
  else
    match key with
    | .identifier name => .ok name
    | .stringLiteral value => .ok value
    | key => .error (.unsupported "ObjectMethod" (.methodKind key.kind))

/-- Getters and setters are neither generators nor asynchronous. -/
def plainAccessor (accessor : String) (generator isAsync : Bool) : Except CompileError Unit :=
  if generator || isAsync then .error (.unsupported "ObjectMethod" (.accessorFlags accessor))
  else .ok ()

/-- Getters have no parameters. -/
def noParameters (params : List Pattern) : Except CompileError Unit :=
  if params.isEmpty then .ok () else .error (.unsupported "ObjectMethod" .getterParameters)

/-- Setters have one parameter. -/
def oneParameter (params : List Pattern) : Except CompileError Pattern :=
  match params with
  | [p] => .ok p
  | params => .error (.unsupported "ObjectMethod" (.setterParameters params.length))

end Lowering

end ScriptWire
