import ScriptWire.Script.Grammar.Expression

/-!
# Imports and exports

Nothing of these statements is kept, so the rules only decide where a statement ends.

## Main definitions

- `Script.importStatement` — an import after its first word
- `Script.declaredVariables` — the variables of a declaration
- `Script.exportWithoutDeclaration` — an export that declares nothing, after its first word
-/

namespace ScriptWire

namespace Script

/-- One variable of a declaration: its target and its value, if it has one. -/
def declarator (rules : Rules) : Parser Declarator := do
  let target ← bindingTarget rules
  if ← equals? then
    return .mk target (some (← expression rules Mode.final))
  else
    return .mk target none

/-- The variables of a declaration. -/
def declarators (rules : Rules) : Nat → Parser (List Declarator)
  | 0 => failure
  | fuel + 1 => do
    let first ← declarator rules
    if ← mark? "," then
      return first :: (← declarators rules fuel)
    else
      return [first]

/-- The last variable has a value. -/
def lastHasValue (ds : List Declarator) : Bool :=
  match ds.getLast? with
  | some (.mk _ (some _)) => true
  | _ => false

/-- The variables of a declaration, and its end. -/
def declaredVariables (rules : Rules) : Parser (List Declarator) := do
  let ds ← declarators rules rules.bound
  semicolon (lastHasValue ds)
  return ds

/-- A name of an import or export: a name, a string, or the word `default`. -/
def moduleName : Parser Unit := do
  match quoted? (skip (← get)) with
  | some (_, rest) => set rest
  | none =>
    if ← word "default" then pure ()
    else
      let _ ← name

/-- One name between the braces of an export. -/
def exportSpecifier : Parser Unit := do
  moduleName
  if ← word "as" then moduleName

/-- One name between the braces of an import. A name that is no local name is renamed. -/
def importSpecifier : Parser Unit := do
  let start ← get
  moduleName
  if ← word "as" then
    let _ ← name
  else
    set start
    let _ ← name

/-- Names in braces, after the opening brace. -/
def specifiers (one : Parser Unit) : Nat → Parser Unit
  | 0 => failure
  | fuel + 1 => do
    if ← mark? "\x7d" then pure ()
    else
      one
      if ← mark? "," then specifiers one fuel
      else mark "\x7d"

/-- The source of an import or export. -/
def fromClause : Parser Unit := do
  expectWord "from"
  let _ ← string

/-- Everything that a module exports, under one name. -/
def namespaceImport : Parser Unit := do
  mark "*"
  expectWord "as"
  let _ ← name

/-- The names that an import binds. -/
def importClause (rules : Rules) : Parser Unit := do
  match ← peek? with
  | some '*' => namespaceImport
  | some '{' =>
    mark "\x7b"
    specifiers importSpecifier rules.bound
  | _ =>
    let _ ← name
    if ← mark? "," then
      if (← peek?) = some '*' then namespaceImport
      else
        mark "\x7b"
        specifiers importSpecifier rules.bound

/-- An import after its first word. -/
def importStatement (rules : Rules) : Parser Unit := do
  match quoted? (skip (← get)) with
  | some (_, rest) => set rest
  | none =>
    importClause rules
    fromClause
  if ← word "with" then
    mark "\x7b"
    let o ← objectTail rules
    let _ ← o.settle
  semicolon false

/-- An export that declares nothing, after its first word. -/
def exportWithoutDeclaration (rules : Rules) : Parser Unit := do
  if ← mark? "*" then
    if ← word "as" then moduleName
    fromClause
    semicolon false
  else
    mark "\x7b"
    specifiers exportSpecifier rules.bound
    if !(← mayEndHere false) && (← peekWord?) = some "from" then fromClause
    semicolon false

/-- The value of a default export. -/
def exportValue (rules : Rules) : Parser Unit := do
  let _ ← expression rules Mode.final
  semicolon true

end Script

end ScriptWire
