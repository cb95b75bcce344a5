import ScriptWire.Script.Grammar.Basic

/-!
# Members of objects and classes

## Main definitions

- `Script.memberKey` — the key of a member
- `Script.modifiers` — the words in front of a method
- `Script.objectTail` — an object literal after its opening brace
- `Script.classTail` — a class after the word `class`
-/

namespace ScriptWire

namespace Script

/-- The next token can start the key of a member. -/
def keyFollows : Parser Bool := do
  match skip (← get) with
  | [] => return false
  | c :: cs =>
    return c == '[' || c == '#' || c == '\x22' || c == '\x27' || (number? (c :: cs)).isSome
      || (word? (c :: cs)).isSome

/-- The key of a member. -/
def memberKey (rules : Rules) : Parser MemberKey := do
  let s := skip (← get)
  match s with
  | '[' :: cs =>
    set cs
    let e ← expression rules Mode.inner
    mark "]"
    return .computed e
  | '#' :: _ =>
    privateName
    return .literal (.unread .privateName)
  | _ =>
    match quoted? s, number? s with
    | some (text, rest), _ =>
      set rest
      return .literal (.string (String.ofList text))
    | none, some (text, rest) =>
      set rest
      return .literal (.number (String.ofList text))
    | none, none => return .name (← anyWord)

/-- Takes a word in front of a method, unless it is the key of the member itself. In a class a line
break after the word can end the member. With `star`, the word may stand before an asterisk. -/
def modifier? (inClass star : Bool) (w : String) : Parser Bool := do
  let start ← get
  if ← word w then
    let ended ← if inClass then mayEndHere false else pure false
    let more ← keyFollows
    let starred ← if star then looking "*" else pure false
    if !ended && (more || starred) then
      return true
    else
      set start
      return false
  else
    return false

/-- The text after the words `static get` with a line break behind them, which count as one word. -/
def staticGet? (s : List Char) : Option (List Char) :=
  if "static".toList.isPrefixOf s then
    let (gap, rest) := stretch isBlank (s.drop 6)
    if gap ≠ [] && "get".toList.isPrefixOf rest then
      let (behind, rest) := stretch isBlank (rest.drop 3)
      if behind.contains '\n' then some rest else none
    else none
  else none

/-- The words in front of a method, and whether there are any that only a method can have. -/
def modifiers (inClass : Bool) : Parser MethodMarks := do
  match staticGet? (skip (← get)) with
  | some rest => set rest
  | none => let _ ← modifier? inClass true "static"
  let isAsync ← modifier? inClass true "async"
  if ← mark? "*" then
    return ⟨false, false, true, isAsync⟩
  else if ← modifier? inClass false "get" then
    return ⟨true, false, false, isAsync⟩
  else if ← modifier? inClass false "set" then
    return ⟨false, true, false, isAsync⟩
  else
    return ⟨false, false, false, isAsync⟩

/-- The member must be a method. -/
def MethodMarks.any (m : MethodMarks) : Bool :=
  m.getter || m.setter || m.generator || m.isAsync

/-- The names after the first in the path of a decorator. -/
def decoratorPath (rules : Rules) : Nat → Parser Unit
  | 0 => failure
  | fuel + 1 => do
    if ← mark? "." then
      let _ ← anyWord
      decoratorPath rules fuel
    else if ← mark? "(" then
      let _ ← argumentsTail rules
    else
      pure ()

/-- Decorators, if there are any. -/
def decorators (rules : Rules) : Nat → Parser Unit
  | 0 => failure
  | fuel + 1 => do
    if ← mark? "@" then
      let _ ← name
      decoratorPath rules rules.bound
      decorators rules fuel
    else
      pure ()

/-- The members of an object literal. A member that only a pattern can have leaves no member. -/
structure ObjectParts where
  members : List Member
  binding : Bool
  pending : Bool

/-- No members. -/
def ObjectParts.nil : ObjectParts :=
  ⟨[], true, false⟩

/-- The parts with one more member in front. -/
def ObjectParts.cons (m : Option Member) (binding pending : Bool) (rest : ObjectParts) :
    ObjectParts :=
  ⟨m.toList ++ rest.members, binding && rest.binding, pending || rest.pending⟩

/-- One member: the member, and whether it can be part of a pattern and must be. -/
def objectMember (rules : Rules) : Parser (Option Member × Bool × Bool) := do
  if ← mark? "..." then
    let o ← rules.expression 0 Mode.inner
    return (some (.spread o.expr), o.target, o.pending)
  let decorated := (← peek?) = some '@'
  decorators rules rules.bound
  let marks ← modifiers false
  let key ← memberKey rules
  if (← peek?) = some '(' then
    let params ← parameters rules
    let body ← block rules
    return (some (.method marks key params body), false, false)
  if marks.any || decorated then failure
  if ← mark? ":" then
    let o ← rules.expression 0 Mode.inner
    return (some (.pair key o.expr), o.binding, o.pending)
  match key with
  | .name text =>
    if ← equals? then
      let _ ← expression rules Mode.inner
      return (none, true, true)
    else
      return (some (.shorthand text), true, false)
  | _ => failure

/-- The members of an object literal up to its closing brace; `after` tells that a member was the
last token. -/
def objectParts (rules : Rules) : Nat → Bool → Parser ObjectParts
  | 0, _ => failure
  | fuel + 1, after => do
    let s := skip (← get)
    match s with
    | [] => failure
    | c :: cs =>
      if c = '}' then
        set cs
        return .nil
      else if c = ',' then
        set cs
        objectParts rules fuel false
      else if after then
        failure
      else
        let (m, binding, pending) ← objectMember rules
        return .cons m binding pending (← objectParts rules fuel true)

/-- An object literal after its opening brace. -/
def objectTail (rules : Rules) : Parser Operand := do
  let parts ← objectParts rules rules.bound false
  return ⟨.object parts.members, parts.binding, parts.binding, parts.pending⟩

/-- An array literal after its opening bracket. -/
def arrayTail (rules : Rules) : Parser Operand := do
  let list ← items rules ']' rules.bound false
  let os := operandsOf list
  let binding := os.all Operand.binding
  let tokens := list.map fun
    | .comma => ArrayItem.comma
    | .element o => ArrayItem.element o.expr
  return ⟨.array tokens, binding, binding, os.any Operand.pending⟩

/-- A pattern in braces or brackets. -/
def destructuring (rules : Rules) : Parser Pattern := do
  if ← mark? "[" then
    let o ← arrayTail rules
    if o.binding then return .array else failure
  else
    mark "\x7b"
    let o ← objectTail rules
    if o.binding then return .object else failure

/-- The target of a declaration: a name or a pattern in braces or brackets. -/
def bindingTarget (rules : Rules) : Parser Pattern := do
  match ← peek? with
  | some '[' => destructuring rules
  | some '{' => destructuring rules
  | _ => return .identifier (← name)

/-- The value of a field, if there is one, and the end of the field. -/
def fieldTail (rules : Rules) : Parser Unit := do
  if ← equals? then
    let _ ← expression rules Mode.final
    semicolon true
  else
    semicolon false

/-- A method or field of a class. -/
def classMember (rules : Rules) : Parser Unit := do
  decorators rules rules.bound
  let marks ← modifiers true
  let _ ← memberKey rules
  if (← peek?) = some '(' then
    let _ ← parameters rules
    let _ ← block rules
  else if marks.any then
    failure
  else
    fieldTail rules

/-- A block of statements that belongs to the class itself. -/
def staticBlock (rules : Rules) : Parser Unit := do
  expectWord "static"
  let _ ← block rules

/-- The members of a class up to its closing brace. -/
def classMembers (rules : Rules) : Nat → Parser Unit
  | 0 => failure
  | fuel + 1 => do
    if ← mark? "\x7d" then pure ()
    else if ← mark? ";" then classMembers rules fuel
    else
      staticBlock rules <|> classMember rules
      classMembers rules fuel

/-- A class after the word `class`: whether it has a name. -/
def classTail (rules : Rules) : Parser Bool := do
  let named ← match ← peekWord? with
    | some w => if w = "extends" then pure false else do
      let _ ← name
      pure true
    | none => pure false
  if ← word "extends" then
    let _ ← expression rules Mode.inner
  mark "\x7b"
  classMembers rules rules.bound
  return named

end Script

end ScriptWire
