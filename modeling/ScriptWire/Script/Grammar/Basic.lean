import ScriptWire.Script.Lexeme
import ScriptWire.Script.Tree

/-!
# Parsing scripts: tokens, operands and the open recursion

A parser takes the text after the last token and fails where the grammar has no derivation. The
rules of the grammar are written over a record of the two parsers that call each other, for
expressions and for statements; the record is closed by recursion on a bound in the last module.

An object or array literal may turn out to be a pattern once an assignment or arrow follows. Such
literals are parsed once, as operands that remember whether they can be patterns and whether they
hold a default that only a pattern can have.

## Main definitions

- `Script.Parser` — a parser of scripts
- `Script.Operand` — an expression that may still become a pattern
- `Script.Rules` — the parsers that the rules call
-/

namespace ScriptWire

namespace Script

/-- A parser: from the text after the last token to a value and the text after its own last
token. -/
abbrev Parser (α : Type) := StateT (List Char) Option α

/-- An expression that may still become a pattern. -/
structure Operand where
  expr : Expression
  /-- The text can stand as a pattern. -/
  target : Bool
  /-- The text can stand as a pattern, or as a pattern with a default. -/
  binding : Bool
  /-- The text holds a shorthand member with a default, and is no expression unless it becomes a
  pattern. -/
  pending : Bool

/-- An expression that cannot become a pattern. -/
def Operand.plain (e : Expression) : Operand :=
  ⟨e, false, false, false⟩

/-- An expression that can be assigned to. -/
def Operand.place (e : Expression) : Operand :=
  ⟨e, true, true, false⟩

/-- The operand as an expression. -/
def Operand.settle (o : Operand) : Parser Expression :=
  if o.pending then failure else pure o.expr

/-- The pattern that an operand which can be one stands for. -/
def patternOf : Expression → Pattern
  | .identifier name => .identifier name
  | .assign _ left right => .withDefault (patternOf left) right
  | .spread (.assign _ left right) => .withDefault (.rest (patternOf left)) right
  | .spread e => .rest (patternOf e)
  | .object _ => .object
  | .unread .objectPattern => .object
  | .array _ => .array
  | .unread .arrayPattern => .array
  | _ => .memberAccess

/-- How an expression is surrounded. -/
structure Mode where
  /-- The expression may be the last part of a statement, so that a line break can end it. -/
  mayEnd : Bool
  /-- The word `in` does not continue the expression. -/
  noIn : Bool

/-- Inside brackets of any kind. -/
def Mode.inner : Mode :=
  ⟨false, false⟩

/-- At the end of a statement. -/
def Mode.final : Mode :=
  ⟨true, false⟩

/-- The parsers that the rules call, and a bound for the length of lists. -/
structure Rules where
  /-- An expression that binds tighter than the given level. -/
  expression : Nat → Mode → Parser Operand
  statement : Parser Statement
  bound : Nat

/-- The next character, blanks and comments aside. -/
def peek? : Parser (Option Char) := do
  return (skip (← get)).head?

/-- Whether the text, blanks and comments aside, goes on with `text`. -/
def looking (text : String) : Parser Bool := do
  return text.toList.isPrefixOf (skip (← get))

/-- Takes a token that no other token extends, if it is the next one. -/
def mark? (text : String) : Parser Bool := do
  let s := skip (← get)
  if text.toList.isPrefixOf s then
    set (s.drop text.length)
    return true
  else
    return false

/-- Takes a token that no other token extends. -/
def mark (text : String) : Parser Unit := do
  if ← mark? text then pure () else failure

/-- Takes the sign of an initial value, if it is the next token. -/
def equals? : Parser Bool := do
  match skip (← get) with
  | '=' :: c :: cs =>
    if c = '=' || c = '>' then return false
    else
      set (c :: cs)
      return true
  | _ => return false

/-- The next word, which is not taken. -/
def peekWord? : Parser (Option String) := do
  return (word? (skip (← get))).map fun (w, _) => String.ofList w

/-- Takes the next word, whatever it is. -/
def anyWord : Parser String := do
  let (w, rest) ← word? (skip (← get))
  set rest
  return String.ofList w

/-- Takes the given word, if it is the next token. -/
def word (w : String) : Parser Bool := do
  if (← peekWord?) = some w then
    let _ ← anyWord
    return true
  else
    return false

/-- Takes the given word. -/
def expectWord (w : String) : Parser Unit := do
  if ← word w then pure () else failure

/-- Takes a name. -/
def name : Parser String := do
  let w ← anyWord
  if isReserved w then failure else return w

/-- Takes a string literal. -/
def string : Parser String := do
  let (text, rest) ← quoted? (skip (← get))
  set rest
  return String.ofList text

/-- The statement may end here without a semicolon. -/
def mayEndHere (operand : Bool) : Parser Bool := do
  return endsStatement operand (← get)

/-- The end of a statement: a line break that allows it, or else a semicolon. -/
def semicolon (operand : Bool) : Parser Unit := do
  if ← mayEndHere operand then pure () else mark ";"

/-- A private name. -/
def privateName : Parser Unit := do
  match skip (← get) with
  | '#' :: cs =>
    let (_, rest) ← word? cs
    set rest
  | _ => failure

/-- Operands between brackets, with their commas. -/
inductive Item
  | comma
  | element (value : Operand)

/-- The operands among the items. -/
def operandsOf (items : List Item) : List Operand :=
  items.filterMap fun
    | .comma => none
    | .element o => some o

/-- The operands, if commas separate them and at most one comma follows the last; and whether one
does. -/
def separated? : List Item → Option (List Operand × Bool)
  | [] => some ([], false)
  | [.element o] => some ([o], false)
  | [.element o, .comma] => some ([o], true)
  | .element o :: .comma :: items =>
    (separated? items).map fun (os, trailing) => (o :: os, trailing)
  | _ => none

/-- Whether a spread operand can be a pattern: the rest of a pattern, which in a list may also have
a default. -/
def spreadOperand (o : Operand) : Operand :=
  ⟨.spread o.expr, false, o.binding, o.pending⟩

/-- An element of a list: an expression, or a spread one. -/
def element (rules : Rules) : Parser Operand := do
  if ← mark? "..." then
    return spreadOperand (← rules.expression 0 Mode.inner)
  else
    rules.expression 0 Mode.inner

/-- Elements and commas up to the closing bracket; `after` tells that an element was the last
token. -/
def items (rules : Rules) (close : Char) : Nat → Bool → Parser (List Item)
  | 0, _ => failure
  | fuel + 1, after => do
    let text ← get
    let s := if after then skip text else skipOperand text
    match s with
    | [] => failure
    | c :: cs =>
      if c = close then
        set cs
        return []
      else if c = ',' then
        set cs
        return .comma :: (← items rules close fuel false)
      else if after then
        failure
      else
        set s
        let o ← element rules
        return .element o :: (← items rules close fuel true)

/-- Expressions separated by commas, as a sequence if there are several. -/
def moreExpressions (rules : Rules) (mode : Mode) : Nat → Parser (List Expression)
  | 0 => failure
  | fuel + 1 => do
    if ← mark? "," then
      let o ← rules.expression 0 mode
      let e ← o.settle
      return e :: (← moreExpressions rules mode fuel)
    else
      return []

/-- An expression or a sequence of them. -/
def expressions (rules : Rules) (mode : Mode) : Parser Expression := do
  let o ← rules.expression 0 mode
  let first ← o.settle
  match ← moreExpressions rules mode rules.bound with
  | [] => return first
  | more => return .sequence (first :: more)

/-- An expression or a sequence of them in parentheses. -/
def parenthesized (rules : Rules) : Parser Expression := do
  mark "("
  let e ← expressions rules Mode.inner
  mark ")"
  return .group e

/-- A single expression. -/
def expression (rules : Rules) (mode : Mode) : Parser Expression := do
  let o ← rules.expression 0 mode
  o.settle

/-- The settled expressions of a list of arguments. -/
def settleAll (os : List Operand) : Parser (List Expression) :=
  os.mapM Operand.settle

/-- Arguments after their opening parenthesis. Commas without an element between them are allowed
and leave no trace. -/
def argumentsTail (rules : Rules) : Parser (List Expression) := do
  settleAll (operandsOf (← items rules ')' rules.bound false))

/-- Parameters in parentheses. -/
def parameters (rules : Rules) : Parser (List Pattern) := do
  mark "("
  let (os, _) ← separated? (← items rules ')' rules.bound false)
  if os.all Operand.binding then
    return os.map fun o => patternOf o.expr
  else
    failure

/-- Statements up to the closing brace, which is taken. -/
def statementsTail (rules : Rules) : Nat → Parser (List Statement)
  | 0 => failure
  | fuel + 1 => do
    match skipOperand (← get) with
    | '}' :: cs =>
      set cs
      return []
    | s =>
      set s
      let statement ← rules.statement
      return statement :: (← statementsTail rules fuel)

/-- Statements in braces. -/
def block (rules : Rules) : Parser (List Statement) := do
  mark "\x7b"
  statementsTail rules rules.bound

/-- What follows the word `function`. The name may be left out. -/
def functionTail (rules : Rules) :
    Parser (Bool × Option String × List Pattern × List Statement) := do
  let generator ← mark? "*"
  let functionName ← if (← peek?) = some '(' then pure none else some <$> name
  let params ← parameters rules
  let body ← block rules
  return (generator, functionName, params, body)

end Script

end ScriptWire
