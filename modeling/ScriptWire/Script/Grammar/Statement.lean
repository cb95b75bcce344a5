import ScriptWire.Script.Grammar.Module

/-!
# Statements

## Main definitions

- `Script.statementRule` — a statement
-/

namespace ScriptWire

namespace Script

/-- An expression as a statement. -/
def expressionStatement (rules : Rules) : Parser Statement := do
  let e ← expressions rules Mode.final
  semicolon true
  return .expression e

/-- Statements in braces, as a statement. What is assigned to is no block. -/
def blockStatement (rules : Rules) : Parser Statement := do
  let body ← block rules
  if ← looking "=" then failure else return .block body

/-- What starts with a brace: a block, or an expression that starts with an object literal. -/
def bracedStatement (rules : Rules) : Parser Statement := do
  match braced ((← get).drop 1) with
  | .block => blockStatement rules
  | .blockFirst => blockStatement rules <|> expressionStatement rules
  | .objectFirst => expressionStatement rules <|> blockStatement rules

/-- A declaration after its keyword. -/
def variableStatement (rules : Rules) (keyword : String) : Parser Statement := do
  return .declaration keyword (← declaredVariables rules)

/-- A declaration of resources after its keyword. -/
def usingStatement (rules : Rules) : Parser Statement := do
  let _ ← declaredVariables rules
  return .unread .usingDeclaration

/-- A function after the word `function`. -/
def functionStatement (rules : Rules) (isAsync : Bool) : Parser Statement := do
  match ← functionTail rules with
  | (generator, some functionName, params, body) =>
    return .function functionName params body generator isAsync
  | _ => failure

/-- The function after the word `function` has a name. -/
def isNamedFunction : Parser Bool := do
  match skip (← get) with
  | '*' :: cs => return (skip cs).head? != some '('
  | s => return s.head? != some '('

/-- The class after the word `class` has a name. -/
def isNamedClass : Parser Bool := do
  match ← peekWord? with
  | some w => return w ≠ "extends"
  | none => return false

/-- A statement that may start with `else` after its first branch. -/
def ifStatement (rules : Rules) : Parser Statement := do
  let test ← parenthesized rules
  let consequent ← rules.statement
  if ← word "else" then
    return .conditional test consequent (some (← rules.statement))
  else
    return .conditional test consequent none

/-- A loop after the word `while`. -/
def whileStatement (rules : Rules) : Parser Statement := do
  let test ← parenthesized rules
  return .whileLoop test (← rules.statement)

/-- A loop after the word `do`. -/
def doStatement (rules : Rules) : Parser Statement := do
  let body ← rules.statement
  expectWord "while"
  let test ← parenthesized rules
  if !(← mayEndHere false) then
    let _ ← mark? ";"
  return .doLoop body test

/-- The side of a loop head that runs over the other side. -/
inductive LoopWord
  | inWord
  | ofWord

/-- Takes the word between the two sides of a loop head. -/
def loopWord : Parser LoopWord := do
  match ← anyWord with
  | "in" => return .inWord
  | "of" => return .ofWord
  | _ => failure

/-- The variable of a loop head after `var`, which may have a value. A line break in front of `of`
ends the declaration. -/
def loopVar (rules : Rules) : Parser ForHead := do
  let target ← bindingTarget rules
  let value ← if ← equals? then some <$> expression rules ⟨true, true⟩ else pure none
  if ← mayEndHere value.isSome then failure
  return .declaration "var" [.mk target value]

/-- The variable of a loop head after another keyword. -/
def loopBinding (rules : Rules) (keyword : String) : Parser ForHead := do
  return .declaration keyword [.mk (← bindingTarget rules) none]

/-- The expression that a resource in a loop head stands for. -/
def resourceExpression : Pattern → Expression
  | .identifier w => .identifier w
  | .array => .unread .arrayPattern
  | _ => .unread .objectPattern

/-- The resource of a loop head. -/
def loopResource (rules : Rules) : Parser ForHead := do
  return .expression (resourceExpression (← bindingTarget rules))

/-- The head of a loop starts with a word that no expression starts with here: the word for
resources, or `let` in front of a bracket. -/
def onlyDeclares : Parser Bool := do
  match ← peekWord? with
  | some "using" => return true
  | some "let" =>
    let start ← get
    let _ ← anyWord
    let next ← peek?
    set start
    return next = some '['
  | _ => return false

/-- A place to assign to in a loop head. -/
def loopPlace (rules : Rules) : Parser ForHead := do
  if ← onlyDeclares then failure
  let o ← rules.expression Level.update.rank Mode.inner
  let target ← assigned? "=" o
  return .expression target

/-- What stands before `in` or `of`, and whether the words of the head ask to wait. -/
def loopLeft (rules : Rules) : Parser (ForHead × Bool) := do
  match ← peekWord? with
  | some "var" =>
    let _ ← anyWord
    return (← loopVar rules, false)
  | some "const" =>
    let _ ← anyWord
    return (← loopBinding rules "const", false)
  | some "using" =>
    let _ ← anyWord
    return (← loopResource rules, false)
  | some "await" =>
    (do
      let _ ← anyWord
      expectWord "using"
      return (← loopResource rules, true)) <|> (do return (← loopPlace rules, false))
  | _ => return (← loopPlace rules, false)

/-- The rest of a loop over the parts of a value. -/
def loopTail (rules : Rules) (isAwait : Bool) (left : ForHead) : Parser Statement := do
  let side ← loopWord
  let right ← expressions rules Mode.inner
  mark ")"
  let body ← rules.statement
  match side with
  | .inWord => return .forIn left right body
  | .ofWord => return .forOf isAwait left right body

/-- A loop over the parts of a value whose variable is declared by `let`. -/
def letLoop (rules : Rules) (isAwait : Bool) : Parser Statement := do
  expectWord "let"
  loopTail rules isAwait (← loopBinding rules "let")

/-- A loop over the parts of a value, after its opening parenthesis. -/
def partsLoop (rules : Rules) (isAwait : Bool) : Parser Statement :=
  letLoop rules isAwait <|> do
    let (left, waits) ← loopLeft rules
    loopTail rules (isAwait || waits) left

/-- A clause of a loop head up to its semicolon. -/
def loopClause (rules : Rules) : Parser (Option Expression) := do
  if ← mark? ";" then return none
  else
    let e ← expressions rules Mode.inner
    mark ";"
    return some e

/-- The declaration of a loop head. -/
def loopDeclaration (rules : Rules) : Parser (Option ForHead) := do
  let keyword ← anyWord
  if ["var", "let", "const"].contains keyword then
    return some (.declaration keyword (← declaredVariables rules))
  else
    failure

/-- The first clause of a loop head. -/
def loopInit (rules : Rules) : Parser (Option ForHead) :=
  loopDeclaration rules <|> do
    if ← onlyDeclares then failure
    return (← loopClause rules).map .expression

/-- A loop with three clauses, after its opening parenthesis. -/
def clauseLoop (rules : Rules) : Parser Statement := do
  let init ← loopInit rules
  let test ← loopClause rules
  let update ← if (← peek?) = some ')' then pure none else some <$> expressions rules Mode.inner
  mark ")"
  return .forLoop init test update (← rules.statement)

/-- A loop after the word `for`. -/
def forStatement (rules : Rules) : Parser Statement := do
  let isAwait ← word "await"
  mark "("
  if isAwait then partsLoop rules true
  else partsLoop rules false <|> clauseLoop rules

/-- The parameter of a `catch` clause, if there is one. -/
def catchParameter (rules : Rules) : Parser (Option Pattern) := do
  if ← mark? "(" then
    let p ← bindingTarget rules
    mark ")"
    return some p
  else
    return none

/-- The clauses of a `try` statement. -/
def tryStatement (rules : Rules) : Parser Statement := do
  let body ← block rules
  let handler ← if ← word "catch" then do
      let param ← catchParameter rules
      pure (some (Handler.mk param (← block rules)))
    else pure none
  let finalizer ← if ← word "finally" then some <$> block rules else pure none
  return .tries body handler finalizer

/-- A statement after the word `return`. -/
def returnStatement (rules : Rules) : Parser Statement := do
  if ← mayEndHere false then return .returns none
  else if ← mark? ";" then return .returns none
  else
    let e ← expressions rules Mode.final
    semicolon true
    return .returns (some e)

/-- A statement after the word `throw`. -/
def throwStatement (rules : Rules) : Parser Statement := do
  let e ← expressions rules Mode.final
  semicolon true
  return .throws e

/-- The label of a jump, if there is one, and the end of the statement. -/
def jumpTail (kind : UnreadStatement) : Parser Statement := do
  if ← mayEndHere false then pure ()
  else if ← mark? ";" then pure ()
  else
    let _ ← name
    semicolon false
  return .unread kind

/-- Statements up to the next case, which is not taken. -/
def caseStatements (rules : Rules) : Nat → Parser Unit
  | 0 => failure
  | fuel + 1 => do
    let s := skipOperand (← get)
    let w ← peekWord?
    if s.head? = some '}' || w = some "case" || w = some "default" then pure ()
    else
      set s
      let _ ← rules.statement
      caseStatements rules fuel

/-- The cases of a `switch` statement up to the closing brace. -/
def switchCases (rules : Rules) : Nat → Parser Unit
  | 0 => failure
  | fuel + 1 => do
    if ← mark? "\x7d" then pure ()
    else
      if ← word "default" then pure ()
      else
        expectWord "case"
        let _ ← expressions rules Mode.inner
      mark ":"
      caseStatements rules rules.bound
      switchCases rules fuel

/-- A statement after the word `switch`. -/
def switchStatement (rules : Rules) : Parser Statement := do
  let _ ← parenthesized rules
  mark "\x7b"
  switchCases rules rules.bound
  return .unread .switchStatement

/-- A statement after the word `with`. -/
def withStatement (rules : Rules) : Parser Statement := do
  let _ ← parenthesized rules
  let _ ← rules.statement
  return .unread .withStatement

/-- A declaration that can be exported, from its first word on. -/
def exportedDeclaration (rules : Rules) : Parser Unit := do
  decorators rules rules.bound
  match ← anyWord with
  | "function" => let _ ← functionStatement rules false
  | "async" =>
    expectWord "function"
    let _ ← functionStatement rules true
  | "class" => if ← isNamedClass then let _ ← classTail rules else failure
  | "var" => let _ ← declaredVariables rules
  | "let" => let _ ← declaredVariables rules
  | "const" => let _ ← declaredVariables rules
  | "using" => let _ ← declaredVariables rules
  | "await" =>
    expectWord "using"
    let _ ← declaredVariables rules
  | _ => failure

/-- An export after its first word. -/
def exportStatement (rules : Rules) : Parser Statement := do
  if ← word "default" then
    exportedDeclaration rules <|> exportValue rules
  else
    exportedDeclaration rules <|> exportWithoutDeclaration rules
  return .unread .exportDeclaration

/-- What follows decorators: a class or the export of one. -/
def decoratedStatement (rules : Rules) : Parser Statement := do
  decorators rules rules.bound
  match ← anyWord with
  | "class" =>
    if ← isNamedClass then
      let _ ← classTail rules
      return .unread .classDeclaration
    else failure
  | "export" =>
    if ← word "default" then
      exportedDeclaration rules <|> exportValue rules
    else
      exportedDeclaration rules
    return .unread .exportDeclaration
  | _ => failure

/-- A statement with a label. -/
def labeledStatement (rules : Rules) (w : String) : Parser Statement := do
  if (isReserved w && w ≠ "export") || w = "yield" || w = "undefined" then failure
  mark ":"
  let _ ← rules.statement
  return .unread .labeledStatement

/-- The word `let` starts a declaration: a name or a pattern follows, and no line break that ends
the statement. -/
def letDeclares : Parser Bool := do
  if ← mayEndHere true then return false
  match ← peek? with
  | some '[' => return true
  | some '{' => return true
  | _ =>
    match ← peekWord? with
    | some w => return w ≠ "in" && w ≠ "instanceof"
    | none => return false

/-- The word `export` starts an export. -/
def exportFollows : Parser Bool := do
  if ← mayEndHere true then return false
  match ← peek? with
  | some '*' => return true
  | some '{' => return true
  | some '@' => return true
  | _ =>
    match ← peekWord? with
    | some w => return w ≠ "in" && w ≠ "instanceof"
    | none => return false

/-- The statement that the word `w` starts, after the word; `start` is the text from the word on. -/
def keywordStatement (rules : Rules) (start : List Char) (w : String) : Parser Statement :=
  let asExpression : Parser Statement := do
    set start
    expressionStatement rules
  match w with
  | "var" => variableStatement rules "var"
  | "const" => variableStatement rules "const"
  | "let" => do if ← letDeclares then variableStatement rules "let" else asExpression
  | "if" => ifStatement rules
  | "for" => forStatement rules
  | "while" => whileStatement rules
  | "do" => doStatement rules
  | "try" => tryStatement rules
  | "throw" => throwStatement rules
  | "return" => returnStatement rules
  | "break" => jumpTail .breakStatement
  | "continue" => jumpTail .continueStatement
  | "debugger" => do
    semicolon false
    return .unread .debuggerStatement
  | "switch" => switchStatement rules
  | "with" => withStatement rules
  | "import" => do
    if (← looking "(") || (← looking ".") || (← looking "?") then asExpression
    else
      importStatement rules
      return .unread .importDeclaration
  | "export" => do if ← exportFollows then exportStatement rules else asExpression
  | "function" => do if ← isNamedFunction then functionStatement rules false else asExpression
  | "class" => do
    if ← isNamedClass then
      let _ ← classTail rules
      return .unread .classDeclaration
    else asExpression
  | "async" => do
    if !(← mayEndHere true) && (← word "function") && (← isNamedFunction) then
      functionStatement rules true
    else asExpression
  | "using" => usingStatement rules
  | "await" => do
    if !(← mayEndHere true) && (← word "using") then usingStatement rules else asExpression
  | _ => asExpression

/-- A statement that starts with a word. -/
def wordStatement (rules : Rules) : Parser Statement := do
  let start ← get
  let w ← anyWord
  if ← looking ":" then labeledStatement rules w
  else keywordStatement rules start w

/-- A statement. -/
def statementRule (rules : Rules) : Parser Statement := do
  let s := skipOperand (← get)
  set s
  match s with
  | ';' :: cs => do
    set cs
    return .empty
  | '{' :: _ => bracedStatement rules
  | '@' :: _ => decoratedStatement rules <|> expressionStatement rules
  | _ => if (word? s).isSome then wordStatement rules else expressionStatement rules

end Script

end ScriptWire
