import ScriptWire.Script.Grammar.Markup
import ScriptWire.Script.Grammar.Member
import ScriptWire.Script.Grammar.Operator

/-!
# Expressions

An expression is an operand and what follows it. An assignment, an arrow function or a `yield` may
be the right operand of any operator and takes the longest expression to its right.

## Main definitions

- `Script.operandRule` — an operand with the operators in front of it
- `Script.expressionRule` — an expression that binds tighter than a level
-/

namespace ScriptWire

namespace Script

/-- The expression can be tagged to a template and called optionally. -/
def isPrimary : Expression → Bool
  | .assign .. => false
  | .construct .. => false
  | .unary .. => false
  | .binary .. => false
  | .update .. => false
  | .yields .. => false
  | .awaits .. => false
  | .conditional .. => false
  | .sequence .. => false
  | .spread .. => false
  | .unread .markupElement => false
  | .unread .importWord => false
  | _ => true

/-- The expression is an instantiation. -/
def isConstruct : Expression → Bool
  | .construct .. => true
  | _ => false

/-- Words that start a statement or an expression and are no keys right after the brace that may
open a block. -/
def blockWords : List String :=
  ["break", "class", "const", "continue", "debugger", "delete", "do", "false", "for", "function",
   "if", "import", "new", "null", "return", "super", "switch", "this", "throw", "true", "try",
   "typeof", "undefined", "using", "var", "void", "while", "with", "yield"]

/-- What a brace opens where a block and an object literal can both stand. -/
inductive Braced
  /-- A block in any case. -/
  | block
  /-- A block, or else an object literal. -/
  | blockFirst
  /-- An object literal, or else a block. -/
  | objectFirst

/-- What the brace in front of the text `s` opens, by the word after it: a word that is a whole
statement or is followed by a comma starts a block, and one with a colon is a key if it can be. -/
def braced (s : List Char) : Braced :=
  match word? (skipOperand s) with
  | some (w, rest) =>
    if blockWords.contains (String.ofList w) || endsStatement true rest then .block
    else
      match (skip rest).head? with
      | some ',' => .block
      | some ':' => .objectFirst
      | _ => .blockFirst
  | none => .blockFirst

/-- The body of an arrow function that is an expression. -/
def arrowExpression (rules : Rules) (mode : Mode) : Parser ArrowBody := do
  return .expression (← expression rules mode)

/-- The body of an arrow function that is a block. -/
def arrowBlock (rules : Rules) : Parser ArrowBody := do
  return .block (← block rules)

/-- The body of an arrow function. -/
def arrowBody (rules : Rules) (mode : Mode) : Parser ArrowBody := do
  match skip (← get) with
  | '{' :: cs =>
    match braced cs with
    | .block => arrowBlock rules
    | .blockFirst => arrowBlock rules <|> arrowExpression rules mode
    | .objectFirst => arrowExpression rules mode <|> arrowBlock rules
  | _ => arrowExpression rules mode

/-- An arrow function from its arrow on. -/
def arrowTail (rules : Rules) (mode : Mode) (isAsync : Bool) (params : List Pattern) :
    Parser Operand := do
  mark "=>"
  return .plain (.arrow isAsync params (← arrowBody rules mode))

/-- A name, which is a parameter if an arrow follows. -/
def identifierTail (rules : Rules) (mode : Mode) (w : String) : Parser Operand := do
  if w ≠ "undefined" then
    if ← looking "=>" then
      return ← arrowTail rules mode false [.identifier w]
  return .place (.identifier w)

/-- What stands in parentheses: parameters if an arrow follows, else an expression. -/
def parenthesisTail (rules : Rules) (mode : Mode) : Parser Operand := do
  let (os, trailing) ← separated? (← items rules ')' rules.bound false)
  if ← looking "=>" then
    if os.all Operand.binding then
      arrowTail rules mode false (os.map fun o => patternOf o.expr)
    else failure
  else if trailing then
    failure
  else
    match ← settleAll os with
    | [] => failure
    | [.spread _] => failure
    | [e] => return .plain (.group e)
    | es =>
      if es.any fun | .spread _ => true | _ => false then failure
      else return .plain (.group (.sequence es))

/-- A function after the word `function`. -/
def functionOperand (rules : Rules) (isAsync : Bool) : Parser Operand := do
  let (generator, functionName, params, body) ← functionTail rules
  return .plain (.function functionName params body generator isAsync)

/-- What follows the word `async`: a function, an arrow function with a single name as its
parameter, or nothing that belongs to it. -/
def asyncTail (rules : Rules) (mode : Mode) : Parser Operand := do
  let ended ← if mode.mayEnd then mayEndHere true else pure false
  if ended then
    return .place (.identifier "async")
  match ← peekWord? with
  | some "function" =>
    let _ ← anyWord
    functionOperand rules true
  | some w =>
    let start ← get
    let _ ← anyWord
    if (← looking "=>") && !isReserved w then
      arrowTail rules mode true [.identifier w]
    else
      set start
      return .place (.identifier "async")
  | none => identifierTail rules mode "async"

/-- Reserved words that an operand can start with. -/
def operandWords : List String :=
  ["class", "delete", "export", "false", "function", "import", "new", "null", "super", "this",
   "true", "typeof", "void"]

/-- Whether an operand starts here, rather than an operator that continues the expression. -/
def startsOperand (s : List Char) : Bool :=
  match word? s with
  | some (w, _) => !isReserved (String.ofList w) || operandWords.contains (String.ofList w)
  | none =>
    match s with
    | [] => false
    | '.' :: cs => cs.head?.any Char.isDigit
    | '<' :: cs => cs.head? != some '<' && cs.head? != some '='
    | c :: cs =>
      c.isDigit || "([\x7b\x22\x27\x60#@~".toList.contains c
        || "+-!/".toList.contains c && cs.head? != some '='

/-- The operand of an `await`. -/
def awaited (rules : Rules) (mode : Mode) : Parser Operand := do
  let o ← rules.expression Level.unary.rank mode
  return .plain (.awaits (← o.settle))

/-- What follows the word `await`: an operand, or nothing that belongs to it. -/
def awaitTail (rules : Rules) (mode : Mode) : Parser Operand := do
  let ended ← if mode.mayEnd then mayEndHere true else pure false
  if !ended && startsOperand (skipOperand (← get)) then
    awaited rules mode
  else
    identifierTail rules mode "await"

/-- What follows the word `yield`. -/
def yieldTail (rules : Rules) (mode : Mode) : Parser Operand := do
  let ended ← if mode.mayEnd then mayEndHere true else pure false
  if ended then
    return .plain (.yields none false)
  else if (← looking "*") && !(← looking "**") then
    mark "*"
    return .plain (.yields (some (← expression rules mode)) true)
  else if startsOperand (skipOperand (← get)) then
    return .plain (.yields (some (← expression rules mode)) false)
  else
    return .plain (.yields none false)

/-- What follows the word `new`. -/
def newTail (rules : Rules) (mode : Mode) : Parser Operand := do
  if !startsOperand (skip (← get)) then
    mark "."
    expectWord "target"
    return .plain (.unread .metaProperty)
  let o ← rules.expression Level.call.rank mode
  let callee ← o.settle
  if isPrimary callee || isConstruct callee then
    let arguments ← if ← mark? "(" then argumentsTail rules else pure []
    return .plain (.construct callee arguments)
  else
    failure

/-- What follows the word `import` in an expression. -/
def importTail : Parser Operand := do
  let start ← get
  if ← mark? "." then
    if ← word "meta" then
      return .plain (.unread .metaProperty)
    set start
    return .plain (.unread .importWord)
  else if (← looking "(") || (← looking "?.") then
    return .plain (.unread .importWord)
  else
    failure

/-- An operand after an operator word. -/
def unaryTail (rules : Rules) (mode : Mode) (operator : String) : Parser Operand := do
  let o ← rules.expression Level.unary.rank mode
  return .plain (.unary operator (← o.settle))

/-- An operand after a doubled sign. -/
def updateTail (rules : Rules) (mode : Mode) (operator : String) : Parser Operand := do
  let o ← rules.expression Level.update.rank mode
  return .plain (.update operator true (← o.settle))

/-- A class as an operand, after the word `class`. -/
def classOperand (rules : Rules) : Parser Operand := do
  let _ ← classTail rules
  return .plain (.unread .classExpression)

/-- An operand that starts with the word `w`. -/
def wordOperand (rules : Rules) (mode : Mode) (w : String) : Parser Operand :=
  match w with
  | "function" => functionOperand rules false
  | "async" => asyncTail rules mode
  | "await" => awaitTail rules mode
  | "yield" => yieldTail rules mode
  | "class" => classOperand rules
  | "new" => newTail rules mode
  | "import" => importTail
  | "this" => pure (.plain .this)
  | "null" => pure (.plain .null)
  | "true" => pure (.plain (.boolean true))
  | "false" => pure (.plain (.boolean false))
  | "super" => pure (.plain (.unread .superWord))
  | "typeof" => unaryTail rules mode w
  | "void" => unaryTail rules mode w
  | "delete" => unaryTail rules mode w
  | _ => if isReserved w && w ≠ "export" then failure else identifierTail rules mode w

/-- The parts of a template after its opening mark or a substitution. -/
def templateParts (rules : Rules) : Nat → Parser Unit
  | 0 => failure
  | fuel + 1 => do
    let (ending, rest) ← templateTail (← get)
    set rest
    match ending with
    | .closed => pure ()
    | .substitution =>
      let _ ← expressions rules Mode.inner
      mark "\x7d"
      templateParts rules fuel

/-- A regular expression after its opening slash. -/
def regexTail : Parser Operand := do
  let (body, rest) ← pattern? (← get)
  let (flags, rest) := stretch (fun c => 'a' ≤ c && c ≤ 'z') rest
  set rest
  return .plain (.regex (String.ofList body) (String.ofList flags))

/-- A private name in front of the word `in`. -/
def privateTest (rules : Rules) (mode : Mode) : Parser Operand := do
  privateName
  expectWord "in"
  let o ← rules.expression Level.relation.rank mode
  return .plain (.binary "in" (.unread .privateName) (← o.settle))

/-- A class with decorators. -/
def decoratedClass (rules : Rules) : Parser Operand := do
  decorators rules rules.bound
  expectWord "class"
  classOperand rules

/-- A number or a word. -/
def plainOperand (rules : Rules) (mode : Mode) : Parser Operand := do
  let s ← get
  match number? s with
  | some (text, rest) =>
    set rest
    return .plain (.number (String.ofList text))
  | none =>
    let w ← anyWord
    wordOperand rules mode w

/-- A template as an operand, after its opening mark. -/
def templateOperand (rules : Rules) : Parser Operand := do
  templateParts rules rules.bound
  return .plain (.unread .templateLiteral)

/-- A string as an operand. -/
def stringOperand : Parser Operand := do
  return .plain (.string (← string))

/-- A markup element as an operand. -/
def markupOperand (rules : Rules) : Parser Operand := do
  markupElement rules
  return .plain (.unread .markupElement)

/-- An operand with the operators in front of it. -/
def operandRule (rules : Rules) (mode : Mode) : Parser Operand := do
  let s := skipOperand (← get)
  set s
  match s with
  | '(' :: cs => do
    set cs
    parenthesisTail rules mode
  | '[' :: cs => do
    set cs
    arrayTail rules
  | '{' :: cs => do
    set cs
    objectTail rules
  | '\x22' :: _ => stringOperand
  | '\x27' :: _ => stringOperand
  | '\x60' :: cs => do
    set cs
    templateOperand rules
  | '/' :: cs => do
    set cs
    regexTail
  | '<' :: _ => markupOperand rules
  | '#' :: _ => privateTest rules mode
  | '@' :: _ => decoratedClass rules
  | '+' :: '+' :: cs => do
    set cs
    updateTail rules mode "++"
  | '-' :: '-' :: cs => do
    set cs
    updateTail rules mode "--"
  | '+' :: cs => do
    set cs
    unaryTail rules mode "+"
  | '-' :: cs => do
    set cs
    unaryTail rules mode "-"
  | '!' :: cs => do
    set cs
    unaryTail rules mode "!"
  | '~' :: cs => do
    set cs
    unaryTail rules mode "~"
  | _ => plainOperand rules mode

/-- The member after a point. -/
def pointTail (e : Expression) : Parser Operand := do
  if (← peek?) = some '#' then
    privateName
    return .place (.member e .hidden)
  else
    return .place (.member e (.plain (← anyWord)))

/-- What follows an optional access mark. -/
def optionalTail (rules : Rules) (e : Expression) : Parser Operand := do
  match ← peek? with
  | some '(' =>
    if isPrimary e then
      mark "("
      let _ ← argumentsTail rules
      return .plain (.unread .optionalCall)
    else failure
  | some '[' =>
    mark "["
    let _ ← expressions rules Mode.inner
    mark "]"
    return .place (.unread .optionalMember)
  | some '#' =>
    privateName
    return .place (.unread .optionalMember)
  | _ =>
    let _ ← anyWord
    return .place (.unread .optionalMember)

/-- An index after its opening bracket. -/
def indexTail (rules : Rules) (e : Expression) : Parser Operand := do
  let place ← expressions rules Mode.inner
  mark "]"
  return .place (.index e place)

/-- The parts of a conditional expression after its question mark. -/
def conditionalTail (rules : Rules) (mode : Mode) (test : Expression) : Parser Operand := do
  let consequent ← expression rules Mode.inner
  mark ":"
  let alternate ← expression rules mode
  return .plain (.conditional test consequent alternate)

/-- The left side of an assignment, if the operand can be one: for a plain assignment a pattern or
an expression in parentheses, else a name, an access or an expression in parentheses. -/
def assigned? (operator : String) (o : Operand) : Option Expression :=
  match o.expr with
  | .group e => some (.group e)
  | .object _ => if operator = "=" && o.target then some (.unread .objectPattern) else none
  | .array _ => if operator = "=" && o.target then some (.unread .arrayPattern) else none
  | .identifier w => if operator = "=" || w ≠ "undefined" then some (.identifier w) else none
  | e => if o.target then some e else none

/-- An assignment after its operator. -/
def assignTail (rules : Rules) (mode : Mode) (operator : String) (left : Operand)
    (target : Expression) : Parser Operand := do
  let right ← expression rules mode
  return ⟨.assign operator target right, false, operator = "=" && left.target, false⟩

/-- A binary expression after its operator. -/
def binaryTail (rules : Rules) (mode : Mode) (operator : String) (level : Level)
    (left : Expression) : Parser Operand := do
  let o ← rules.expression (rightRank operator level) mode
  return .plain (.binary operator left (← o.settle))

/-- What follows an operand with a list in parentheses, after the opening one. The word `async` with
parameters and an arrow is a function; else the list holds arguments, for which the operand must
bind less tightly than a call. -/
def callTail (rules : Rules) (level : Nat) (mode : Mode) (left : Operand) :
    Parser (Option Operand) := do
  let list ← items rules ')' rules.bound false
  let isAsync := left.expr matches .identifier "async"
  if isAsync && (← looking "=>") then
    let (os, _) ← separated? list
    if os.all Operand.binding then
      return some (← arrowTail rules mode true (os.map fun o => patternOf o.expr))
    else failure
  else if level < Level.call.rank then
    let callee ← left.settle
    return some (.plain (.call callee (← settleAll (operandsOf list))))
  else
    return none

/-- The operand together with what follows it and binds tighter than `level`. -/
def climb (rules : Rules) (level : Nat) (mode : Mode) : Nat → Operand → Parser Operand
  | 0, _ => failure
  | fuel + 1, left => do
    let s ← get
    match follow? (skip s) with
    | none => return left
    | some (.point, rest) =>
      if level < Level.access.rank then
        set rest
        climb rules level mode fuel (← pointTail (← left.settle))
      else return left
    | some (.optionalPoint, rest) =>
      if level < Level.access.rank then
        set rest
        climb rules level mode fuel (← optionalTail rules (← left.settle))
      else return left
    | some (.bracket, rest) =>
      if level < Level.access.rank then
        set rest
        climb rules level mode fuel (← indexTail rules (← left.settle))
      else return left
    | some (.template, rest) =>
      if level < Level.access.rank && (isPrimary left.expr || isConstruct left.expr) then
        set rest
        let _ ← left.settle
        templateParts rules rules.bound
        climb rules level mode fuel (.plain (.unread .taggedTemplate))
      else return left
    | some (.parenthesis, rest) =>
      if level < Level.call.rank || left.expr matches .identifier "async" then
        set rest
        match ← callTail rules level mode left with
        | some call => climb rules level mode fuel call
        | none =>
          set s
          return left
      else return left
    | some (.update operator, rest) =>
      if level < Level.update.rank && !(mode.mayEnd && endsStatement true s) then
        set rest
        climb rules level mode fuel (.plain (.update operator false (← left.settle)))
      else return left
    | some (.conditional, rest) =>
      if level < Level.conditional.rank then
        set rest
        conditionalTail rules mode (← left.settle)
      else return left
    | some (.assign operator, rest) =>
      match assigned? operator left with
      | some target =>
        set rest
        assignTail rules mode operator left target
      | none => return left
    | some (.binary operator operatorLevel, rest) =>
      if level < operatorLevel.rank && !(mode.noIn && operator = "in") then
        set rest
        climb rules level mode fuel (← binaryTail rules mode operator operatorLevel (← left.settle))
      else return left

/-- An expression that binds tighter than `level`. -/
def expressionRule (rules : Rules) (level : Nat) (mode : Mode) : Parser Operand := do
  climb rules level mode rules.bound (← operandRule rules mode)

end Script

end ScriptWire
