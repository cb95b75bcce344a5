import ScriptWire.Literal.Number
import ScriptWire.Literal.Text
import ScriptWire.Script.Grammar
import ScriptWire.Tree.Basic

/-!
# Reading scripts

A script that follows the grammar is read into a syntax tree: literals are decoded, groups vanish,
and unread constructs become unsupported nodes. Statements, expressions and patterns may stand
inside each other up to a fixed number of levels.

## Main definitions

- `Script.ReadError` — why a script has no tree
- `Script.Statement.read`, `Script.Expression.read`, `Script.Pattern.read` — reading with a number
  of levels left
- `Script.read` — the program of a script
-/

namespace ScriptWire

namespace Script

/-- Why a script has no tree. -/
inductive ReadError
  /-- The text does not follow the grammar. -/
  | malformed
  /-- A literal denotes no value. -/
  | literal (cause : LiteralError)
  /-- Constructs stand inside each other on more than `limit` levels. -/
  | tooNested (limit : Nat)
deriving DecidableEq

/-- The number of levels on which constructs may stand inside each other. -/
def nestingLimit : Nat :=
  1000

/-- A decoded literal, or the fault in it. -/
def literally {α : Type} : Except LiteralError α → Except ReadError α
  | .ok a => .ok a
  | .error e => .error (.literal e)

/-- The value of a numeric literal, which may be a big integer. -/
def readNumber (text : String) : Except ReadError Tree.Expression :=
  if text.toList.getLast? = some 'n' then
    (literally (Literal.bigInt text)).map .bigIntLiteral
  else
    (literally (Literal.number text)).map .numericLiteral

/-- The kind of a method by the words in front of it. -/
def MethodMarks.kind (m : MethodMarks) : Tree.MethodKind :=
  if m.getter then .getter else if m.setter then .setter else .method

/-- A binary expression, which is a logical one for three operators. -/
def binaryNode (operator : String) (left right : Tree.Expression) : Tree.Expression :=
  if ["&&", "||", "??"].contains operator then .logicalExpression operator left right
  else .binaryExpression operator left right

/-- The name of a member as an expression. -/
def MemberName.node : MemberName → Tree.Expression
  | .plain name => .identifier name
  | .hidden => .unsupported UnreadExpression.privateName.kind

mutual

/-- The tree of a statement, with a number of levels left. -/
def Statement.read (levels : Nat) (s : Statement) : Except ReadError Tree.Statement :=
  match levels with
  | 0 => .error (.tooNested nestingLimit)
  | levels + 1 =>
    match s with
    | .empty => return .emptyStatement
    | .block body => return .blockStatement (← readStatements levels body)
    | .expression value => return .expressionStatement (← value.read levels)
    | .declaration keyword ds => return .variableDeclaration keyword (← readDeclarators levels ds)
    | .function name params body generator isAsync => do
      let params ← readPatterns levels params
      let body ← readStatements levels body
      return .functionDeclaration (some name) params body generator isAsync
    | .returns none => return .returnStatement none
    | .returns (some value) => return .returnStatement (some (← value.read levels))
    | .conditional test consequent none => do
      let test ← test.read levels
      let consequent ← consequent.read levels
      return .ifStatement test consequent none
    | .conditional test consequent (some alternate) => do
      let test ← test.read levels
      let consequent ← consequent.read levels
      return .ifStatement test consequent (some (← alternate.read levels))
    | .whileLoop test body => do
      let test ← test.read levels
      return .whileStatement test (← body.read levels)
    | .doLoop body test => do
      let body ← body.read levels
      return .doWhileStatement body (← test.read levels)
    | .forLoop init test update body => do
      let init ← readForHead? levels init
      let test ← readExpression? levels test
      let update ← readExpression? levels update
      return .forStatement init test update (← body.read levels)
    | .forIn left right body => do
      let right ← right.read levels
      let body ← body.read levels
      return .forInStatement (← left.read levels) right body
    | .forOf isAwait left right body => do
      let right ← right.read levels
      let body ← body.read levels
      return .forOfStatement (← left.read levels) right body isAwait
    | .tries block handler finalizer => do
      let block ← readStatements levels block
      let handler ← readHandler? levels handler
      return .tryStatement block handler (← readBlock? levels finalizer)
    | .throws value => return .throwStatement (← value.read levels)
    | .unread kind => return .unsupported kind.kind

/-- The trees of statements. -/
def readStatements (levels : Nat) : List Statement → Except ReadError (List Tree.Statement)
  | [] => return []
  | s :: rest => do
    let s ← s.read levels
    return s :: (← readStatements levels rest)

/-- The trees of the statements of a block that may be missing. -/
def readBlock? (levels : Nat) :
    Option (List Statement) → Except ReadError (Option (List Tree.Statement))
  | none => return none
  | some body => return some (← readStatements levels body)

/-- The tree of a variable. -/
def Declarator.read (levels : Nat) : Declarator → Except ReadError Tree.Declarator
  | .mk target value => do
    let target ← target.read levels
    return .mk target (← readExpression? levels value)

/-- The trees of variables. -/
def readDeclarators (levels : Nat) : List Declarator → Except ReadError (List Tree.Declarator)
  | [] => return []
  | d :: rest => do
    let d ← d.read levels
    return d :: (← readDeclarators levels rest)

/-- The tree of a loop head. -/
def ForHead.read (levels : Nat) : ForHead → Except ReadError Tree.ForInit
  | .declaration keyword ds => return .variableDeclaration keyword (← readDeclarators levels ds)
  | .expression value => return .expression (← value.read levels)

/-- The tree of a loop head that may be missing. -/
def readForHead? (levels : Nat) : Option ForHead → Except ReadError (Option Tree.ForInit)
  | none => return none
  | some head => return some (← head.read levels)

/-- The tree of a `catch` clause. -/
def Handler.read (levels : Nat) : Handler → Except ReadError Tree.CatchClause
  | .mk none body => return .mk none (← readStatements levels body)
  | .mk (some param) body => do
    let param ← param.read levels
    return .mk (some param) (← readStatements levels body)

/-- The tree of a `catch` clause that may be missing. -/
def readHandler? (levels : Nat) : Option Handler → Except ReadError (Option Tree.CatchClause)
  | none => return none
  | some handler => return some (← handler.read levels)

/-- The tree of an expression, with a number of levels left. -/
def Expression.read (levels : Nat) (e : Expression) : Except ReadError Tree.Expression :=
  match levels with
  | 0 => .error (.tooNested nestingLimit)
  | levels + 1 =>
    match e with
    | .identifier name => return .identifier name
    | .number text => readNumber text
    | .string text => return .stringLiteral (← literally (Literal.unquote text))
    | .regex body flags => return .regExpLiteral body flags
    | .boolean value => return .booleanLiteral value
    | .null => return .nullLiteral
    | .this => return .thisExpression
    | .group inner => inner.read levels
    | .assign operator left right => do
      let left ← left.read levels
      return .assignmentExpression operator left (← right.read levels)
    | .object members => return .objectExpression (← readMembers levels members)
    | .array items => return .arrayExpression (← readItems levels true items)
    | .function name params body generator isAsync => do
      let params ← readPatterns levels params
      let body ← readStatements levels body
      return .functionExpression name params body generator isAsync
    | .arrow isAsync params body => do
      let params ← readPatterns levels params
      return .arrowFunctionExpression none params (← body.read levels) false isAsync
    | .call callee arguments => do
      let callee ← callee.read levels
      return .callExpression callee (← readExpressions levels arguments)
    | .construct callee arguments => do
      let arguments ← readExpressions levels arguments
      return .newExpression (← callee.read levels) arguments
    | .member object name => return .memberExpression (← object.read levels) name.node false
    | .index object place => do
      let object ← object.read levels
      return .memberExpression object (← place.read levels) true
    | .unary operator argument => return .unaryExpression operator true (← argument.read levels)
    | .binary operator left right => do
      let left ← left.read levels
      return binaryNode operator left (← right.read levels)
    | .update operator isPrefix argument =>
      return .updateExpression operator isPrefix (← argument.read levels)
    | .yields argument delegate =>
      return .yieldExpression (← readExpression? levels argument) delegate
    | .awaits argument => return .awaitExpression (← argument.read levels)
    | .conditional test consequent alternate => do
      let test ← test.read levels
      let consequent ← consequent.read levels
      return .conditionalExpression test consequent (← alternate.read levels)
    | .sequence es => return .sequenceExpression (← readExpressions levels es)
    | .spread argument => return .spreadElement (← argument.read levels)
    | .unread kind => return .unsupported kind.kind

/-- The tree of an expression that may be missing. -/
def readExpression? (levels : Nat) :
    Option Expression → Except ReadError (Option Tree.Expression)
  | none => return none
  | some e => return some (← e.read levels)

/-- The trees of expressions. -/
def readExpressions (levels : Nat) : List Expression → Except ReadError (List Tree.Expression)
  | [] => return []
  | e :: rest => do
    let e ← e.read levels
    return e :: (← readExpressions levels rest)

/-- The elements of an array literal. A comma without an element in front of it stands for a hole;
`vacant` tells that none stands there yet. -/
def readItems (levels : Nat) (vacant : Bool) :
    List ArrayItem → Except ReadError (List (Option Tree.Expression))
  | [] => return []
  | .comma :: rest => do
    let rest ← readItems levels true rest
    return if vacant then none :: rest else rest
  | .element value :: rest => do
    let value ← value.read levels
    return some value :: (← readItems levels false rest)

/-- The tree of the body of an arrow function. -/
def ArrowBody.read (levels : Nat) : ArrowBody → Except ReadError Tree.ArrowBody
  | .block body => return .blockStatement (← readStatements levels body)
  | .expression value => return .expression (← value.read levels)

/-- The tree of a pattern, with a number of levels left. -/
def Pattern.read (levels : Nat) (p : Pattern) : Except ReadError Tree.Pattern :=
  match levels with
  | 0 => .error (.tooNested nestingLimit)
  | levels + 1 =>
    match p with
    | .identifier name => return .identifier name
    | .withDefault target value => do
      let target ← target.read levels
      return .assignmentPattern target (← value.read levels)
    | .rest target => return .restElement (← target.read levels)
    | .object => return .objectPattern
    | .array => return .arrayPattern
    | .memberAccess => return .unsupported memberAccessKind

/-- The trees of patterns. -/
def readPatterns (levels : Nat) : List Pattern → Except ReadError (List Tree.Pattern)
  | [] => return []
  | p :: rest => do
    let p ← p.read levels
    return p :: (← readPatterns levels rest)

/-- The tree of a member. -/
def Member.read (levels : Nat) : Member → Except ReadError Tree.Member
  | .pair key value => do
    let (key, computed) ← key.read levels
    return .objectProperty key (← value.read levels) computed false false
  | .shorthand name =>
    return .objectProperty (.identifier name) (.identifier name) false true false
  | .method marks key params body => do
    let (key, computed) ← key.read levels
    let params ← readPatterns levels params
    let body ← readStatements levels body
    return .objectMethod marks.kind key params body computed false marks.generator marks.isAsync
  | .spread argument => return .spreadElement (← argument.read levels)

/-- The trees of members. -/
def readMembers (levels : Nat) : List Member → Except ReadError (List Tree.Member)
  | [] => return []
  | m :: rest => do
    let m ← m.read levels
    return m :: (← readMembers levels rest)

/-- The tree of a key, and whether it is computed. -/
def MemberKey.read (levels : Nat) : MemberKey → Except ReadError (Tree.Expression × Bool)
  | .name text => return (.identifier text, false)
  | .computed value => return (← value.read levels, true)
  | .literal value => return (← value.read levels, false)

end

/-- The program of a script. -/
def read (source : String) : Except ReadError Tree.Program :=
  match parse? source.toList with
  | none => .error .malformed
  | some statements => return ⟨← readStatements nestingLimit statements⟩

end Script

end ScriptWire
