import ScriptWire.Binary64.Basic

/-!
# Syntax trees

The tree that both readers produce and that lowering consumes. Every level has an `unsupported`
form, which keeps the kind of a construct that the tree has no shape for.

## Main definitions

- `Tree.Statement`, `Tree.Expression`, `Tree.Pattern`, `Tree.Member` — the four levels
- `Tree.Program` — a list of statements
-/

namespace ScriptWire

namespace Tree

/-- The three ways in which a method is called. -/
inductive MethodKind
  | method
  | getter
  | setter
deriving DecidableEq, Inhabited

mutual

/-- A statement. -/
inductive Statement
  | emptyStatement
  | blockStatement (body : List Statement)
  | expressionStatement (expression : Expression)
  | variableDeclaration (kind : String) (declarations : List Declarator)
  | functionDeclaration (id : Option String) (params : List Pattern) (body : List Statement)
      (generator isAsync : Bool)
  | returnStatement (argument : Option Expression)
  | ifStatement (test : Expression) (consequent : Statement) (alternate : Option Statement)
  | whileStatement (test : Expression) (body : Statement)
  | doWhileStatement (body : Statement) (test : Expression)
  | forStatement (init : Option ForInit) (test update : Option Expression) (body : Statement)
  | forInStatement (left : ForInit) (right : Expression) (body : Statement)
  | forOfStatement (left : ForInit) (right : Expression) (body : Statement) (isAwait : Bool)
  | tryStatement (block : List Statement) (handler : Option CatchClause)
      (finalizer : Option (List Statement))
  | throwStatement (argument : Expression)
  | unsupported (kind : String)

/-- One variable of a declaration. -/
inductive Declarator
  | mk (id : Pattern) (init : Option Expression)

/-- The first part of the head of a loop. -/
inductive ForInit
  | variableDeclaration (kind : String) (declarations : List Declarator)
  | expression (expression : Expression)

/-- A `catch` clause. -/
inductive CatchClause
  | mk (param : Option Pattern) (body : List Statement)

/-- An expression. -/
inductive Expression
  | identifier (name : String)
  | numericLiteral (value : Binary64)
  | bigIntLiteral (value : String)
  | stringLiteral (value : String)
  | regExpLiteral (pattern flags : String)
  | booleanLiteral (value : Bool)
  | nullLiteral
  | thisExpression
  | intrinsicIdentifier (name : String)
  | assignmentExpression (operator : String) (left right : Expression)
  | objectExpression (properties : List Member)
  | arrayExpression (elements : List (Option Expression))
  | functionExpression (id : Option String) (params : List Pattern) (body : List Statement)
      (generator isAsync : Bool)
  | arrowFunctionExpression (id : Option String) (params : List Pattern) (body : ArrowBody)
      (generator isAsync : Bool)
  | callExpression (callee : Expression) (arguments : List Expression)
  | newExpression (callee : Expression) (arguments : List Expression)
  | memberExpression (object property : Expression) (computed : Bool)
  | unaryExpression (operator : String) (isPrefix : Bool) (argument : Expression)
  | binaryExpression (operator : String) (left right : Expression)
  | logicalExpression (operator : String) (left right : Expression)
  | updateExpression (operator : String) (isPrefix : Bool) (argument : Expression)
  | yieldExpression (argument : Option Expression) (delegate : Bool)
  | awaitExpression (argument : Expression)
  | conditionalExpression (test consequent alternate : Expression)
  | sequenceExpression (expressions : List Expression)
  | spreadElement (argument : Expression)
  | unsupported (kind : String)

/-- The body of an arrow function. -/
inductive ArrowBody
  | blockStatement (body : List Statement)
  | expression (expression : Expression)

/-- A binding. -/
inductive Pattern
  | identifier (name : String)
  | assignmentPattern (left : Pattern) (right : Expression)
  | restElement (argument : Pattern)
  | objectPattern
  | arrayPattern
  | unsupported (kind : String)

/-- A member of an object literal. -/
inductive Member
  | objectProperty (key value : Expression) (computed shorthand method : Bool)
  | objectMethod (kind : MethodKind) (key : Expression) (params : List Pattern)
      (body : List Statement) (computed shorthand generator isAsync : Bool)
  | spreadElement (argument : Expression)
  | unsupported (kind : String)

end

/-- A program: its statements in order. -/
structure Program where
  body : List Statement

end Tree

end ScriptWire
