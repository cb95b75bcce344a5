import ScriptWire.Document.Value
import ScriptWire.Tree.Kind

/-!
# Trees as documents

A node is an object whose `type` names its kind and which has a member for every part, absent parts
being `null`. Names of functions, blocks that are no statements, declarators and catch clauses have
no `type`, since nothing else can stand in their place.

## Main definitions

- `Estree.program` — the document of a program
- `Estree.typedProgram` — the same with the type of a root node
- `Estree.sameProgram` — the equality of programs
-/

namespace ScriptWire

namespace Estree

open Document (Value)
open ScriptWire.Tree

/-- An object with the given members. -/
def record (members : List (String × Value)) : Value :=
  .object (Document.ofMembers members)

/-- A node of the given kind. -/
def node (kind : String) (members : List (String × Value)) : Value :=
  record (("type", .string kind) :: members)

/-- The name of a function. -/
def nameOf (id : Option String) : Value :=
  match id with
  | none => .null
  | some name => record [("name", .string name)]

/-- The word for a kind of method. -/
def methodWord : MethodKind → String
  | .method => "method"
  | .getter => "get"
  | .setter => "set"

/-- A number. Documents have no infinite numbers, so one that is not finite is left out. -/
def number (x : Binary64) : Value :=
  if x.isFinite then .float x else .null

/-- A block that is no statement. -/
def block (statements : List Value) : Value :=
  record [("body", .array statements)]

mutual

/-- The document of a statement. -/
def statement : Statement → Value
  | .emptyStatement => node "EmptyStatement" []
  | .blockStatement body => node "BlockStatement" [("body", .array (statements body))]
  | .expressionStatement e => node "ExpressionStatement" [("expression", expression e)]
  | .variableDeclaration kind declarations =>
    node "VariableDeclaration"
      [("kind", .string kind), ("declarations", .array (declarators declarations))]
  | .functionDeclaration id params body generator isAsync =>
    node "FunctionDeclaration"
      [("id", nameOf id), ("params", .array (patterns params)), ("body", block (statements body)),
        ("generator", .boolean generator), ("async", .boolean isAsync)]
  | .returnStatement argument => node "ReturnStatement" [("argument", expression? argument)]
  | .ifStatement test consequent alternate =>
    node "IfStatement"
      [("test", expression test), ("consequent", statement consequent),
        ("alternate", statement? alternate)]
  | .whileStatement test body =>
    node "WhileStatement" [("test", expression test), ("body", statement body)]
  | .doWhileStatement body test =>
    node "DoWhileStatement" [("body", statement body), ("test", expression test)]
  | .forStatement init test update body =>
    node "ForStatement"
      [("init", forInit? init), ("test", expression? test), ("update", expression? update),
        ("body", statement body)]
  | .forInStatement left right body =>
    node "ForInStatement"
      [("left", forInit left), ("right", expression right), ("body", statement body)]
  | .forOfStatement left right body isAwait =>
    node "ForOfStatement"
      [("left", forInit left), ("right", expression right), ("body", statement body),
        ("await", .boolean isAwait)]
  | .tryStatement body handler finalizer =>
    node "TryStatement"
      [("block", block (statements body)), ("handler", catchClause? handler),
        ("finalizer", block? finalizer)]
  | .throwStatement argument => node "ThrowStatement" [("argument", expression argument)]
  | .unsupported kind => node kind []

/-- The documents of statements. -/
def statements : List Statement → List Value
  | [] => []
  | s :: rest => statement s :: statements rest

/-- The document of an optional statement. -/
def statement? : Option Statement → Value
  | none => .null
  | some s => statement s

/-- The document of an optional block. -/
def block? : Option (List Statement) → Value
  | none => .null
  | some body => block (statements body)

/-- The document of one variable of a declaration. -/
def declarator : Declarator → Value
  | .mk id init => record [("id", pattern id), ("init", expression? init)]

/-- The documents of the variables of a declaration. -/
def declarators : List Declarator → List Value
  | [] => []
  | d :: rest => declarator d :: declarators rest

/-- The document of the first part of a loop. -/
def forInit : ForInit → Value
  | .variableDeclaration kind declarations =>
    node "VariableDeclaration"
      [("kind", .string kind), ("declarations", .array (declarators declarations))]
  | .expression e => expression e

/-- The document of the optional first part of a loop. -/
def forInit? : Option ForInit → Value
  | none => .null
  | some init => forInit init

/-- The document of an optional catch clause. -/
def catchClause? : Option CatchClause → Value
  | none => .null
  | some (.mk param body) =>
    record [("param", pattern? param), ("body", block (statements body))]

/-- The document of an expression. -/
def expression : Expression → Value
  | .identifier name => node "Identifier" [("name", .string name)]
  | .numericLiteral value => node "NumericLiteral" [("value", number value)]
  | .bigIntLiteral value => node "BigIntLiteral" [("value", .string value)]
  | .stringLiteral value => node "StringLiteral" [("value", .string value)]
  | .regExpLiteral pattern flags =>
    node "RegExpLiteral" [("pattern", .string pattern), ("flags", .string flags)]
  | .booleanLiteral value => node "BooleanLiteral" [("value", .boolean value)]
  | .nullLiteral => node "NullLiteral" []
  | .thisExpression => node "ThisExpression" []
  | .intrinsicIdentifier name => node "V8IntrinsicIdentifier" [("name", .string name)]
  | .assignmentExpression operator left right =>
    node "AssignmentExpression"
      [("operator", .string operator), ("left", expression left), ("right", expression right)]
  | .objectExpression properties =>
    node "ObjectExpression" [("properties", .array (members properties))]
  | .arrayExpression elements =>
    node "ArrayExpression" [("elements", .array (expressions? elements))]
  | .functionExpression id params body generator isAsync =>
    node "FunctionExpression"
      [("id", nameOf id), ("params", .array (patterns params)), ("body", block (statements body)),
        ("generator", .boolean generator), ("async", .boolean isAsync)]
  | .arrowFunctionExpression id params body generator isAsync =>
    node "ArrowFunctionExpression"
      [("id", nameOf id), ("params", .array (patterns params)), ("body", arrowBody body),
        ("generator", .boolean generator), ("async", .boolean isAsync)]
  | .callExpression callee arguments =>
    node "CallExpression"
      [("callee", expression callee), ("arguments", .array (expressions arguments))]
  | .newExpression callee arguments =>
    node "NewExpression"
      [("callee", expression callee), ("arguments", .array (expressions arguments))]
  | .memberExpression object property computed =>
    node "MemberExpression"
      [("object", expression object), ("property", expression property),
        ("computed", .boolean computed)]
  | .unaryExpression operator isPrefix argument =>
    node "UnaryExpression"
      [("operator", .string operator), ("prefix", .boolean isPrefix),
        ("argument", expression argument)]
  | .binaryExpression operator left right =>
    node "BinaryExpression"
      [("operator", .string operator), ("left", expression left), ("right", expression right)]
  | .logicalExpression operator left right =>
    node "LogicalExpression"
      [("operator", .string operator), ("left", expression left), ("right", expression right)]
  | .updateExpression operator isPrefix argument =>
    node "UpdateExpression"
      [("operator", .string operator), ("prefix", .boolean isPrefix),
        ("argument", expression argument)]
  | .yieldExpression argument delegate =>
    node "YieldExpression" [("argument", expression? argument), ("delegate", .boolean delegate)]
  | .awaitExpression argument => node "AwaitExpression" [("argument", expression argument)]
  | .conditionalExpression test consequent alternate =>
    node "ConditionalExpression"
      [("test", expression test), ("consequent", expression consequent),
        ("alternate", expression alternate)]
  | .sequenceExpression parts =>
    node "SequenceExpression" [("expressions", .array (expressions parts))]
  | .spreadElement argument => node "SpreadElement" [("argument", expression argument)]
  | .unsupported kind => node kind []

/-- The documents of expressions. -/
def expressions : List Expression → List Value
  | [] => []
  | e :: rest => expression e :: expressions rest

/-- The document of an optional expression. -/
def expression? : Option Expression → Value
  | none => .null
  | some e => expression e

/-- The documents of optional expressions. -/
def expressions? : List (Option Expression) → List Value
  | [] => []
  | e :: rest => expression? e :: expressions? rest

/-- The document of the body of an arrow function. -/
def arrowBody : ArrowBody → Value
  | .blockStatement body => node "BlockStatement" [("body", .array (statements body))]
  | .expression e => expression e

/-- The document of a binding. -/
def pattern : Pattern → Value
  | .identifier name => node "Identifier" [("name", .string name)]
  | .assignmentPattern left right =>
    node "AssignmentPattern" [("left", pattern left), ("right", expression right)]
  | .restElement argument => node "RestElement" [("argument", pattern argument)]
  | .objectPattern => node "ObjectPattern" []
  | .arrayPattern => node "ArrayPattern" []
  | .unsupported kind => node kind []

/-- The documents of bindings. -/
def patterns : List Pattern → List Value
  | [] => []
  | p :: rest => pattern p :: patterns rest

/-- The document of an optional binding. -/
def pattern? : Option Pattern → Value
  | none => .null
  | some p => pattern p

/-- The document of a member of an object literal. -/
def member : Member → Value
  | .objectProperty key value computed shorthand method =>
    node "ObjectProperty"
      [("key", expression key), ("value", expression value), ("computed", .boolean computed),
        ("shorthand", .boolean shorthand), ("method", .boolean method)]
  | .objectMethod kind key params body computed shorthand generator isAsync =>
    node "ObjectMethod"
      [("kind", .string (methodWord kind)), ("key", expression key),
        ("params", .array (patterns params)), ("body", block (statements body)),
        ("computed", .boolean computed), ("shorthand", .boolean shorthand),
        ("generator", .boolean generator), ("async", .boolean isAsync)]
  | .spreadElement argument => node "SpreadElement" [("argument", expression argument)]
  | .unsupported kind => node kind []

/-- The documents of members. -/
def members : List Member → List Value
  | [] => []
  | m :: rest => member m :: members rest

end

/-- The document of a program. -/
def program (p : Program) : Value :=
  record [("body", .array (statements p.body))]

/-- The document of a program with the type of a root node. -/
def typedProgram (p : Program) : Value :=
  node "Program" [("body", .array (statements p.body))]

/-- Two programs have the same document, numbers being compared as numbers. -/
def sameProgram (p q : Program) : Bool :=
  (program p).sameAs (program q)

end Estree

end ScriptWire
