import ScriptWire.Tree.Basic

/-!
# Kinds of nodes

## Main definitions

- `Tree.Statement.kind`, `Tree.Expression.kind`, `Tree.Pattern.kind`, `Tree.Member.kind` — the name
  of a node's kind
- `Tree.Statement.outline` — the kind of a statement with the kinds of the nodes right below it
-/

namespace ScriptWire

namespace Tree

/-- The name of a statement's kind. -/
def Statement.kind : Statement → String
  | .emptyStatement => "EmptyStatement"
  | .blockStatement _ => "BlockStatement"
  | .expressionStatement _ => "ExpressionStatement"
  | .variableDeclaration _ _ => "VariableDeclaration"
  | .functionDeclaration _ _ _ _ _ => "FunctionDeclaration"
  | .returnStatement _ => "ReturnStatement"
  | .ifStatement _ _ _ => "IfStatement"
  | .whileStatement _ _ => "WhileStatement"
  | .doWhileStatement _ _ => "DoWhileStatement"
  | .forStatement _ _ _ _ => "ForStatement"
  | .forInStatement _ _ _ => "ForInStatement"
  | .forOfStatement _ _ _ _ => "ForOfStatement"
  | .tryStatement _ _ _ => "TryStatement"
  | .throwStatement _ => "ThrowStatement"
  | .unsupported kind => kind

/-- The name of an expression's kind. -/
def Expression.kind : Expression → String
  | .identifier _ => "Identifier"
  | .numericLiteral _ => "NumericLiteral"
  | .bigIntLiteral _ => "BigIntLiteral"
  | .stringLiteral _ => "StringLiteral"
  | .regExpLiteral _ _ => "RegExpLiteral"
  | .booleanLiteral _ => "BooleanLiteral"
  | .nullLiteral => "NullLiteral"
  | .thisExpression => "ThisExpression"
  | .intrinsicIdentifier _ => "V8IntrinsicIdentifier"
  | .assignmentExpression _ _ _ => "AssignmentExpression"
  | .objectExpression _ => "ObjectExpression"
  | .arrayExpression _ => "ArrayExpression"
  | .functionExpression _ _ _ _ _ => "FunctionExpression"
  | .arrowFunctionExpression _ _ _ _ _ => "ArrowFunctionExpression"
  | .callExpression _ _ => "CallExpression"
  | .newExpression _ _ => "NewExpression"
  | .memberExpression _ _ _ => "MemberExpression"
  | .unaryExpression _ _ _ => "UnaryExpression"
  | .binaryExpression _ _ _ => "BinaryExpression"
  | .logicalExpression _ _ _ => "LogicalExpression"
  | .updateExpression _ _ _ => "UpdateExpression"
  | .yieldExpression _ _ => "YieldExpression"
  | .awaitExpression _ => "AwaitExpression"
  | .conditionalExpression _ _ _ => "ConditionalExpression"
  | .sequenceExpression _ => "SequenceExpression"
  | .spreadElement _ => "SpreadElement"
  | .unsupported kind => kind

/-- The name of a binding's kind. -/
def Pattern.kind : Pattern → String
  | .identifier _ => "Identifier"
  | .assignmentPattern _ _ => "AssignmentPattern"
  | .restElement _ => "RestElement"
  | .objectPattern => "ObjectPattern"
  | .arrayPattern => "ArrayPattern"
  | .unsupported kind => kind

/-- The name of a member's kind. -/
def Member.kind : Member → String
  | .objectProperty _ _ _ _ _ => "ObjectProperty"
  | .objectMethod _ _ _ _ _ _ _ _ => "ObjectMethod"
  | .spreadElement _ => "SpreadElement"
  | .unsupported kind => kind

/-- The name of the kind of a loop's first part. -/
def ForInit.kind : ForInit → String
  | .variableDeclaration _ _ => "VariableDeclaration"
  | .expression e => e.kind

/-- The binding of one variable of a declaration. -/
def Declarator.id : Declarator → Pattern
  | .mk id _ => id

/-- The first value of one variable of a declaration. -/
def Declarator.init : Declarator → Option Expression
  | .mk _ init => init

/-- The kind of an expression; that of an object literal with the kinds of its members. -/
def Expression.outline : Expression → String
  | .objectExpression members =>
    "ObjectExpression(" ++ ",".intercalate (members.map Member.kind) ++ ")"
  | e => e.kind

/-- The kinds of the nodes right below a statement. -/
def Statement.parts : Statement → List String
  | .expressionStatement e => [e.outline]
  | .variableDeclaration _ declarations => declarations.map fun d => d.id.kind
  | .functionDeclaration _ params _ _ _ => params.map Pattern.kind
  | .forStatement init _ _ _ => (init.map ForInit.kind).toList
  | .forInStatement left _ _ => [left.kind]
  | .forOfStatement left _ _ _ => [left.kind]
  | _ => []

/-- The kind of a statement with the kinds of the nodes right below it. -/
def Statement.outline (s : Statement) : String :=
  s.kind ++ "[" ++ ",".intercalate s.parts ++ "]"

end Tree

end ScriptWire
