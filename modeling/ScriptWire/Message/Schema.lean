/-!
# The schema of messages

A message has the fields of its kind, in order. A field holds a plain value, a message or none, a
list of messages, or one of several variants.

## Main definitions

- `Message.Kind` — the kinds of messages
- `Message.Field`, `Message.Variant` — a field, and one of the variants of a field
- `Message.fields` — the fields of each kind
-/

namespace ScriptWire

namespace Message

/-- The kinds of messages. -/
inductive Kind
  | ast
  | parameter
  | emptyStatement
  | blockStatement
  | variableDeclarator
  | variableDeclaration
  | functionDeclaration
  | returnStatement
  | expressionStatement
  | ifStatement
  | whileLoop
  | doWhileLoop
  | forLoop
  | forInLoop
  | forOfLoop
  | catchClause
  | finallyClause
  | tryStatement
  | throwStatement
  | statement
  | identifier
  | numberLiteral
  | bigIntLiteral
  | stringLiteral
  | regExpLiteral
  | booleanLiteral
  | nullLiteral
  | thisExpression
  | assignmentExpression
  | objectProperty
  | objectMethod
  | objectGetter
  | objectSetter
  | objectField
  | objectExpression
  | arrayExpression
  | functionExpression
  | arrowFunctionExpression
  | callExpression
  | newExpression
  | memberExpression
  | unaryExpression
  | binaryExpression
  | updateExpression
  | yieldExpression
  | spreadElement
  | intrinsicIdentifier
  | awaitExpression
  | ternaryExpression
  | sequenceExpression
  | expression
deriving DecidableEq

/-- The name of a kind. -/
def Kind.name : Kind → String
  | .ast => "AST"
  | .parameter => "Parameter"
  | .emptyStatement => "EmptyStatement"
  | .blockStatement => "BlockStatement"
  | .variableDeclarator => "VariableDeclarator"
  | .variableDeclaration => "VariableDeclaration"
  | .functionDeclaration => "FunctionDeclaration"
  | .returnStatement => "ReturnStatement"
  | .expressionStatement => "ExpressionStatement"
  | .ifStatement => "IfStatement"
  | .whileLoop => "WhileLoop"
  | .doWhileLoop => "DoWhileLoop"
  | .forLoop => "ForLoop"
  | .forInLoop => "ForInLoop"
  | .forOfLoop => "ForOfLoop"
  | .catchClause => "CatchClause"
  | .finallyClause => "FinallyClause"
  | .tryStatement => "TryStatement"
  | .throwStatement => "ThrowStatement"
  | .statement => "Statement"
  | .identifier => "Identifier"
  | .numberLiteral => "NumberLiteral"
  | .bigIntLiteral => "BigIntLiteral"
  | .stringLiteral => "StringLiteral"
  | .regExpLiteral => "RegExpLiteral"
  | .booleanLiteral => "BooleanLiteral"
  | .nullLiteral => "NullLiteral"
  | .thisExpression => "ThisExpression"
  | .assignmentExpression => "AssignmentExpression"
  | .objectProperty => "ObjectProperty"
  | .objectMethod => "ObjectMethod"
  | .objectGetter => "ObjectGetter"
  | .objectSetter => "ObjectSetter"
  | .objectField => "ObjectField"
  | .objectExpression => "ObjectExpression"
  | .arrayExpression => "ArrayExpression"
  | .functionExpression => "FunctionExpression"
  | .arrowFunctionExpression => "ArrowFunctionExpression"
  | .callExpression => "CallExpression"
  | .newExpression => "NewExpression"
  | .memberExpression => "MemberExpression"
  | .unaryExpression => "UnaryExpression"
  | .binaryExpression => "BinaryExpression"
  | .updateExpression => "UpdateExpression"
  | .yieldExpression => "YieldExpression"
  | .spreadElement => "SpreadElement"
  | .intrinsicIdentifier => "V8IntrinsicIdentifier"
  | .awaitExpression => "AwaitExpression"
  | .ternaryExpression => "TernaryExpression"
  | .sequenceExpression => "SequenceExpression"
  | .expression => "Expression"

/-- All kinds. -/
def Kind.all : List Kind :=
  [.ast, .parameter, .emptyStatement, .blockStatement, .variableDeclarator, .variableDeclaration,
   .functionDeclaration, .returnStatement, .expressionStatement, .ifStatement, .whileLoop,
   .doWhileLoop, .forLoop, .forInLoop, .forOfLoop, .catchClause, .finallyClause, .tryStatement,
   .throwStatement, .statement, .identifier, .numberLiteral, .bigIntLiteral, .stringLiteral,
   .regExpLiteral, .booleanLiteral, .nullLiteral, .thisExpression, .assignmentExpression,
   .objectProperty, .objectMethod, .objectGetter, .objectSetter, .objectField, .objectExpression,
   .arrayExpression, .functionExpression, .arrowFunctionExpression, .callExpression,
   .newExpression, .memberExpression, .unaryExpression, .binaryExpression, .updateExpression,
   .yieldExpression, .spreadElement, .intrinsicIdentifier, .awaitExpression, .ternaryExpression,
   .sequenceExpression, .expression]

/-- The kind with a name. -/
def Kind.ofName? (name : String) : Option Kind :=
  Kind.all.find? fun k => k.name = name

/-- The types of plain values. -/
inductive Scalar
  | text
  | flag
  /-- A number that stands for one of a few named choices. -/
  | choice
  | index
  | double
deriving DecidableEq

/-- What a variant holds. -/
inductive Content
  | scalar (type : Scalar)
  | message (kind : Kind)
deriving DecidableEq

/-- What a well-formed message must have in a field or a variant. -/
inductive Requirement
  /-- Anything. -/
  | free
  /-- A text with a character, or a list with an element. -/
  | nonEmpty
  /-- A choice below the given number. -/
  | known (count : Nat)
  /-- One of the given texts. -/
  | oneOf (words : List String)
  /-- Some value. -/
  | given
  /-- A message that has its variant. -/
  | filled
  /-- No message, or one that has its variant. -/
  | filledIfGiven
  /-- Messages that all have their variant. -/
  | eachFilled
  /-- Two or more messages that all have their variant. -/
  | severalFilled
  /-- No message, or one with a name. -/
  | namedIfGiven
  /-- A message that holds no other message. -/
  | bare
  /-- A message, unless the next field has one. -/
  | orNext
  /-- A statement that is a block. -/
  | block
deriving DecidableEq

/-- One of the variants of a field. -/
structure Variant where
  /-- The name of the variant in a dump. -/
  title : String
  /-- The name of the variant in faults. -/
  name : String
  number : Nat
  content : Content
  requirement : Requirement
deriving DecidableEq

/-- What a field holds, and the numbers under which it is written. -/
inductive Shape
  | plain (number : Nat) (type : Scalar)
  | optional (number : Nat) (kind : Kind)
  | repeated (number : Nat) (kind : Kind)
  | union (variants : List Variant)
deriving DecidableEq

/-- A field. -/
structure Field where
  /-- The name of the field in faults. -/
  name : String
  /-- The name of the field in a dump. -/
  label : String
  shape : Shape
  requirement : Requirement
deriving DecidableEq

/-- A field with one name. -/
@[reducible]
def field (name : String) (shape : Shape) (requirement : Requirement) : Field :=
  ⟨name, name, shape, requirement⟩

/-- A variant that has the name of the message which it holds as its title. -/
@[reducible]
def wrapped (number : Nat) (name : String) (kind : Kind) : Variant :=
  ⟨kind.name, name, number, .message kind, .free⟩

/-- The variants of a statement. -/
@[reducible]
def statementVariants : List Variant :=
  [wrapped 1 "emptyStatement" .emptyStatement, wrapped 2 "blockStatement" .blockStatement,
   wrapped 3 "variableDeclaration" .variableDeclaration,
   wrapped 4 "functionDeclaration" .functionDeclaration,
   wrapped 5 "returnStatement" .returnStatement,
   wrapped 6 "expressionStatement" .expressionStatement,
   wrapped 7 "ifStatement" .ifStatement, wrapped 8 "whileLoop" .whileLoop,
   wrapped 9 "doWhileLoop" .doWhileLoop, wrapped 10 "forLoop" .forLoop,
   wrapped 11 "forInLoop" .forInLoop, wrapped 12 "forOfLoop" .forOfLoop,
   wrapped 13 "tryStatement" .tryStatement, wrapped 14 "throwStatement" .throwStatement]

/-- The variants of an expression. -/
@[reducible]
def expressionVariants : List Variant :=
  [wrapped 1 "identifier" .identifier, wrapped 2 "numberLiteral" .numberLiteral,
   wrapped 3 "bigIntLiteral" .bigIntLiteral, wrapped 4 "stringLiteral" .stringLiteral,
   wrapped 5 "regExpLiteral" .regExpLiteral, wrapped 6 "booleanLiteral" .booleanLiteral,
   wrapped 7 "nullLiteral" .nullLiteral, wrapped 8 "thisExpression" .thisExpression,
   wrapped 9 "assignmentExpression" .assignmentExpression,
   wrapped 10 "objectExpression" .objectExpression, wrapped 11 "arrayExpression" .arrayExpression,
   wrapped 12 "functionExpression" .functionExpression,
   wrapped 13 "arrowFunctionExpression" .arrowFunctionExpression,
   wrapped 14 "callExpression" .callExpression, wrapped 15 "newExpression" .newExpression,
   wrapped 16 "memberExpression" .memberExpression, wrapped 17 "unaryExpression" .unaryExpression,
   wrapped 18 "binaryExpression" .binaryExpression, wrapped 19 "updateExpression" .updateExpression,
   wrapped 20 "yieldExpression" .yieldExpression, wrapped 21 "spreadElement" .spreadElement,
   wrapped 22 "v8IntrinsicIdentifier" .intrinsicIdentifier,
   wrapped 23 "awaitExpression" .awaitExpression, wrapped 24 "ternaryExpression" .ternaryExpression,
   wrapped 25 "sequenceExpression" .sequenceExpression]

/-- The variants of a member of an object literal. -/
@[reducible]
def memberVariants : List Variant :=
  [⟨"Property", "property", 1, .message .objectProperty, .free⟩,
   ⟨"Method", "method", 2, .message .objectMethod, .free⟩,
   ⟨"Getter", "getter", 3, .message .objectGetter, .free⟩,
   ⟨"Setter", "setter", 4, .message .objectSetter, .free⟩]

/-- The fields of each kind, in the order of their numbers. -/
def fields : Kind → List Field
  | .ast => [field "statements" (.repeated 1 .statement) .free]
  | .parameter => [field "name" (.plain 1 .text) .nonEmpty]
  | .emptyStatement => []
  | .blockStatement => [field "body" (.repeated 1 .statement) .free]
  | .variableDeclarator =>
    [field "name" (.plain 1 .text) .nonEmpty,
     field "value" (.optional 2 .expression) .filledIfGiven]
  | .variableDeclaration =>
    [field "kind" (.plain 1 .choice) (.known 3),
     field "declarations" (.repeated 2 .variableDeclarator) .nonEmpty]
  | .functionDeclaration =>
    [field "name" (.plain 1 .text) .nonEmpty, field "type" (.plain 2 .choice) (.known 4),
     field "parameters" (.repeated 3 .parameter) .free, field "body" (.repeated 4 .statement) .free]
  | .returnStatement => [field "argument" (.optional 1 .expression) .filledIfGiven]
  | .expressionStatement => [field "expression" (.optional 1 .expression) .filled]
  | .ifStatement =>
    [field "test" (.optional 1 .expression) .filled,
     ⟨"ifBody", "if_body", .optional 2 .statement, .filled⟩,
     ⟨"elseBody", "else_body", .optional 3 .statement, .filledIfGiven⟩]
  | .whileLoop =>
    [field "test" (.optional 1 .expression) .filled, field "body" (.optional 2 .statement) .filled]
  | .doWhileLoop =>
    [field "body" (.optional 1 .statement) .filled, field "test" (.optional 2 .expression) .filled]
  | .forLoop =>
    [field "init" (.optional 1 .variableDeclarator) .given,
     field "test" (.optional 2 .expression) .filled,
     field "update" (.optional 3 .expression) .filled,
     field "body" (.optional 4 .statement) .filled]
  | .forInLoop =>
    [field "left" (.optional 1 .variableDeclarator) .bare,
     field "right" (.optional 2 .expression) .filled, field "body" (.optional 3 .statement) .filled]
  | .forOfLoop =>
    [field "left" (.optional 1 .variableDeclarator) .bare,
     field "right" (.optional 2 .expression) .filled, field "body" (.optional 3 .statement) .filled]
  | .catchClause =>
    [field "parameter" (.optional 1 .parameter) .namedIfGiven,
     field "body" (.repeated 2 .statement) .free]
  | .finallyClause => [field "body" (.repeated 1 .statement) .free]
  | .tryStatement =>
    [field "body" (.repeated 1 .statement) .free, field "catch" (.optional 2 .catchClause) .orNext,
     field "finally" (.optional 3 .finallyClause) .free]
  | .throwStatement => [field "argument" (.optional 1 .expression) .filled]
  | .statement => [field "statement" (.union statementVariants) .given]
  | .identifier => [field "name" (.plain 1 .text) .nonEmpty]
  | .numberLiteral => [field "value" (.plain 1 .double) .free]
  | .bigIntLiteral => [field "value" (.plain 1 .text) .nonEmpty]
  | .stringLiteral => [field "value" (.plain 1 .text) .free]
  | .regExpLiteral =>
    [field "pattern" (.plain 1 .text) .nonEmpty, field "flags" (.plain 2 .text) .free]
  | .booleanLiteral => [field "value" (.plain 1 .flag) .free]
  | .nullLiteral => []
  | .thisExpression => []
  | .assignmentExpression =>
    [field "operator" (.plain 1 .text) .nonEmpty, field "lhs" (.optional 2 .expression) .filled,
     field "rhs" (.optional 3 .expression) .filled]
  | .objectProperty =>
    [field "key"
      (.union
        [⟨"Name", "name", 1, .scalar .text, .free⟩, ⟨"Index", "index", 2, .scalar .index, .free⟩,
         ⟨"Expression", "expression", 3, .message .expression, .filled⟩])
      .given,
     field "value" (.optional 4 .expression) .filled]
  | .objectMethod =>
    [field "name" (.plain 1 .text) .free, field "type" (.plain 2 .choice) (.known 4),
     field "parameters" (.repeated 3 .parameter) .free, field "body" (.repeated 4 .statement) .free]
  | .objectGetter =>
    [field "name" (.plain 1 .text) .free, field "body" (.repeated 2 .statement) .free]
  | .objectSetter =>
    [field "name" (.plain 1 .text) .free, field "parameter" (.optional 2 .parameter) .given,
     field "body" (.repeated 3 .statement) .free]
  | .objectField => [field "field" (.union memberVariants) .given]
  | .objectExpression => [field "fields" (.repeated 1 .objectField) .free]
  | .arrayExpression => [field "elements" (.repeated 1 .expression) .free]
  | .functionExpression =>
    [field "type" (.plain 1 .choice) (.known 4), field "parameters" (.repeated 2 .parameter) .free,
     field "body" (.repeated 3 .statement) .free]
  | .arrowFunctionExpression =>
    [field "type" (.plain 1 .choice) (.known 4), field "parameters" (.repeated 2 .parameter) .free,
     field "body"
      (.union
        [⟨"Block", "block", 3, .message .statement, .block⟩,
         ⟨"Expression", "expression", 4, .message .expression, .filled⟩])
      .given]
  | .callExpression =>
    [field "callee" (.optional 1 .expression) .filled,
     field "arguments" (.repeated 2 .expression) .eachFilled]
  | .newExpression =>
    [field "callee" (.optional 1 .expression) .filled,
     field "arguments" (.repeated 2 .expression) .eachFilled]
  | .memberExpression =>
    [field "object" (.optional 1 .expression) .filled,
     field "property"
      (.union
        [⟨"Name", "name", 2, .scalar .text, .nonEmpty⟩,
         ⟨"Expression", "expression", 3, .message .expression, .filled⟩])
      .given]
  | .unaryExpression =>
    [field "operator" (.plain 1 .text) .nonEmpty,
     field "argument" (.optional 2 .expression) .filled]
  | .binaryExpression =>
    [field "operator" (.plain 1 .text) .nonEmpty, field "lhs" (.optional 2 .expression) .filled,
     field "rhs" (.optional 3 .expression) .filled]
  | .updateExpression =>
    [field "operator" (.plain 1 .text) (.oneOf ["++", "--"]),
     ⟨"isPrefix", "is_prefix", .plain 2 .flag, .free⟩,
     field "argument" (.optional 3 .expression) .filled]
  | .yieldExpression => [field "argument" (.optional 1 .expression) .filledIfGiven]
  | .spreadElement => [field "argument" (.optional 1 .expression) .filled]
  | .intrinsicIdentifier => [field "name" (.plain 1 .text) .nonEmpty]
  | .awaitExpression => [field "argument" (.optional 1 .expression) .filled]
  | .ternaryExpression =>
    [field "condition" (.optional 1 .expression) .filled,
     field "consequent" (.optional 2 .expression) .filled,
     field "alternate" (.optional 3 .expression) .filled]
  | .sequenceExpression => [field "expressions" (.repeated 1 .expression) .severalFilled]
  | .expression => [field "expression" (.union expressionVariants) .given]

end Message

end ScriptWire
