import ScriptWire.Estree.Form

/-!
# The forms of all kinds

## Main definitions

- `Estree.Record.form` — the form of a record
- `Estree.Level.forms` — the kinds of a level, each with its form
- `Estree.Level.form?` — the form of a kind
- `Estree.Level.known` — the kinds of nodes that are not unsupported
-/

namespace ScriptWire

namespace Estree

open ScriptWire.Tree

/-- An expression. -/
abbrev expressionPlace : Place :=
  .node .expression

/-- A statement. -/
abbrev statementPlace : Place :=
  .node .statement

/-- A binding. -/
abbrev patternPlace : Place :=
  .node .pattern

/-- The statement that a directive stands for. -/
def directiveStatement (text : String) : Statement :=
  .expressionStatement (.stringLiteral text)

/-- A list of statements with the directives in front of it, which come first. -/
def blockForm : Form (List Statement) where
  title := "struct Body"
  entries :=
    [required "body" (.list statementPlace), defaulted "directives" (.list (.record .directive)) []]
  build := fun (body, directives, _) => directives.map directiveStatement ++ body

/-- A directive. -/
def directiveForm : Form String where
  title := "struct Directive"
  entries := [required "value" (.record .directiveLiteral)]
  build := fun (text, _) => text

/-- The text of a directive. -/
def directiveLiteralForm : Form String where
  title := "struct DirectiveLiteral"
  entries := [required "value" .text]
  build := fun (text, _) => text

/-- A name. -/
def identifierForm : Form String where
  title := "struct Identifier"
  entries := [required "name" .text]
  build := fun (name, _) => name

/-- A declaration. -/
def declarationForm : Form Declaration where
  title := "struct VariableDeclaration"
  entries := [required "kind" .text, required "declarations" (.list (.record .declarator))]
  build := fun (kind, declarations, _) => ⟨kind, declarations⟩

/-- One variable of a declaration. -/
def declaratorForm : Form Declarator where
  title := "struct VariableDeclarator"
  entries := [required "id" patternPlace, nullable "init" expressionPlace]
  build := fun (id, init, _) => .mk id init

/-- A catch clause. -/
def catchClauseForm : Form CatchClause where
  title := "struct CatchClause"
  entries := [nullable "param" patternPlace, required "body" (.record .block)]
  build := fun (param, body, _) => .mk param body

/-- The form of a record. -/
def Record.form : (record : Record) → Form record.Result
  | .block => blockForm
  | .directive => directiveForm
  | .directiveLiteral => directiveLiteralForm
  | .identifier => identifierForm
  | .declaration => declarationForm
  | .declarator => declaratorForm
  | .catchClause => catchClauseForm

/-- The parts of a function with a name and a block as its body. -/
def functionEntries : List Entry :=
  [nullable "id" (.record .identifier), required "params" (.list patternPlace),
    required "body" (.record .block), defaulted "generator" .flag false,
    defaulted "async" .flag false]

/-- The kinds of statements. -/
def statementForms : List (String × Form Statement) :=
  [("EmptyStatement", ⟨"", [], fun _ => .emptyStatement⟩),
   ("BlockStatement", blockForm.map .blockStatement),
   ("ExpressionStatement",
    ⟨"struct variant Statement::ExpressionStatement", [required "expression" expressionPlace],
      fun (expression, _) => .expressionStatement expression⟩),
   ("VariableDeclaration",
    declarationForm.map fun d => .variableDeclaration d.kind d.declarations),
   ("FunctionDeclaration",
    ⟨"struct Function", functionEntries,
      fun (id, params, body, generator, isAsync, _) =>
        .functionDeclaration id params body generator isAsync⟩),
   ("ReturnStatement",
    ⟨"struct variant Statement::ReturnStatement", [nullable "argument" expressionPlace],
      fun (argument, _) => .returnStatement argument⟩),
   ("IfStatement",
    ⟨"struct variant Statement::IfStatement",
      [required "test" expressionPlace, required "consequent" statementPlace,
        nullable "alternate" statementPlace],
      fun (test, consequent, alternate, _) => .ifStatement test consequent alternate⟩),
   ("WhileStatement",
    ⟨"struct variant Statement::WhileStatement",
      [required "test" expressionPlace, required "body" statementPlace],
      fun (test, body, _) => .whileStatement test body⟩),
   ("DoWhileStatement",
    ⟨"struct variant Statement::DoWhileStatement",
      [required "body" statementPlace, required "test" expressionPlace],
      fun (body, test, _) => .doWhileStatement body test⟩),
   ("ForStatement",
    ⟨"struct variant Statement::ForStatement",
      [nullable "init" .loopHead, nullable "test" expressionPlace,
        nullable "update" expressionPlace, required "body" statementPlace],
      fun (init, test, update, body, _) => .forStatement init test update body⟩),
   ("ForInStatement",
    ⟨"struct variant Statement::ForInStatement",
      [required "left" .loopHead, required "right" expressionPlace,
        required "body" statementPlace],
      fun (left, right, body, _) => .forInStatement left right body⟩),
   ("ForOfStatement",
    ⟨"struct variant Statement::ForOfStatement",
      [required "left" .loopHead, required "right" expressionPlace,
        required "body" statementPlace, defaulted "await" .flag false],
      fun (left, right, body, isAwait, _) => .forOfStatement left right body isAwait⟩),
   ("TryStatement",
    ⟨"struct variant Statement::TryStatement",
      [required "block" (.record .block), nullable "handler" (.record .catchClause),
        nullable "finalizer" (.record .block)],
      fun (block, handler, finalizer, _) => .tryStatement block handler finalizer⟩),
   ("ThrowStatement",
    ⟨"struct variant Statement::ThrowStatement", [required "argument" expressionPlace],
      fun (argument, _) => .throwStatement argument⟩)]

/-- The parts of an expression with two operands. -/
def operandEntries : List Entry :=
  [required "operator" .text, required "left" expressionPlace, required "right" expressionPlace]

/-- The parts of a call. -/
def callEntries : List Entry :=
  [required "callee" expressionPlace, required "arguments" (.list expressionPlace)]

/-- The kinds of expressions. -/
def expressionForms : List (String × Form Expression) :=
  [("Identifier", identifierForm.map .identifier),
   ("NumericLiteral",
    ⟨"struct variant Expression::NumericLiteral", [required "value" .number],
      fun (value, _) => .numericLiteral value⟩),
   ("BigIntLiteral",
    ⟨"struct variant Expression::BigIntLiteral", [required "value" .text],
      fun (value, _) => .bigIntLiteral value⟩),
   ("StringLiteral",
    ⟨"struct variant Expression::StringLiteral", [required "value" .text],
      fun (value, _) => .stringLiteral value⟩),
   ("RegExpLiteral",
    ⟨"struct variant Expression::RegExpLiteral", [required "pattern" .text, required "flags" .text],
      fun (pattern, flags, _) => .regExpLiteral pattern flags⟩),
   ("BooleanLiteral",
    ⟨"struct variant Expression::BooleanLiteral", [required "value" .flag],
      fun (value, _) => .booleanLiteral value⟩),
   ("NullLiteral", ⟨"", [], fun _ => .nullLiteral⟩),
   ("ThisExpression", ⟨"", [], fun _ => .thisExpression⟩),
   ("V8IntrinsicIdentifier",
    ⟨"struct variant Expression::V8IntrinsicIdentifier", [required "name" .text],
      fun (name, _) => .intrinsicIdentifier name⟩),
   ("AssignmentExpression",
    ⟨"struct variant Expression::AssignmentExpression", operandEntries,
      fun (operator, left, right, _) => .assignmentExpression operator left right⟩),
   ("ObjectExpression",
    ⟨"struct variant Expression::ObjectExpression", [required "properties" (.list (.node .member))],
      fun (properties, _) => .objectExpression properties⟩),
   ("ArrayExpression",
    ⟨"struct variant Expression::ArrayExpression",
      [required "elements" (.list (.optional expressionPlace))],
      fun (elements, _) => .arrayExpression elements⟩),
   ("FunctionExpression",
    ⟨"struct Function", functionEntries,
      fun (id, params, body, generator, isAsync, _) =>
        .functionExpression id params body generator isAsync⟩),
   ("ArrowFunctionExpression",
    ⟨"struct ArrowFunction",
      [nullable "id" (.record .identifier), required "params" (.list patternPlace),
        required "body" .arrowBody, defaulted "generator" .flag false,
        defaulted "async" .flag false],
      fun (id, params, body, generator, isAsync, _) =>
        .arrowFunctionExpression id params body generator isAsync⟩),
   ("CallExpression",
    ⟨"struct variant Expression::CallExpression", callEntries,
      fun (callee, arguments, _) => .callExpression callee arguments⟩),
   ("NewExpression",
    ⟨"struct variant Expression::NewExpression", callEntries,
      fun (callee, arguments, _) => .newExpression callee arguments⟩),
   ("MemberExpression",
    ⟨"struct variant Expression::MemberExpression",
      [required "object" expressionPlace, required "property" expressionPlace,
        required "computed" .flag],
      fun (object, property, computed, _) => .memberExpression object property computed⟩),
   ("UnaryExpression",
    ⟨"struct variant Expression::UnaryExpression",
      [required "operator" .text, defaulted "prefix" .flag true,
        required "argument" expressionPlace],
      fun (operator, isPrefix, argument, _) => .unaryExpression operator isPrefix argument⟩),
   ("BinaryExpression",
    ⟨"struct variant Expression::BinaryExpression", operandEntries,
      fun (operator, left, right, _) => .binaryExpression operator left right⟩),
   ("LogicalExpression",
    ⟨"struct variant Expression::LogicalExpression", operandEntries,
      fun (operator, left, right, _) => .logicalExpression operator left right⟩),
   ("UpdateExpression",
    ⟨"struct variant Expression::UpdateExpression",
      [required "operator" .text, required "prefix" .flag, required "argument" expressionPlace],
      fun (operator, isPrefix, argument, _) => .updateExpression operator isPrefix argument⟩),
   ("YieldExpression",
    ⟨"struct variant Expression::YieldExpression",
      [nullable "argument" expressionPlace, defaulted "delegate" .flag false],
      fun (argument, delegate, _) => .yieldExpression argument delegate⟩),
   ("AwaitExpression",
    ⟨"struct variant Expression::AwaitExpression", [required "argument" expressionPlace],
      fun (argument, _) => .awaitExpression argument⟩),
   ("ConditionalExpression",
    ⟨"struct variant Expression::ConditionalExpression",
      [required "test" expressionPlace, required "consequent" expressionPlace,
        required "alternate" expressionPlace],
      fun (test, consequent, alternate, _) => .conditionalExpression test consequent alternate⟩),
   ("SequenceExpression",
    ⟨"struct variant Expression::SequenceExpression",
      [required "expressions" (.list expressionPlace)],
      fun (expressions, _) => .sequenceExpression expressions⟩),
   ("SpreadElement",
    ⟨"struct variant Expression::SpreadElement", [required "argument" expressionPlace],
      fun (argument, _) => .spreadElement argument⟩)]

/-- The kinds of bindings. -/
def patternForms : List (String × Form Pattern) :=
  [("Identifier", identifierForm.map .identifier),
   ("AssignmentPattern",
    ⟨"struct variant Pattern::AssignmentPattern",
      [required "left" patternPlace, required "right" expressionPlace],
      fun (left, right, _) => .assignmentPattern left right⟩),
   ("RestElement",
    ⟨"struct variant Pattern::RestElement", [required "argument" patternPlace],
      fun (argument, _) => .restElement argument⟩),
   ("ObjectPattern", ⟨"", [], fun _ => .objectPattern⟩),
   ("ArrayPattern", ⟨"", [], fun _ => .arrayPattern⟩)]

/-- The kinds of members of object literals. -/
def memberForms : List (String × Form Member) :=
  [("ObjectProperty",
    ⟨"struct ObjectProperty",
      [required "key" expressionPlace, required "value" expressionPlace,
        defaulted "computed" .flag false, defaulted "shorthand" .flag false,
        defaulted "method" .flag false],
      fun (key, value, computed, shorthand, method, _) =>
        .objectProperty key value computed shorthand method⟩),
   ("ObjectMethod",
    ⟨"struct ObjectMethod",
      [required "kind" .methodKind, required "key" expressionPlace,
        required "params" (.list patternPlace), required "body" (.record .block),
        defaulted "computed" .flag false, defaulted "shorthand" .flag false,
        defaulted "generator" .flag false, defaulted "async" .flag false],
      fun (kind, key, params, body, computed, shorthand, generator, isAsync, _) =>
        .objectMethod kind key params body computed shorthand generator isAsync⟩),
   ("SpreadElement",
    ⟨"struct variant ObjectMember::SpreadElement", [required "argument" expressionPlace],
      fun (argument, _) => .spreadElement argument⟩)]

/-- The kinds of a level, each with its form. -/
def Level.forms : (level : Level) → List (String × Form level.Node)
  | .statement => statementForms
  | .expression => expressionForms
  | .pattern => patternForms
  | .member => memberForms

/-- The names of the kinds of a level. -/
def Level.kinds (level : Level) : List String :=
  level.forms.map Prod.fst

/-- The kinds that a level knows; a node of any other kind is unsupported. -/
def Level.known : Level → List String
  | .statement =>
    ["EmptyStatement", "BlockStatement", "ExpressionStatement", "VariableDeclaration",
      "FunctionDeclaration", "ReturnStatement", "IfStatement", "WhileStatement", "DoWhileStatement",
      "ForStatement", "ForInStatement", "ForOfStatement", "TryStatement", "ThrowStatement"]
  | .expression =>
    ["Identifier", "NumericLiteral", "BigIntLiteral", "StringLiteral", "RegExpLiteral",
      "BooleanLiteral", "NullLiteral", "ThisExpression", "V8IntrinsicIdentifier",
      "AssignmentExpression", "ObjectExpression", "ArrayExpression", "FunctionExpression",
      "ArrowFunctionExpression", "CallExpression", "NewExpression", "MemberExpression",
      "UnaryExpression", "BinaryExpression", "LogicalExpression", "UpdateExpression",
      "YieldExpression", "AwaitExpression", "ConditionalExpression", "SequenceExpression",
      "SpreadElement"]
  | .pattern =>
    ["Identifier", "AssignmentPattern", "RestElement", "ObjectPattern", "ArrayPattern"]
  | .member => ["ObjectProperty", "ObjectMethod", "SpreadElement"]

/-- The form of a kind. -/
def Level.form? (level : Level) (kind : String) : Option (Form level.Node) :=
  level.forms.lookup kind

end Estree

end ScriptWire
