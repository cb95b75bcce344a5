import ScriptWire.Tree.Basic

/-!
# What messages do not tell apart

A message has no place for a few things that a tree has. `Erase.program` puts one value for each of
them and leaves everything else as it is:

- a function expression has no name;
- a logical expression is a binary one;
- a key or method name that is not computed is a string in place of a name, and a key that is the
  negative zero is the positive one;
- the variable in the head of a loop is declared with `var`.

## Main definitions

- `Erase.statement`, `Erase.expression`, `Erase.member` — trees without what messages do not keep
- `Erase.program` — a program without it
-/

namespace ScriptWire

namespace Erase

open ScriptWire.Tree

/-- The positive zero in place of the negative one. -/
def zeroSign (x : Binary64) : Binary64 :=
  if x.isZero then .zero else x

/-- The name of a method as a string. -/
def methodName : Expression → Expression
  | .identifier name => .stringLiteral name
  | key => key

/-- A key that is not computed: a string in place of a name, and a number without the sign of a
zero. -/
def key : Expression → Expression
  | .identifier name => .stringLiteral name
  | .numericLiteral value => .numericLiteral (zeroSign value)
  | key => key

mutual

/-- A statement without what messages do not keep. -/
def statement : Statement → Statement
  | .emptyStatement => .emptyStatement
  | .blockStatement body => .blockStatement (statements body)
  | .expressionStatement e => .expressionStatement (expression e)
  | .variableDeclaration kind declarations => .variableDeclaration kind (declarators declarations)
  | .functionDeclaration id params body generator isAsync =>
    .functionDeclaration id params (statements body) generator isAsync
  | .returnStatement argument => .returnStatement (expression? argument)
  | .ifStatement test consequent alternate =>
    .ifStatement (expression test) (statement consequent) (statement? alternate)
  | .whileStatement test body => .whileStatement (expression test) (statement body)
  | .doWhileStatement body test => .doWhileStatement (statement body) (expression test)
  | .forStatement init test update body =>
    .forStatement (head? init) (expression? test) (expression? update) (statement body)
  | .forInStatement left right body =>
    .forInStatement (head left) (expression right) (statement body)
  | .forOfStatement left right body isAwait =>
    .forOfStatement (head left) (expression right) (statement body) isAwait
  | .tryStatement block handler finalizer =>
    .tryStatement (statements block) (catchClause? handler) (block? finalizer)
  | .throwStatement argument => .throwStatement (expression argument)
  | .unsupported kind => .unsupported kind

/-- Statements without what messages do not keep. -/
def statements : List Statement → List Statement
  | [] => []
  | s :: rest => statement s :: statements rest

/-- An optional statement without what messages do not keep. -/
def statement? : Option Statement → Option Statement
  | none => none
  | some s => some (statement s)

/-- An optional block without what messages do not keep. -/
def block? : Option (List Statement) → Option (List Statement)
  | none => none
  | some body => some (statements body)

/-- One variable of a declaration without what messages do not keep. -/
def declarator : Declarator → Declarator
  | .mk id init => .mk id (expression? init)

/-- The variables of a declaration without what messages do not keep. -/
def declarators : List Declarator → List Declarator
  | [] => []
  | d :: rest => declarator d :: declarators rest

/-- The head of a loop without what messages do not keep. -/
def head : ForInit → ForInit
  | .variableDeclaration _ declarations => .variableDeclaration "var" (declarators declarations)
  | .expression e => .expression (expression e)

/-- An optional head of a loop without what messages do not keep. -/
def head? : Option ForInit → Option ForInit
  | none => none
  | some init => some (head init)

/-- A catch clause without what messages do not keep. -/
def catchClause : CatchClause → CatchClause
  | .mk param body => .mk param (statements body)

/-- An optional catch clause without what messages do not keep. -/
def catchClause? : Option CatchClause → Option CatchClause
  | none => none
  | some clause => some (catchClause clause)

/-- An expression without what messages do not keep. -/
def expression : Expression → Expression
  | .assignmentExpression operator left right =>
    .assignmentExpression operator (expression left) (expression right)
  | .objectExpression properties => .objectExpression (members properties)
  | .arrayExpression parts => .arrayExpression (elements parts)
  | .functionExpression _ params body generator isAsync =>
    .functionExpression none params (statements body) generator isAsync
  | .arrowFunctionExpression id params body generator isAsync =>
    .arrowFunctionExpression id params (arrowBody body) generator isAsync
  | .callExpression callee arguments => .callExpression (expression callee) (expressions arguments)
  | .newExpression callee arguments => .newExpression (expression callee) (expressions arguments)
  | .memberExpression object property true =>
    .memberExpression (expression object) (expression property) true
  | .memberExpression object property false => .memberExpression (expression object) property false
  | .unaryExpression operator isPrefix argument =>
    .unaryExpression operator isPrefix (expression argument)
  | .binaryExpression operator left right =>
    .binaryExpression operator (expression left) (expression right)
  | .logicalExpression operator left right =>
    .binaryExpression operator (expression left) (expression right)
  | .updateExpression operator isPrefix argument =>
    .updateExpression operator isPrefix (expression argument)
  | .yieldExpression argument delegate => .yieldExpression (expression? argument) delegate
  | .awaitExpression argument => .awaitExpression (expression argument)
  | .conditionalExpression test consequent alternate =>
    .conditionalExpression (expression test) (expression consequent) (expression alternate)
  | .sequenceExpression parts => .sequenceExpression (expressions parts)
  | .spreadElement argument => .spreadElement (expression argument)
  | e => e

/-- Expressions without what messages do not keep. -/
def expressions : List Expression → List Expression
  | [] => []
  | e :: rest => expression e :: expressions rest

/-- An optional expression without what messages do not keep. -/
def expression? : Option Expression → Option Expression
  | none => none
  | some e => some (expression e)

/-- The elements of an array without what messages do not keep. -/
def elements : List (Option Expression) → List (Option Expression)
  | [] => []
  | e :: rest => expression? e :: elements rest

/-- The body of an arrow function without what messages do not keep. -/
def arrowBody : ArrowBody → ArrowBody
  | .blockStatement body => .blockStatement (statements body)
  | .expression e => .expression (expression e)

/-- A member of an object literal without what messages do not keep. -/
def member : Member → Member
  | .objectProperty k value true shorthand method =>
    .objectProperty (expression k) (expression value) true shorthand method
  | .objectProperty k value false shorthand method =>
    .objectProperty (key k) (expression value) false shorthand method
  | .objectMethod kind k params body computed shorthand generator isAsync =>
    .objectMethod kind (methodName k) params (statements body) computed shorthand generator isAsync
  | .spreadElement argument => .spreadElement (expression argument)
  | .unsupported kind => .unsupported kind

/-- The members of an object literal without what messages do not keep. -/
def members : List Member → List Member
  | [] => []
  | m :: rest => member m :: members rest

end

/-- A program without what messages do not keep. -/
def program (p : Program) : Program :=
  ⟨statements p.body⟩

@[simp]
theorem statements_eq_map (body : List Statement) : statements body = body.map statement := by
  induction body with
  | nil => rfl
  | cons s rest ih => rw [statements, ih, List.map_cons]

@[simp]
theorem statement?_eq_map (s : Option Statement) : statement? s = s.map statement := by
  cases s <;> rfl

@[simp]
theorem block?_eq_map (body : Option (List Statement)) :
    block? body = body.map (List.map statement) := by
  cases body with
  | none => rfl
  | some b => rw [block?, statements_eq_map, Option.map_some]

@[simp]
theorem declarators_eq_map (ds : List Declarator) : declarators ds = ds.map declarator := by
  induction ds with
  | nil => rfl
  | cons d rest ih => rw [declarators, ih, List.map_cons]

@[simp]
theorem head?_eq_map (init : Option ForInit) : head? init = init.map head := by
  cases init <;> rfl

@[simp]
theorem catchClause?_eq_map (c : Option CatchClause) : catchClause? c = c.map catchClause := by
  cases c <;> rfl

@[simp]
theorem expressions_eq_map (es : List Expression) : expressions es = es.map expression := by
  induction es with
  | nil => rfl
  | cons e rest ih => rw [expressions, ih, List.map_cons]

@[simp]
theorem expression?_eq_map (e : Option Expression) : expression? e = e.map expression := by
  cases e <;> rfl

@[simp]
theorem elements_eq_map (es : List (Option Expression)) :
    elements es = es.map (Option.map expression) := by
  induction es with
  | nil => rfl
  | cons e rest ih => rw [elements, ih, expression?_eq_map, List.map_cons]

@[simp]
theorem members_eq_map (ms : List Member) : members ms = ms.map member := by
  induction ms with
  | nil => rfl
  | cons m rest ih => rw [members, ih, List.map_cons]

end Erase

end ScriptWire
