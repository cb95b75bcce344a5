import ScriptWire.Lowering.Basic

/-!
# The messages of accepted nodes

The message that a node has if it is accepted, as a function of the tree alone: no level is counted
and nothing is checked. A node that is not accepted is given some message of the right kind.

## Main definitions

- `Image.statement`, `Image.expression`, `Image.member` — the messages of nodes
- `Image.program` — the message of a program
-/

namespace ScriptWire

namespace Image

open ScriptWire.Tree
open Lowering (functionType)

/-- The name that a binding introduces. -/
def name : Pattern → String
  | .identifier name => name
  | _ => ""

/-- A parameter. -/
def parameter (p : Pattern) : Message .parameter :=
  Message.parameter (name p)

/-- The choice that the word of a declaration stands for. -/
def keyword (word : String) : Int32 :=
  if word = "var" then 0 else if word = "let" then 1 else 2

/-- The index that a number stands for as a key. -/
def index (value : Binary64) : Int64 :=
  match value.toInt? with
  | some n => Int64.ofInt (min n (Nat.pow 2 63 - 1))
  | none => 0

/-- The text of a name or of a string. -/
def text : Expression → String
  | .identifier name => name
  | .stringLiteral value => value
  | _ => ""

mutual

/-- The message of a statement. -/
def statement : Statement → Message .statement
  | .emptyStatement => Message.statement Message.emptyStatement
  | .blockStatement body => Message.statement (Message.blockStatement (statements body))
  | .expressionStatement e => Message.statement (Message.expressionStatement (expression e))
  | .variableDeclaration kind declarations =>
    Message.statement (Message.variableDeclaration (keyword kind) (declarators declarations))
  | .functionDeclaration id params body generator isAsync =>
    Message.statement
      (Message.functionDeclaration (id.getD "") (functionType generator isAsync)
        (params.map parameter) (statements body))
  | .returnStatement argument => Message.statement (Message.returnStatement (expression? argument))
  | .ifStatement test consequent alternate =>
    Message.statement
      (Message.ifStatement (expression test) (statement consequent) (statement? alternate))
  | .whileStatement test body =>
    Message.statement (Message.whileLoop (expression test) (statement body))
  | .doWhileStatement body test =>
    Message.statement (Message.doWhileLoop (statement body) (expression test))
  | .forStatement (some init) (some test) (some update) body =>
    Message.statement
      (Message.forLoop (head init) (expression test) (expression update) (statement body))
  | .forStatement _ _ _ _ => Message.statement Message.emptyStatement
  | .forInStatement left right body =>
    Message.statement (Message.forInLoop (head left) (expression right) (statement body))
  | .forOfStatement left right body _ =>
    Message.statement (Message.forOfLoop (head left) (expression right) (statement body))
  | .tryStatement block handler finalizer =>
    Message.statement
      (Message.tryStatement (statements block) (catchClause? handler) (finallyClause? finalizer))
  | .throwStatement argument => Message.statement (Message.throwStatement (expression argument))
  | .unsupported _ => Message.statement Message.emptyStatement

/-- The messages of statements. -/
def statements : List Statement → List (Message .statement)
  | [] => []
  | s :: rest => statement s :: statements rest

/-- The message of an optional statement. -/
def statement? : Option Statement → Option (Message .statement)
  | none => none
  | some s => some (statement s)

/-- The message of one variable of a declaration. -/
def declarator : Declarator → Message .variableDeclarator
  | .mk id init => Message.variableDeclarator (name id) (expression? init)

/-- The messages of the variables of a declaration. -/
def declarators : List Declarator → List (Message .variableDeclarator)
  | [] => []
  | d :: rest => declarator d :: declarators rest

/-- The message of the variable in the head of a loop. -/
def head : ForInit → Message .variableDeclarator
  | .variableDeclaration _ (d :: _) => declarator d
  | _ => Message.variableDeclarator "" none

/-- The message of a catch clause. -/
def catchClause : CatchClause → Message .catchClause
  | .mk param body => Message.catchClause (param.map parameter) (statements body)

/-- The message of an optional catch clause. -/
def catchClause? : Option CatchClause → Option (Message .catchClause)
  | none => none
  | some clause => some (catchClause clause)

/-- The message of an optional finally clause. -/
def finallyClause? : Option (List Statement) → Option (Message .finallyClause)
  | none => none
  | some body => some (Message.finallyClause (statements body))

/-- The message of an expression. -/
def expression : Expression → Message .expression
  | .identifier name => Message.expression (Message.identifier name)
  | .numericLiteral value => Message.expression (Message.numberLiteral value)
  | .bigIntLiteral value => Message.expression (Message.bigIntLiteral value)
  | .stringLiteral value => Message.expression (Message.stringLiteral value)
  | .regExpLiteral pattern flags => Message.expression (Message.regExpLiteral pattern flags)
  | .booleanLiteral value => Message.expression (Message.booleanLiteral value)
  | .nullLiteral => Message.expression Message.nullLiteral
  | .thisExpression => Message.expression Message.thisExpression
  | .intrinsicIdentifier name => Message.expression (Message.intrinsicIdentifier name)
  | .assignmentExpression operator left right =>
    Message.expression
      (Message.assignmentExpression operator (expression left) (expression right))
  | .objectExpression properties =>
    Message.expression (Message.objectExpression (members properties))
  | .arrayExpression parts => Message.expression (Message.arrayExpression (elements parts))
  | .functionExpression _ params body generator isAsync =>
    Message.expression
      (Message.functionExpression (functionType generator isAsync) (params.map parameter)
        (statements body))
  | .arrowFunctionExpression _ params body _ isAsync =>
    Message.expression (arrow (functionType false isAsync) (params.map parameter) body)
  | .callExpression callee arguments =>
    Message.expression (Message.callExpression (expression callee) (expressions arguments))
  | .newExpression callee arguments =>
    Message.expression (Message.newExpression (expression callee) (expressions arguments))
  | .memberExpression object property true =>
    Message.expression (Message.computedMember (expression object) (expression property))
  | .memberExpression object property false =>
    Message.expression (Message.namedMember (expression object) (text property))
  | .unaryExpression operator _ argument =>
    Message.expression (Message.unaryExpression operator (expression argument))
  | .binaryExpression operator left right =>
    Message.expression (Message.binaryExpression operator (expression left) (expression right))
  | .logicalExpression operator left right =>
    Message.expression (Message.binaryExpression operator (expression left) (expression right))
  | .updateExpression operator isPrefix argument =>
    Message.expression (Message.updateExpression operator isPrefix (expression argument))
  | .yieldExpression argument _ =>
    Message.expression (Message.yieldExpression (expression? argument))
  | .awaitExpression argument =>
    Message.expression (Message.awaitExpression (expression argument))
  | .conditionalExpression test consequent alternate =>
    Message.expression
      (Message.ternaryExpression (expression test) (expression consequent) (expression alternate))
  | .sequenceExpression parts => Message.expression (Message.sequenceExpression (expressions parts))
  | .spreadElement argument => Message.expression (Message.spreadElement (expression argument))
  | .unsupported _ => Message.expression Message.nullLiteral

/-- The messages of expressions. -/
def expressions : List Expression → List (Message .expression)
  | [] => []
  | e :: rest => expression e :: expressions rest

/-- The message of an optional expression. -/
def expression? : Option Expression → Option (Message .expression)
  | none => none
  | some e => some (expression e)

/-- The messages of the elements of an array, with an empty one for each hole. -/
def elements : List (Option Expression) → List (Message .expression)
  | [] => []
  | none :: rest => Message.hole :: elements rest
  | some e :: rest => expression e :: elements rest

/-- The message of an arrow function with the given body. -/
def arrow (type : Int32) (params : List (Message .parameter)) :
    ArrowBody → Message .arrowFunctionExpression
  | .blockStatement body =>
    Message.blockArrow type params (Message.statement (Message.blockStatement (statements body)))
  | .expression e => Message.expressionArrow type params (expression e)

/-- The message of a member of an object literal. -/
def member : Member → Message .objectField
  | .objectProperty key value true _ _ =>
    Message.objectField (Message.computedProperty (expression key) (expression value))
  | .objectProperty (.numericLiteral number) value false _ _ =>
    Message.objectField (Message.indexedProperty (index number) (expression value))
  | .objectProperty key value false _ _ =>
    Message.objectField (Message.namedProperty (text key) (expression value))
  | .objectMethod .method key params body _ _ generator isAsync =>
    Message.objectField
      (Message.objectMethod (text key) (functionType generator isAsync) (params.map parameter)
        (statements body))
  | .objectMethod .getter key _ body _ _ _ _ =>
    Message.objectField (Message.objectGetter (text key) (statements body))
  | .objectMethod .setter key params body _ _ _ _ =>
    Message.objectField
      (Message.objectSetter (text key) (parameter (params.headD .objectPattern)) (statements body))
  | .spreadElement _ => Message.empty .objectField
  | .unsupported _ => Message.empty .objectField

/-- The messages of the members of an object literal. -/
def members : List Member → List (Message .objectField)
  | [] => []
  | m :: rest => member m :: members rest

end

/-- The message of a program. -/
def program (p : Program) : Message .ast :=
  Message.ast (statements p.body)

@[simp]
theorem statements_eq_map (body : List Statement) : statements body = body.map statement := by
  induction body with
  | nil => rfl
  | cons s rest ih => rw [statements, ih, List.map_cons]

@[simp]
theorem statement?_eq_map (s : Option Statement) : statement? s = s.map statement := by
  cases s <;> rfl

@[simp]
theorem declarators_eq_map (ds : List Declarator) : declarators ds = ds.map declarator := by
  induction ds with
  | nil => rfl
  | cons d rest ih => rw [declarators, ih, List.map_cons]

@[simp]
theorem catchClause?_eq_map (c : Option CatchClause) : catchClause? c = c.map catchClause := by
  cases c <;> rfl

@[simp]
theorem finallyClause?_eq_map (body : Option (List Statement)) :
    finallyClause? body = body.map fun b => Message.finallyClause (b.map statement) := by
  cases body with
  | none => rfl
  | some b => rw [finallyClause?, statements_eq_map, Option.map_some]

@[simp]
theorem expressions_eq_map (es : List Expression) : expressions es = es.map expression := by
  induction es with
  | nil => rfl
  | cons e rest ih => rw [expressions, ih, List.map_cons]

@[simp]
theorem expression?_eq_map (e : Option Expression) : expression? e = e.map expression := by
  cases e <;> rfl

@[simp]
theorem elements_eq_map (es : List (Option Expression)) :
    elements es = es.map fun e => (e.map expression).getD Message.hole := by
  induction es with
  | nil => rfl
  | cons e rest ih => cases e <;> rw [elements, ih, List.map_cons] <;> rfl

@[simp]
theorem members_eq_map (ms : List Member) : members ms = ms.map member := by
  induction ms with
  | nil => rfl
  | cons m rest ih => rw [members, ih, List.map_cons]

end Image

end ScriptWire
