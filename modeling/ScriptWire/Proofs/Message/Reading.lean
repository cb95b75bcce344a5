import ScriptWire.Proofs.Message.Part
import ScriptWire.Tree.Basic

/-!
# Reading a message back into a tree

The tree that a message came from, as far as the message keeps it. Every message inside is read
first; what is read of the fields of a message is put together by the kind of the message alone. A
message that no tree has is given some tree.

## Main definitions

- `Message.Piece`, `Message.Cell` — what is read of a message and of a field
- `Message.assemble` — what is read of a message, from what is read of its fields
- `Message.read` — reading a message
-/

namespace ScriptWire

namespace Message

open ScriptWire.Tree

/-- What is read of a message. -/
inductive Piece
  | program (body : List Statement)
  | statement (s : Statement)
  | expression (e : Expression)
  /-- An expression without a variant. -/
  | hole
  | member (m : Member)
  | pattern (p : Pattern)
  | declarator (d : Declarator)
  | catchClause (clause : CatchClause)
  | finallyClause (body : List Statement)

namespace Piece

/-- The program that was read. -/
@[simp]
def toProgram : Piece → Program
  | .program body => ⟨body⟩
  | _ => ⟨[]⟩

/-- The statement that was read. -/
@[simp]
def toStatement : Piece → Statement
  | .statement s => s
  | _ => .emptyStatement

/-- The expression that was read, unless it is a hole. -/
@[simp]
def toElement : Piece → Option Expression
  | .expression e => some e
  | _ => none

/-- The expression that was read. -/
@[simp]
def toExpression (p : Piece) : Expression :=
  p.toElement.getD .nullLiteral

/-- The member that was read. -/
@[simp]
def toMember : Piece → Member
  | .member m => m
  | _ => .unsupported ""

/-- The binding that was read. -/
@[simp]
def toPattern : Piece → Pattern
  | .pattern p => p
  | _ => .objectPattern

/-- The variable that was read. -/
@[simp]
def toDeclarator : Piece → Declarator
  | .declarator d => d
  | _ => .mk .objectPattern none

/-- The catch clause that was read. -/
@[simp]
def toCatchClause : Piece → CatchClause
  | .catchClause clause => clause
  | _ => .mk none []

/-- The finally clause that was read. -/
@[simp]
def toFinallyClause : Piece → List Statement
  | .finallyClause body => body
  | _ => []

/-- The body of an arrow function that was read. -/
@[simp]
def toArrowBody : Piece → ArrowBody
  | .statement (.blockStatement body) => .blockStatement body
  | p => .expression p.toExpression

end Piece

/-- What is read of a field. -/
inductive Cell
  | scalar (type : Scalar) (value : type.Carrier)
  | absent
  | one (piece : Piece)
  | many (pieces : List Piece)

namespace Cell

/-- The text in a field. -/
def text : Cell → String
  | .scalar .text value => value
  | _ => ""

/-- The flag in a field. -/
def flag : Cell → Bool
  | .scalar .flag value => value
  | _ => false

/-- The choice in a field. -/
def choice : Cell → Int32
  | .scalar .choice value => value
  | _ => 0

/-- The number in a field. -/
def number : Cell → Binary64
  | .scalar .double value => value
  | _ => .zero

/-- The message in a field, if there is one. -/
def piece? : Cell → Option Piece
  | .one piece => some piece
  | _ => none

/-- The message in a field. -/
def piece (c : Cell) : Piece :=
  c.piece?.getD .hole

/-- The messages in a field. -/
def pieces : Cell → List Piece
  | .many pieces => pieces
  | _ => []

/-- The expression in a field. -/
def expression (c : Cell) : Expression :=
  c.piece.toExpression

/-- The statement in a field. -/
def statement (c : Cell) : Statement :=
  c.piece.toStatement

/-- The statements in a field. -/
def statements (c : Cell) : List Statement :=
  c.pieces.map Piece.toStatement

/-- The parameters in a field. -/
def parameters (c : Cell) : List Pattern :=
  c.pieces.map Piece.toPattern

/-- The expressions in a field. -/
def expressions (c : Cell) : List Expression :=
  c.pieces.map Piece.toExpression

/-- The expression in a field, if there is one. -/
def expression? (c : Cell) : Option Expression :=
  c.piece?.map Piece.toExpression

end Cell

/-- The word of a declaration that a choice stands for. -/
def keyword (choice : Int32) : String :=
  if choice = 0 then "var" else if choice = 1 then "let" else "const"

/-- The choice stands for a generator. -/
def isGenerator (choice : Int32) : Bool :=
  choice = 1 || choice = 3

/-- The choice stands for an asynchronous function. -/
def isAsync (choice : Int32) : Bool :=
  choice = 2 || choice = 3

/-- A loop variable as the head of a loop. -/
def loopHead (c : Cell) : ForInit :=
  .variableDeclaration "var" [c.piece.toDeclarator]

/-- A property of an object literal, from its key and value. -/
def property (key value : Cell) : Member :=
  match key with
  | .scalar .text name => .objectProperty (.stringLiteral name) value.expression false false false
  | .scalar .index index =>
    .objectProperty (.numericLiteral (.ofInt (index : Int64).toInt)) value.expression false false
      false
  | key => .objectProperty key.expression value.expression true false false

/-- An access to a property, from the object and the property. -/
def access (object property : Cell) : Expression :=
  match property with
  | .scalar .text name => .memberExpression object.expression (.identifier name) false
  | property => .memberExpression object.expression property.expression true

/-- What is read of a message, from what is read of its fields. -/
def assemble : Kind → List Cell → Piece
  | .ast, [statements] => .program statements.statements
  | .parameter, [name] => .pattern (.identifier name.text)
  | .emptyStatement, [] => .statement .emptyStatement
  | .blockStatement, [body] => .statement (.blockStatement body.statements)
  | .variableDeclarator, [name, value] =>
    .declarator (.mk (.identifier name.text) value.expression?)
  | .variableDeclaration, [kind, declarations] =>
    .statement (.variableDeclaration (keyword kind.choice)
      (declarations.pieces.map Piece.toDeclarator))
  | .functionDeclaration, [name, type, params, body] =>
    .statement (.functionDeclaration (some name.text) params.parameters body.statements
      (isGenerator type.choice) (isAsync type.choice))
  | .returnStatement, [argument] => .statement (.returnStatement argument.expression?)
  | .expressionStatement, [e] => .statement (.expressionStatement e.expression)
  | .ifStatement, [test, consequent, alternate] =>
    .statement (.ifStatement test.expression consequent.statement
      (alternate.piece?.map Piece.toStatement))
  | .whileLoop, [test, body] => .statement (.whileStatement test.expression body.statement)
  | .doWhileLoop, [body, test] => .statement (.doWhileStatement body.statement test.expression)
  | .forLoop, [init, test, update, body] =>
    .statement (.forStatement (some (loopHead init)) (some test.expression)
      (some update.expression) body.statement)
  | .forInLoop, [left, right, body] =>
    .statement (.forInStatement (loopHead left) right.expression body.statement)
  | .forOfLoop, [left, right, body] =>
    .statement (.forOfStatement (loopHead left) right.expression body.statement false)
  | .catchClause, [param, body] =>
    .catchClause (.mk (param.piece?.map Piece.toPattern) body.statements)
  | .finallyClause, [body] => .finallyClause body.statements
  | .tryStatement, [block, handler, finalizer] =>
    .statement (.tryStatement block.statements (handler.piece?.map Piece.toCatchClause)
      (finalizer.piece?.map Piece.toFinallyClause))
  | .throwStatement, [argument] => .statement (.throwStatement argument.expression)
  | .statement, [variant] => variant.piece
  | .identifier, [name] => .expression (.identifier name.text)
  | .numberLiteral, [value] => .expression (.numericLiteral value.number)
  | .bigIntLiteral, [value] => .expression (.bigIntLiteral value.text)
  | .stringLiteral, [value] => .expression (.stringLiteral value.text)
  | .regExpLiteral, [pattern, flags] => .expression (.regExpLiteral pattern.text flags.text)
  | .booleanLiteral, [value] => .expression (.booleanLiteral value.flag)
  | .nullLiteral, [] => .expression .nullLiteral
  | .thisExpression, [] => .expression .thisExpression
  | .assignmentExpression, [operator, left, right] =>
    .expression (.assignmentExpression operator.text left.expression right.expression)
  | .objectProperty, [key, value] => .member (property key value)
  | .objectMethod, [name, type, params, body] =>
    .member (.objectMethod .method (.stringLiteral name.text) params.parameters body.statements
      false false (isGenerator type.choice) (isAsync type.choice))
  | .objectGetter, [name, body] =>
    .member (.objectMethod .getter (.stringLiteral name.text) [] body.statements false false false
      false)
  | .objectSetter, [name, param, body] =>
    .member (.objectMethod .setter (.stringLiteral name.text) [param.piece.toPattern]
      body.statements false false false false)
  | .objectField, [variant] => variant.piece
  | .objectExpression, [properties] =>
    .expression (.objectExpression (properties.pieces.map Piece.toMember))
  | .arrayExpression, [elements] =>
    .expression (.arrayExpression (elements.pieces.map Piece.toElement))
  | .functionExpression, [type, params, body] =>
    .expression (.functionExpression none params.parameters body.statements
      (isGenerator type.choice) (isAsync type.choice))
  | .arrowFunctionExpression, [type, params, body] =>
    .expression (.arrowFunctionExpression none params.parameters body.piece.toArrowBody false
      (isAsync type.choice))
  | .callExpression, [callee, arguments] =>
    .expression (.callExpression callee.expression arguments.expressions)
  | .newExpression, [callee, arguments] =>
    .expression (.newExpression callee.expression arguments.expressions)
  | .memberExpression, [object, property] => .expression (access object property)
  | .unaryExpression, [operator, argument] =>
    .expression (.unaryExpression operator.text true argument.expression)
  | .binaryExpression, [operator, left, right] =>
    .expression (.binaryExpression operator.text left.expression right.expression)
  | .updateExpression, [operator, isPrefix, argument] =>
    .expression (.updateExpression operator.text isPrefix.flag argument.expression)
  | .yieldExpression, [argument] => .expression (.yieldExpression argument.expression? false)
  | .spreadElement, [argument] => .expression (.spreadElement argument.expression)
  | .intrinsicIdentifier, [name] => .expression (.intrinsicIdentifier name.text)
  | .awaitExpression, [argument] => .expression (.awaitExpression argument.expression)
  | .ternaryExpression, [test, consequent, alternate] =>
    .expression (.conditionalExpression test.expression consequent.expression
      alternate.expression)
  | .sequenceExpression, [expressions] => .expression (.sequenceExpression expressions.expressions)
  | .expression, [variant] => variant.piece
  | _, _ => .hole

mutual

/-- Reading a message. -/
def read : {k : Kind} → Message k → Piece
  | _, .mk k slots => assemble k slots.cells

/-- Reading fields. -/
def Slots.cells : {fs : List Field} → Slots fs → List Cell
  | _, .nil => []
  | _, .cons head tail => head.cell :: tail.cells

/-- Reading a field. -/
def Slot.cell : {shape : Shape} → Slot shape → Cell
  | _, @Slot.plain _ type value => .scalar type value
  | _, .absent => .absent
  | _, .present m => .one m.read
  | _, .repeated ms => .many ms.pieces
  | _, .unset => .absent
  | _, .set choice => choice.cell

/-- Reading a list of messages. -/
def Sequence.pieces : {k : Kind} → Sequence k → List Piece
  | _, .nil => []
  | _, .cons m rest => m.read :: rest.pieces

/-- Reading the chosen variant. -/
def Choice.cell : {vs : List Variant} → Choice vs → Cell
  | _, .here payload => payload.cell
  | _, .later choice => choice.cell

/-- Reading the contents of a variant. -/
def Payload.cell : {c : Content} → Payload c → Cell
  | _, @Payload.scalar type value => .scalar type value
  | _, .message m => .one m.read

end

@[simp]
theorem Sequence.pieces_ofList {k : Kind} (ms : List (Message k)) :
    (Sequence.ofList ms).pieces = ms.map read := by
  induction ms with
  | nil => rfl
  | cons m rest ih => rw [Sequence.ofList, Sequence.pieces, ih, List.map_cons]

theorem Payload.cell_of_parts {k : Kind} {m : Message k} {c : Content} {payload : Payload c}
    (h : payload.parts = [m.any]) : payload.cell = .one m.read := by
  cases payload with
  | scalar value => cases h
  | message n =>
    cases List.singleton_inj.mp h
    rfl

/-- A variant that holds a message is read as the message. -/
theorem Choice.cell_of_parts {k : Kind} {m : Message k} :
    {vs : List Variant} → {c : Choice vs} → c.parts = [m.any] → c.cell = .one m.read
  | _, .here _, h => Payload.cell_of_parts h
  | _, .later c, h => Choice.cell_of_parts (c := c) h

section Built

variable {k : Kind} {m : Message k} {name operator : String} {type : Int32}
  {test left right object property : Message .expression} {consequent body : Message .statement}
  {argument value : Option (Message .expression)} {arguments : List (Message .expression)}
  {parameters : List (Message .parameter)} {block : List (Message .statement)}

@[simp]
theorem read_statement [Holds statementVariants k] [LawfulHolds statementVariants k] :
    (Message.statement m).read = m.read := by
  change (Holds.choose m : Choice statementVariants).cell.piece = m.read
  rw [Choice.cell_of_parts (LawfulHolds.parts_choose m)]
  rfl

@[simp]
theorem read_expression [Holds expressionVariants k] [LawfulHolds expressionVariants k] :
    (Message.expression m).read = m.read := by
  change (Holds.choose m : Choice expressionVariants).cell.piece = m.read
  rw [Choice.cell_of_parts (LawfulHolds.parts_choose m)]
  rfl

@[simp]
theorem read_objectField [Holds memberVariants k] [LawfulHolds memberVariants k] :
    (Message.objectField m).read = m.read := by
  change (Holds.choose m : Choice memberVariants).cell.piece = m.read
  rw [Choice.cell_of_parts (LawfulHolds.parts_choose m)]
  rfl

@[simp]
theorem read_hole :
    hole.read = .hole :=
  rfl

@[simp]
theorem read_ast :
    (ast block).read = .program ((block.map read).map Piece.toStatement) := by
  rw [← Sequence.pieces_ofList]
  rfl

@[simp]
theorem read_parameter :
    (parameter name).read = .pattern (.identifier name) :=
  rfl

@[simp]
theorem read_emptyStatement :
    emptyStatement.read = .statement .emptyStatement :=
  rfl

@[simp]
theorem read_blockStatement :
    (blockStatement block).read =
      .statement (.blockStatement ((block.map read).map Piece.toStatement)) := by
  rw [← Sequence.pieces_ofList]
  rfl

@[simp]
theorem read_variableDeclarator :
    (variableDeclarator name value).read =
      .declarator (.mk (.identifier name) ((value.map read).map Piece.toExpression)) := by
  cases value <;> rfl

@[simp]
theorem read_variableDeclaration {declarations : List (Message .variableDeclarator)} :
    (variableDeclaration type declarations).read =
      .statement (.variableDeclaration (keyword type)
        ((declarations.map read).map Piece.toDeclarator)) := by
  rw [← Sequence.pieces_ofList]
  rfl

@[simp]
theorem read_functionDeclaration :
    (functionDeclaration name type parameters block).read =
      .statement (.functionDeclaration (some name) ((parameters.map read).map Piece.toPattern)
        ((block.map read).map Piece.toStatement) (isGenerator type) (isAsync type)) := by
  rw [← Sequence.pieces_ofList, ← Sequence.pieces_ofList]
  rfl

@[simp]
theorem read_returnStatement :
    (returnStatement argument).read =
      .statement (.returnStatement ((argument.map read).map Piece.toExpression)) := by
  cases argument <;> rfl

@[simp]
theorem read_expressionStatement :
    (expressionStatement test).read = .statement (.expressionStatement test.read.toExpression) :=
  rfl

@[simp]
theorem read_ifStatement {alternate : Option (Message .statement)} :
    (ifStatement test consequent alternate).read =
      .statement (.ifStatement test.read.toExpression consequent.read.toStatement
        ((alternate.map read).map Piece.toStatement)) := by
  cases alternate <;> rfl

@[simp]
theorem read_whileLoop :
    (whileLoop test body).read =
      .statement (.whileStatement test.read.toExpression body.read.toStatement) :=
  rfl

@[simp]
theorem read_doWhileLoop :
    (doWhileLoop body test).read =
      .statement (.doWhileStatement body.read.toStatement test.read.toExpression) :=
  rfl

@[simp]
theorem read_forLoop {init : Message .variableDeclarator} :
    (forLoop init test right body).read =
      .statement (.forStatement (some (.variableDeclaration "var" [init.read.toDeclarator]))
        (some test.read.toExpression) (some right.read.toExpression) body.read.toStatement) :=
  rfl

@[simp]
theorem read_forInLoop {init : Message .variableDeclarator} :
    (forInLoop init right body).read =
      .statement (.forInStatement (.variableDeclaration "var" [init.read.toDeclarator])
        right.read.toExpression body.read.toStatement) :=
  rfl

@[simp]
theorem read_forOfLoop {init : Message .variableDeclarator} :
    (forOfLoop init right body).read =
      .statement (.forOfStatement (.variableDeclaration "var" [init.read.toDeclarator])
        right.read.toExpression body.read.toStatement false) :=
  rfl

@[simp]
theorem read_catchClause {param : Option (Message .parameter)} :
    (catchClause param block).read =
      .catchClause (.mk ((param.map read).map Piece.toPattern)
        ((block.map read).map Piece.toStatement)) := by
  rw [← Sequence.pieces_ofList]
  cases param <;> rfl

@[simp]
theorem read_finallyClause :
    (finallyClause block).read = .finallyClause ((block.map read).map Piece.toStatement) := by
  rw [← Sequence.pieces_ofList]
  rfl

@[simp]
theorem read_tryStatement {handler : Option (Message .catchClause)}
    {finalizer : Option (Message .finallyClause)} :
    (tryStatement block handler finalizer).read =
      .statement (.tryStatement ((block.map read).map Piece.toStatement)
        ((handler.map read).map Piece.toCatchClause)
        ((finalizer.map read).map Piece.toFinallyClause)) := by
  rw [← Sequence.pieces_ofList]
  cases handler <;> cases finalizer <;> rfl

@[simp]
theorem read_throwStatement :
    (throwStatement test).read = .statement (.throwStatement test.read.toExpression) :=
  rfl

@[simp]
theorem read_identifier :
    (identifier name).read = .expression (.identifier name) :=
  rfl

@[simp]
theorem read_numberLiteral {number : Binary64} :
    (numberLiteral number).read = .expression (.numericLiteral number) :=
  rfl

@[simp]
theorem read_bigIntLiteral :
    (bigIntLiteral name).read = .expression (.bigIntLiteral name) :=
  rfl

@[simp]
theorem read_stringLiteral :
    (stringLiteral name).read = .expression (.stringLiteral name) :=
  rfl

@[simp]
theorem read_regExpLiteral {flags : String} :
    (regExpLiteral name flags).read = .expression (.regExpLiteral name flags) :=
  rfl

@[simp]
theorem read_booleanLiteral {flag : Bool} :
    (booleanLiteral flag).read = .expression (.booleanLiteral flag) :=
  rfl

@[simp]
theorem read_nullLiteral :
    nullLiteral.read = .expression .nullLiteral :=
  rfl

@[simp]
theorem read_thisExpression :
    thisExpression.read = .expression .thisExpression :=
  rfl

@[simp]
theorem read_intrinsicIdentifier :
    (intrinsicIdentifier name).read = .expression (.intrinsicIdentifier name) :=
  rfl

@[simp]
theorem read_assignmentExpression :
    (assignmentExpression operator left right).read =
      .expression (.assignmentExpression operator left.read.toExpression right.read.toExpression) :=
  rfl

@[simp]
theorem read_namedProperty :
    (namedProperty name right).read =
      .member (.objectProperty (.stringLiteral name) right.read.toExpression false false false) :=
  rfl

@[simp]
theorem read_indexedProperty {index : Int64} :
    (indexedProperty index right).read =
      .member (.objectProperty (.numericLiteral (.ofInt index.toInt)) right.read.toExpression false
        false false) :=
  rfl

@[simp]
theorem read_computedProperty :
    (computedProperty left right).read =
      .member (.objectProperty left.read.toExpression right.read.toExpression true false false) :=
  rfl

@[simp]
theorem read_objectMethod :
    (objectMethod name type parameters block).read =
      .member (.objectMethod .method (.stringLiteral name)
        ((parameters.map read).map Piece.toPattern) ((block.map read).map Piece.toStatement) false
        false (isGenerator type) (isAsync type)) := by
  rw [← Sequence.pieces_ofList, ← Sequence.pieces_ofList]
  rfl

@[simp]
theorem read_objectGetter :
    (objectGetter name block).read =
      .member (.objectMethod .getter (.stringLiteral name) []
        ((block.map read).map Piece.toStatement) false false false false) := by
  rw [← Sequence.pieces_ofList]
  rfl

@[simp]
theorem read_objectSetter {param : Message .parameter} :
    (objectSetter name param block).read =
      .member (.objectMethod .setter (.stringLiteral name) [param.read.toPattern]
        ((block.map read).map Piece.toStatement) false false false false) := by
  rw [← Sequence.pieces_ofList]
  rfl

@[simp]
theorem read_objectExpression {members : List (Message .objectField)} :
    (objectExpression members).read =
      .expression (.objectExpression ((members.map read).map Piece.toMember)) := by
  rw [← Sequence.pieces_ofList]
  rfl

@[simp]
theorem read_arrayExpression :
    (arrayExpression arguments).read =
      .expression (.arrayExpression ((arguments.map read).map Piece.toElement)) := by
  rw [← Sequence.pieces_ofList]
  rfl

@[simp]
theorem read_functionExpression :
    (functionExpression type parameters block).read =
      .expression (.functionExpression none ((parameters.map read).map Piece.toPattern)
        ((block.map read).map Piece.toStatement) (isGenerator type) (isAsync type)) := by
  rw [← Sequence.pieces_ofList, ← Sequence.pieces_ofList]
  rfl

@[simp]
theorem read_blockArrow :
    (blockArrow type parameters body).read =
      .expression (.arrowFunctionExpression none ((parameters.map read).map Piece.toPattern)
        body.read.toArrowBody false (isAsync type)) := by
  rw [← Sequence.pieces_ofList]
  rfl

@[simp]
theorem read_expressionArrow :
    (expressionArrow type parameters right).read =
      .expression (.arrowFunctionExpression none ((parameters.map read).map Piece.toPattern)
        right.read.toArrowBody false (isAsync type)) := by
  rw [← Sequence.pieces_ofList]
  rfl

@[simp]
theorem read_callExpression :
    (callExpression left arguments).read =
      .expression (.callExpression left.read.toExpression
        ((arguments.map read).map Piece.toExpression)) := by
  rw [← Sequence.pieces_ofList]
  rfl

@[simp]
theorem read_newExpression :
    (newExpression left arguments).read =
      .expression (.newExpression left.read.toExpression
        ((arguments.map read).map Piece.toExpression)) := by
  rw [← Sequence.pieces_ofList]
  rfl

@[simp]
theorem read_namedMember :
    (namedMember object name).read =
      .expression (.memberExpression object.read.toExpression (.identifier name) false) :=
  rfl

@[simp]
theorem read_computedMember :
    (computedMember object property).read =
      .expression (.memberExpression object.read.toExpression property.read.toExpression true) :=
  rfl

@[simp]
theorem read_unaryExpression :
    (unaryExpression operator right).read =
      .expression (.unaryExpression operator true right.read.toExpression) :=
  rfl

@[simp]
theorem read_binaryExpression :
    (binaryExpression operator left right).read =
      .expression (.binaryExpression operator left.read.toExpression right.read.toExpression) :=
  rfl

@[simp]
theorem read_updateExpression {isPrefix : Bool} :
    (updateExpression operator isPrefix right).read =
      .expression (.updateExpression operator isPrefix right.read.toExpression) :=
  rfl

@[simp]
theorem read_yieldExpression :
    (yieldExpression argument).read =
      .expression (.yieldExpression ((argument.map read).map Piece.toExpression) false) := by
  cases argument <;> rfl

@[simp]
theorem read_spreadElement :
    (spreadElement right).read = .expression (.spreadElement right.read.toExpression) :=
  rfl

@[simp]
theorem read_awaitExpression :
    (awaitExpression right).read = .expression (.awaitExpression right.read.toExpression) :=
  rfl

@[simp]
theorem read_ternaryExpression :
    (ternaryExpression test left right).read =
      .expression (.conditionalExpression test.read.toExpression left.read.toExpression
        right.read.toExpression) :=
  rfl

@[simp]
theorem read_sequenceExpression :
    (sequenceExpression arguments).read =
      .expression (.sequenceExpression ((arguments.map read).map Piece.toExpression)) := by
  rw [← Sequence.pieces_ofList]
  rfl

end Built

end Message

end ScriptWire
