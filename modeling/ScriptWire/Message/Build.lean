import ScriptWire.Message.WellFormed

/-!
# Building messages

## Main definitions

- `Message.identifier`, `Message.ifStatement`, … — a message of each kind from its parts
- `Message.Holds` — the kinds of messages that can stand in a variant
- `Message.statement`, `Message.expression`, `Message.objectField` — a message as the variant of
  another
-/

namespace ScriptWire

namespace Message

/-- One of the variants holds messages of the kind. -/
class Holds (vs : List Variant) (k : Kind) where
  choose : Message k → Choice vs

instance Holds.first {title name : String} {number : Nat} {k : Kind} {r : Requirement}
    {vs : List Variant} : Holds (⟨title, name, number, .message k, r⟩ :: vs) k where
  choose := fun m => .here (.message m)

instance (priority := low) Holds.next {v : Variant} {vs : List Variant} {k : Kind} [Holds vs k] :
    Holds (v :: vs) k where
  choose := fun m => .later (Holds.choose m)

/-- A statement that is the given message. -/
def statement {k : Kind} [Holds statementVariants k] (m : Message k) : Message .statement :=
  .mk .statement (.cons (.set (Holds.choose m)) .nil)

/-- An expression that is the given message. -/
def expression {k : Kind} [Holds expressionVariants k] (m : Message k) : Message .expression :=
  .mk .expression (.cons (.set (Holds.choose m)) .nil)

/-- A member of an object literal that is the given message. -/
def objectField {k : Kind} [Holds memberVariants k] (m : Message k) : Message .objectField :=
  .mk .objectField (.cons (.set (Holds.choose m)) .nil)

/-- The expression without a variant, which stands for a hole in an array. -/
def hole : Message .expression :=
  .mk .expression (.cons .unset .nil)

/-- A program. -/
def ast (statements : List (Message .statement)) : Message .ast :=
  .mk .ast (.cons (.ofList statements) .nil)

/-- A parameter. -/
def parameter (name : String) : Message .parameter :=
  .mk .parameter (.cons (.plain name) .nil)

/-- An empty statement. -/
def emptyStatement : Message .emptyStatement :=
  .mk .emptyStatement .nil

/-- A block. -/
def blockStatement (body : List (Message .statement)) : Message .blockStatement :=
  .mk .blockStatement (.cons (.ofList body) .nil)

/-- One variable of a declaration. -/
def variableDeclarator (name : String) (value : Option (Message .expression)) :
    Message .variableDeclarator :=
  .mk .variableDeclarator (.cons (.plain name) (.cons (.ofOption value) .nil))

/-- A declaration. -/
def variableDeclaration (kind : Int32) (declarations : List (Message .variableDeclarator)) :
    Message .variableDeclaration :=
  .mk .variableDeclaration (.cons (.plain kind) (.cons (.ofList declarations) .nil))

/-- A function with a name as a statement. -/
def functionDeclaration (name : String) (type : Int32) (parameters : List (Message .parameter))
    (body : List (Message .statement)) : Message .functionDeclaration :=
  .mk .functionDeclaration
    (.cons (.plain name)
      (.cons (.plain type) (.cons (.ofList parameters) (.cons (.ofList body) .nil))))

/-- A return. -/
def returnStatement (argument : Option (Message .expression)) : Message .returnStatement :=
  .mk .returnStatement (.cons (.ofOption argument) .nil)

/-- An expression as a statement. -/
def expressionStatement (expression : Message .expression) : Message .expressionStatement :=
  .mk .expressionStatement (.cons (.present expression) .nil)

/-- A conditional statement. -/
def ifStatement (test : Message .expression) (ifBody : Message .statement)
    (elseBody : Option (Message .statement)) : Message .ifStatement :=
  .mk .ifStatement
    (.cons (.present test) (.cons (.present ifBody) (.cons (.ofOption elseBody) .nil)))

/-- A loop with its test in front. -/
def whileLoop (test : Message .expression) (body : Message .statement) : Message .whileLoop :=
  .mk .whileLoop (.cons (.present test) (.cons (.present body) .nil))

/-- A loop with its test behind. -/
def doWhileLoop (body : Message .statement) (test : Message .expression) : Message .doWhileLoop :=
  .mk .doWhileLoop (.cons (.present body) (.cons (.present test) .nil))

/-- A counting loop. -/
def forLoop (init : Message .variableDeclarator) (test update : Message .expression)
    (body : Message .statement) : Message .forLoop :=
  .mk .forLoop
    (.cons (.present init)
      (.cons (.present test) (.cons (.present update) (.cons (.present body) .nil))))

/-- A loop over keys. -/
def forInLoop (left : Message .variableDeclarator) (right : Message .expression)
    (body : Message .statement) : Message .forInLoop :=
  .mk .forInLoop (.cons (.present left) (.cons (.present right) (.cons (.present body) .nil)))

/-- A loop over elements. -/
def forOfLoop (left : Message .variableDeclarator) (right : Message .expression)
    (body : Message .statement) : Message .forOfLoop :=
  .mk .forOfLoop (.cons (.present left) (.cons (.present right) (.cons (.present body) .nil)))

/-- A catch clause. -/
def catchClause (parameter : Option (Message .parameter)) (body : List (Message .statement)) :
    Message .catchClause :=
  .mk .catchClause (.cons (.ofOption parameter) (.cons (.ofList body) .nil))

/-- A finally clause. -/
def finallyClause (body : List (Message .statement)) : Message .finallyClause :=
  .mk .finallyClause (.cons (.ofList body) .nil)

/-- A statement with clauses for when it fails. -/
def tryStatement (body : List (Message .statement)) (handler : Option (Message .catchClause))
    (finalizer : Option (Message .finallyClause)) : Message .tryStatement :=
  .mk .tryStatement
    (.cons (.ofList body) (.cons (.ofOption handler) (.cons (.ofOption finalizer) .nil)))

/-- A throw. -/
def throwStatement (argument : Message .expression) : Message .throwStatement :=
  .mk .throwStatement (.cons (.present argument) .nil)

/-- A name. -/
def identifier (name : String) : Message .identifier :=
  .mk .identifier (.cons (.plain name) .nil)

/-- A number. -/
def numberLiteral (value : Binary64) : Message .numberLiteral :=
  .mk .numberLiteral (.cons (.plain value) .nil)

/-- A big integer. -/
def bigIntLiteral (value : String) : Message .bigIntLiteral :=
  .mk .bigIntLiteral (.cons (.plain value) .nil)

/-- A string. -/
def stringLiteral (value : String) : Message .stringLiteral :=
  .mk .stringLiteral (.cons (.plain value) .nil)

/-- A regular expression. -/
def regExpLiteral (pattern flags : String) : Message .regExpLiteral :=
  .mk .regExpLiteral (.cons (.plain pattern) (.cons (.plain flags) .nil))

/-- A truth value. -/
def booleanLiteral (value : Bool) : Message .booleanLiteral :=
  .mk .booleanLiteral (.cons (.plain value) .nil)

/-- The word `null`. -/
def nullLiteral : Message .nullLiteral :=
  .mk .nullLiteral .nil

/-- The word `this`. -/
def thisExpression : Message .thisExpression :=
  .mk .thisExpression .nil

/-- An assignment. -/
def assignmentExpression (operator : String) (lhs rhs : Message .expression) :
    Message .assignmentExpression :=
  .mk .assignmentExpression
    (.cons (.plain operator) (.cons (.present lhs) (.cons (.present rhs) .nil)))

/-- A property with a name as its key. -/
def namedProperty (name : String) (value : Message .expression) : Message .objectProperty :=
  .mk .objectProperty (.cons (.set (.here (.scalar name))) (.cons (.present value) .nil))

/-- A property with an integer as its key. -/
def indexedProperty (index : Int64) (value : Message .expression) : Message .objectProperty :=
  .mk .objectProperty (.cons (.set (.later (.here (.scalar index)))) (.cons (.present value) .nil))

/-- A property with a computed key. -/
def computedProperty (key value : Message .expression) : Message .objectProperty :=
  .mk .objectProperty
    (.cons (.set (.later (.later (.here (.message key))))) (.cons (.present value) .nil))

/-- A method. -/
def objectMethod (name : String) (type : Int32) (parameters : List (Message .parameter))
    (body : List (Message .statement)) : Message .objectMethod :=
  .mk .objectMethod
    (.cons (.plain name)
      (.cons (.plain type) (.cons (.ofList parameters) (.cons (.ofList body) .nil))))

/-- A getter. -/
def objectGetter (name : String) (body : List (Message .statement)) : Message .objectGetter :=
  .mk .objectGetter (.cons (.plain name) (.cons (.ofList body) .nil))

/-- A setter. -/
def objectSetter (name : String) (parameter : Message .parameter)
    (body : List (Message .statement)) : Message .objectSetter :=
  .mk .objectSetter (.cons (.plain name) (.cons (.present parameter) (.cons (.ofList body) .nil)))

/-- An object literal. -/
def objectExpression (members : List (Message .objectField)) : Message .objectExpression :=
  .mk .objectExpression (.cons (.ofList members) .nil)

/-- An array literal. -/
def arrayExpression (elements : List (Message .expression)) : Message .arrayExpression :=
  .mk .arrayExpression (.cons (.ofList elements) .nil)

/-- A function as an expression. -/
def functionExpression (type : Int32) (parameters : List (Message .parameter))
    (body : List (Message .statement)) : Message .functionExpression :=
  .mk .functionExpression
    (.cons (.plain type) (.cons (.ofList parameters) (.cons (.ofList body) .nil)))

/-- An arrow function with a block as its body. -/
def blockArrow (type : Int32) (parameters : List (Message .parameter))
    (body : Message .statement) : Message .arrowFunctionExpression :=
  .mk .arrowFunctionExpression
    (.cons (.plain type) (.cons (.ofList parameters) (.cons (.set (.here (.message body))) .nil)))

/-- An arrow function with an expression as its body. -/
def expressionArrow (type : Int32) (parameters : List (Message .parameter))
    (body : Message .expression) : Message .arrowFunctionExpression :=
  .mk .arrowFunctionExpression
    (.cons (.plain type)
      (.cons (.ofList parameters) (.cons (.set (.later (.here (.message body)))) .nil)))

/-- A call. -/
def callExpression (callee : Message .expression) (arguments : List (Message .expression)) :
    Message .callExpression :=
  .mk .callExpression (.cons (.present callee) (.cons (.ofList arguments) .nil))

/-- An instantiation. -/
def newExpression (callee : Message .expression) (arguments : List (Message .expression)) :
    Message .newExpression :=
  .mk .newExpression (.cons (.present callee) (.cons (.ofList arguments) .nil))

/-- An access to a property by its name. -/
def namedMember (object : Message .expression) (name : String) : Message .memberExpression :=
  .mk .memberExpression (.cons (.present object) (.cons (.set (.here (.scalar name))) .nil))

/-- An access to a computed property. -/
def computedMember (object property : Message .expression) : Message .memberExpression :=
  .mk .memberExpression
    (.cons (.present object) (.cons (.set (.later (.here (.message property)))) .nil))

/-- An operator in front of its operand. -/
def unaryExpression (operator : String) (argument : Message .expression) :
    Message .unaryExpression :=
  .mk .unaryExpression (.cons (.plain operator) (.cons (.present argument) .nil))

/-- An operator between its operands. -/
def binaryExpression (operator : String) (lhs rhs : Message .expression) :
    Message .binaryExpression :=
  .mk .binaryExpression
    (.cons (.plain operator) (.cons (.present lhs) (.cons (.present rhs) .nil)))

/-- An increment or a decrement. -/
def updateExpression (operator : String) (isPrefix : Bool) (argument : Message .expression) :
    Message .updateExpression :=
  .mk .updateExpression
    (.cons (.plain operator) (.cons (.plain isPrefix) (.cons (.present argument) .nil)))

/-- A yield. -/
def yieldExpression (argument : Option (Message .expression)) : Message .yieldExpression :=
  .mk .yieldExpression (.cons (.ofOption argument) .nil)

/-- A spread element. -/
def spreadElement (argument : Message .expression) : Message .spreadElement :=
  .mk .spreadElement (.cons (.present argument) .nil)

/-- A name of the engine. -/
def intrinsicIdentifier (name : String) : Message .intrinsicIdentifier :=
  .mk .intrinsicIdentifier (.cons (.plain name) .nil)

/-- An await. -/
def awaitExpression (argument : Message .expression) : Message .awaitExpression :=
  .mk .awaitExpression (.cons (.present argument) .nil)

/-- A conditional expression. -/
def ternaryExpression (condition consequent alternate : Message .expression) :
    Message .ternaryExpression :=
  .mk .ternaryExpression
    (.cons (.present condition) (.cons (.present consequent) (.cons (.present alternate) .nil)))

/-- A sequence of expressions. -/
def sequenceExpression (expressions : List (Message .expression)) : Message .sequenceExpression :=
  .mk .sequenceExpression (.cons (.ofList expressions) .nil)

end Message

end ScriptWire
