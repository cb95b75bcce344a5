import ScriptWire.Lowering.Binding

/-!
# From trees to messages

Every node is turned into a message after the nodes inside it, and every message is checked. The
first node that is not accepted ends the walk. Statements and expressions may stand inside each
other on a given number of levels.

## Main definitions

- `Lowering.statement`, `Lowering.expression`, `Lowering.member` — the messages of nodes
- `compile` — the message of a program
-/

namespace ScriptWire

namespace Lowering

open ScriptWire.Tree

/-- The message as a statement. -/
def asStatement {k : Message.Kind} [Message.Holds Message.statementVariants k] (m : Message k) :
    Except CompileError (Message .statement) := do
  checked (Message.statement (← checked m))

/-- The message as an expression. -/
def asExpression {k : Message.Kind} [Message.Holds Message.expressionVariants k] (m : Message k) :
    Except CompileError (Message .expression) := do
  checked (Message.expression (← checked m))

/-- The message as a member of an object literal. -/
def asMember {k : Message.Kind} [Message.Holds Message.memberVariants k] (m : Message k) :
    Except CompileError (Message .objectField) := do
  checked (Message.objectField (← checked m))

mutual

/-- The message of a statement, with `levels` of `limit` levels left. -/
def statement (limit : Nat) : (levels : Nat) → Statement → Except CompileError (Message .statement)
  | 0, _ => .error (.tooDeep limit)
  | levels + 1, s =>
    match s with
    | .emptyStatement => asStatement Message.emptyStatement
    | .blockStatement body => do
      asStatement (Message.blockStatement (← statements limit levels body))
    | .expressionStatement e => do
      asStatement (Message.expressionStatement (← expression limit levels e))
    | .variableDeclaration kind declarations => do
      let kind ← declarationKind kind
      if declarations.isEmpty then .error (.unsupported "VariableDeclaration" .noDeclarators)
      else asStatement (Message.variableDeclaration kind (← declarators limit levels declarations))
    | .functionDeclaration id params body generator isAsync =>
      match id with
      | none => .error (.unsupported "FunctionDeclaration" .noFunctionName)
      | some name => do
        let name ← requiredText "FunctionDeclaration" "name" name
        let params ← parameters params
        let body ← statements limit levels body
        asStatement (Message.functionDeclaration name (functionType generator isAsync) params body)
    | .returnStatement argument => do
      asStatement (Message.returnStatement (← expression? limit levels argument))
    | .ifStatement test consequent alternate => do
      let test ← expression limit levels test
      let consequent ← statement limit levels consequent
      let alternate ← statement? limit levels alternate
      asStatement (Message.ifStatement test consequent alternate)
    | .whileStatement test body => do
      let test ← expression limit levels test
      let body ← statement limit levels body
      asStatement (Message.whileLoop test body)
    | .doWhileStatement body test => do
      let body ← statement limit levels body
      let test ← expression limit levels test
      asStatement (Message.doWhileLoop body test)
    | .forStatement init test update body =>
      match init, test, update with
      | some init, some test, some update => do
        let init ← countingHead limit levels init
        let test ← expression limit levels test
        let update ← expression limit levels update
        let body ← statement limit levels body
        asStatement (Message.forLoop init test update body)
      | _, _, _ => .error (.unsupported "ForStatement" .missingClause)
    | .forInStatement left right body => do
      let left ← iterationHead limit levels "ForInStatement" left
      let right ← expression limit levels right
      let body ← statement limit levels body
      asStatement (Message.forInLoop left right body)
    | .forOfStatement left right body isAwait =>
      if isAwait then .error (.unsupported "ForOfStatement" .awaitLoop)
      else do
        let left ← iterationHead limit levels "ForOfStatement" left
        let right ← expression limit levels right
        let body ← statement limit levels body
        asStatement (Message.forOfLoop left right body)
    | .tryStatement body handler finalizer =>
      if handler.isNone && finalizer.isNone then .error (.unsupported "TryStatement" .noHandler)
      else do
        let body ← statements limit levels body
        let handler ← catchClause? limit levels handler
        let finalizer ← finallyClause? limit levels finalizer
        asStatement (Message.tryStatement body handler finalizer)
    | .throwStatement argument => do
      asStatement (Message.throwStatement (← expression limit levels argument))
    | .unsupported kind => .error (.unhandled kind)

/-- The messages of statements. -/
def statements (limit levels : Nat) :
    List Statement → Except CompileError (List (Message .statement))
  | [] => return []
  | s :: rest => do
    let s ← statement limit levels s
    return s :: (← statements limit levels rest)

/-- The message of an optional statement. -/
def statement? (limit levels : Nat) :
    Option Statement → Except CompileError (Option (Message .statement))
  | none => return none
  | some s => return some (← statement limit levels s)

/-- The message of one variable of a declaration. -/
def declarator (limit levels : Nat) :
    Declarator → Except CompileError (Message .variableDeclarator)
  | .mk id init => do
    let name ← bindingName id
    checked (Message.variableDeclarator name (← expression? limit levels init))

/-- The messages of the variables of a declaration. -/
def declarators (limit levels : Nat) :
    List Declarator → Except CompileError (List (Message .variableDeclarator))
  | [] => return []
  | d :: rest => do
    let d ← declarator limit levels d
    return d :: (← declarators limit levels rest)

/-- The variable of a counting loop. -/
def countingHead (limit levels : Nat) : ForInit → Except CompileError (Message .variableDeclarator)
  | .expression e => .error (.unsupported "ForStatement" (.initNotDeclaration e.kind))
  | .variableDeclaration kind declarations => do
    let _ ← declarationKind kind
    match declarations with
    | [d] => declarator limit levels d
    | ds => .error (.unsupported "ForStatement" (.loopVariables ds.length))

/-- The variable of a loop over keys or elements, which has no first value. -/
def iterationHead (limit levels : Nat) (loop : String) :
    ForInit → Except CompileError (Message .variableDeclarator)
  | .expression e => .error (.unsupported loop (.leftNotDeclaration e.kind))
  | .variableDeclaration kind declarations => do
    let _ ← declarationKind kind
    match declarations with
    | [d] =>
      if d.init.isSome then .error (.unsupported loop .loopInitializer)
      else declarator limit levels d
    | ds => .error (.unsupported loop (.loopVariables ds.length))

/-- The message of an optional catch clause. -/
def catchClause? (limit levels : Nat) :
    Option CatchClause → Except CompileError (Option (Message .catchClause))
  | none => return none
  | some (.mk param body) => do
    let param ← param.mapM parameter
    let body ← statements limit levels body
    return some (← checked (Message.catchClause param body))

/-- The message of an optional finally clause. -/
def finallyClause? (limit levels : Nat) :
    Option (List Statement) → Except CompileError (Option (Message .finallyClause))
  | none => return none
  | some body => do
    let body ← statements limit levels body
    return some (← checked (Message.finallyClause body))

/-- The message of an expression, with `levels` of `limit` levels left. -/
def expression (limit : Nat) :
    (levels : Nat) → Expression → Except CompileError (Message .expression)
  | 0, _ => .error (.tooDeep limit)
  | levels + 1, e =>
    match e with
    | .identifier name => do
      asExpression (Message.identifier (← requiredText "Identifier" "name" name))
    | .numericLiteral value => asExpression (Message.numberLiteral value)
    | .bigIntLiteral value => do
      asExpression (Message.bigIntLiteral (← requiredText "BigIntLiteral" "value" value))
    | .stringLiteral value => asExpression (Message.stringLiteral value)
    | .regExpLiteral pattern flags => do
      let pattern ← requiredText "RegExpLiteral" "pattern" pattern
      asExpression (Message.regExpLiteral pattern flags)
    | .booleanLiteral value => asExpression (Message.booleanLiteral value)
    | .nullLiteral => asExpression Message.nullLiteral
    | .thisExpression => asExpression Message.thisExpression
    | .intrinsicIdentifier name => do
      let name ← requiredText "V8IntrinsicIdentifier" "name" name
      asExpression (Message.intrinsicIdentifier name)
    | .assignmentExpression operator left right => do
      let operator ← requiredText "AssignmentExpression" "operator" operator
      let left ← expression limit levels left
      let right ← expression limit levels right
      asExpression (Message.assignmentExpression operator left right)
    | .objectExpression properties => do
      asExpression (Message.objectExpression (← members limit levels properties))
    | .arrayExpression elements => do
      asExpression (Message.arrayExpression (← arrayElements limit levels elements))
    | .functionExpression _ params body generator isAsync => do
      let params ← parameters params
      let body ← statements limit levels body
      asExpression (Message.functionExpression (functionType generator isAsync) params body)
    | .arrowFunctionExpression id params body generator isAsync =>
      if generator then .error (.unsupported "ArrowFunctionExpression" .generatorArrow)
      else if id.isSome then .error (.unsupported "ArrowFunctionExpression" .namedArrow)
      else do
        let params ← parameters params
        let arrow ← arrow limit levels (functionType false isAsync) params body
        asExpression arrow
    | .callExpression callee arguments => do
      let callee ← expression limit levels callee
      let arguments ← expressions limit levels arguments
      asExpression (Message.callExpression callee arguments)
    | .newExpression callee arguments => do
      let callee ← expression limit levels callee
      let arguments ← expressions limit levels arguments
      asExpression (Message.newExpression callee arguments)
    | .memberExpression object property computed => do
      let object ← expression limit levels object
      if computed then
        asExpression (Message.computedMember object (← expression limit levels property))
      else
        match property with
        | .identifier name =>
          let name ← requiredText "MemberExpression" "property name" name
          asExpression (Message.namedMember object name)
        | property =>
          .error (.unsupported "MemberExpression" (.memberNotIdentifier property.kind))
    | .unaryExpression operator isPrefix argument =>
      if isPrefix then do
        let operator ← requiredText "UnaryExpression" "operator" operator
        asExpression (Message.unaryExpression operator (← expression limit levels argument))
      else .error (.unsupported "UnaryExpression" (.postfixOperator operator))
    | .binaryExpression operator left right => do
      let operator ← requiredText "BinaryExpression" "operator" operator
      let left ← expression limit levels left
      let right ← expression limit levels right
      asExpression (Message.binaryExpression operator left right)
    | .logicalExpression operator left right => do
      let operator ← requiredText "LogicalExpression" "operator" operator
      let left ← expression limit levels left
      let right ← expression limit levels right
      asExpression (Message.binaryExpression operator left right)
    | .updateExpression operator isPrefix argument => do
      let operator ← requiredText "UpdateExpression" "operator" operator
      let argument ← expression limit levels argument
      asExpression (Message.updateExpression operator isPrefix argument)
    | .yieldExpression argument delegate =>
      if delegate then .error (.unsupported "YieldExpression" .delegatingYield)
      else do
        asExpression (Message.yieldExpression (← expression? limit levels argument))
    | .awaitExpression argument => do
      asExpression (Message.awaitExpression (← expression limit levels argument))
    | .conditionalExpression test consequent alternate => do
      let test ← expression limit levels test
      let consequent ← expression limit levels consequent
      let alternate ← expression limit levels alternate
      asExpression (Message.ternaryExpression test consequent alternate)
    | .sequenceExpression parts => do
      asExpression (Message.sequenceExpression (← expressions limit levels parts))
    | .spreadElement argument => do
      asExpression (Message.spreadElement (← expression limit levels argument))
    | .unsupported kind => .error (.unhandled kind)

/-- The messages of expressions. -/
def expressions (limit levels : Nat) :
    List Expression → Except CompileError (List (Message .expression))
  | [] => return []
  | e :: rest => do
    let e ← expression limit levels e
    return e :: (← expressions limit levels rest)

/-- The message of an optional expression. -/
def expression? (limit levels : Nat) :
    Option Expression → Except CompileError (Option (Message .expression))
  | none => return none
  | some e => return some (← expression limit levels e)

/-- The messages of the elements of an array, with an empty one for each hole. -/
def arrayElements (limit levels : Nat) :
    List (Option Expression) → Except CompileError (List (Message .expression))
  | [] => return []
  | none :: rest => return Message.hole :: (← arrayElements limit levels rest)
  | some e :: rest => do
    let e ← expression limit levels e
    return e :: (← arrayElements limit levels rest)

/-- The message of an arrow function with the given body. -/
def arrow (limit levels : Nat) (type : Int32) (params : List (Message .parameter)) :
    ArrowBody → Except CompileError (Message .arrowFunctionExpression)
  | .blockStatement body => do
    let body ← statements limit levels body
    let block ← asStatement (Message.blockStatement body)
    return Message.blockArrow type params block
  | .expression e => do
    return Message.expressionArrow type params (← expression limit levels e)

/-- The message of a member of an object literal. -/
def member (limit levels : Nat) : Member → Except CompileError (Message .objectField)
  | .objectProperty key value computed shorthand method =>
    if shorthand || method then .error (.unsupported "ObjectProperty" .shorthandProperty)
    else if computed then do
      let key ← expression limit levels key
      asMember (Message.computedProperty key (← expression limit levels value))
    else
      match key with
      | .identifier name => do
        asMember (Message.namedProperty name (← expression limit levels value))
      | .stringLiteral name => do
        asMember (Message.namedProperty name (← expression limit levels value))
      | .numericLiteral number => do
        let index ← indexKey number
        asMember (Message.indexedProperty index (← expression limit levels value))
      | key => .error (.unsupported "ObjectProperty" (.keyKind key.kind))
  | .objectMethod kind key params body computed shorthand generator isAsync => do
    let name ← methodName key computed shorthand
    match kind with
    | .method =>
      let params ← parameters params
      let body ← statements limit levels body
      asMember (Message.objectMethod name (functionType generator isAsync) params body)
    | .getter =>
      plainAccessor "getter" generator isAsync
      noParameters params
      asMember (Message.objectGetter name (← statements limit levels body))
    | .setter =>
      plainAccessor "setter" generator isAsync
      let param ← parameter (← oneParameter params)
      asMember (Message.objectSetter name param (← statements limit levels body))
  | .spreadElement _ => .error (.unsupported "SpreadElement" .objectSpread)
  | .unsupported kind => .error (.unhandled kind)

/-- The messages of the members of an object literal. -/
def members (limit levels : Nat) :
    List Member → Except CompileError (List (Message .objectField))
  | [] => return []
  | m :: rest => do
    let m ← member limit levels m
    return m :: (← members limit levels rest)

end

end Lowering

/-- How many levels of statements and expressions may stand inside each other, unless another number
is asked for. -/
def defaultDepth : Nat :=
  256

/-- The message of a program in which at most `limit` levels stand inside each other. -/
def compile (limit : Nat) (program : Tree.Program) : Except CompileError (Message .ast) := do
  Lowering.checked (Message.ast (← Lowering.statements limit limit program.body))

end ScriptWire
