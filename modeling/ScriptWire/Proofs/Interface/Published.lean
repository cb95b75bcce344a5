import ScriptWire.Proofs.Interface.Serialization

/-!
# The published interface

The declarations of the messages in which a compiled program is handed on, in the order and with the
spellings under which they are published. They are a second source for the numbers of fields, apart
from the schema by which messages are encoded and decoded.

## Main definitions

- `Interface.published` — the declarations of all messages
-/

namespace ScriptWire

namespace Interface

/-- The declarations of all messages. -/
def published : Schema where
  enumerations := ["VariableDeclarationKind", "FunctionType"]
  messages := [
    ⟨"AST", [.repeated ⟨.named "Statement", "statements", 1⟩]⟩,
    ⟨"Parameter", [.single ⟨.string, "name", 1⟩]⟩,
    ⟨"EmptyStatement", []⟩,
    ⟨"BlockStatement", [.repeated ⟨.named "Statement", "body", 1⟩]⟩,
    ⟨"VariableDeclarator",
      [.single ⟨.string, "name", 1⟩, .single ⟨.named "Expression", "value", 2⟩]⟩,
    ⟨"VariableDeclaration",
      [.single ⟨.named "VariableDeclarationKind", "kind", 1⟩,
       .repeated ⟨.named "VariableDeclarator", "declarations", 2⟩]⟩,
    ⟨"FunctionDeclaration",
      [.single ⟨.string, "name", 1⟩, .single ⟨.named "FunctionType", "type", 2⟩,
       .repeated ⟨.named "Parameter", "parameters", 3⟩,
       .repeated ⟨.named "Statement", "body", 4⟩]⟩,
    ⟨"ReturnStatement", [.single ⟨.named "Expression", "argument", 1⟩]⟩,
    ⟨"ExpressionStatement", [.single ⟨.named "Expression", "expression", 1⟩]⟩,
    ⟨"IfStatement",
      [.single ⟨.named "Expression", "test", 1⟩, .single ⟨.named "Statement", "ifBody", 2⟩,
       .single ⟨.named "Statement", "elseBody", 3⟩]⟩,
    ⟨"WhileLoop",
      [.single ⟨.named "Expression", "test", 1⟩, .single ⟨.named "Statement", "body", 2⟩]⟩,
    ⟨"DoWhileLoop",
      [.single ⟨.named "Statement", "body", 1⟩, .single ⟨.named "Expression", "test", 2⟩]⟩,
    ⟨"ForLoop",
      [.single ⟨.named "VariableDeclarator", "init", 1⟩, .single ⟨.named "Expression", "test", 2⟩,
       .single ⟨.named "Expression", "update", 3⟩, .single ⟨.named "Statement", "body", 4⟩]⟩,
    ⟨"ForInLoop",
      [.single ⟨.named "VariableDeclarator", "left", 1⟩, .single ⟨.named "Expression", "right", 2⟩,
       .single ⟨.named "Statement", "body", 3⟩]⟩,
    ⟨"ForOfLoop",
      [.single ⟨.named "VariableDeclarator", "left", 1⟩, .single ⟨.named "Expression", "right", 2⟩,
       .single ⟨.named "Statement", "body", 3⟩]⟩,
    ⟨"CatchClause",
      [.single ⟨.named "Parameter", "parameter", 1⟩, .repeated ⟨.named "Statement", "body", 2⟩]⟩,
    ⟨"FinallyClause", [.repeated ⟨.named "Statement", "body", 1⟩]⟩,
    ⟨"TryStatement",
      [.repeated ⟨.named "Statement", "body", 1⟩, .single ⟨.named "CatchClause", "catch", 2⟩,
       .single ⟨.named "FinallyClause", "finally", 3⟩]⟩,
    ⟨"ThrowStatement", [.single ⟨.named "Expression", "argument", 1⟩]⟩,
    ⟨"Statement",
      [.oneof "statement"
         [⟨.named "EmptyStatement", "emptyStatement", 1⟩,
          ⟨.named "BlockStatement", "blockStatement", 2⟩,
          ⟨.named "VariableDeclaration", "variableDeclaration", 3⟩,
          ⟨.named "FunctionDeclaration", "functionDeclaration", 4⟩,
          ⟨.named "ReturnStatement", "returnStatement", 5⟩,
          ⟨.named "ExpressionStatement", "expressionStatement", 6⟩,
          ⟨.named "IfStatement", "ifStatement", 7⟩, ⟨.named "WhileLoop", "whileLoop", 8⟩,
          ⟨.named "DoWhileLoop", "doWhileLoop", 9⟩, ⟨.named "ForLoop", "forLoop", 10⟩,
          ⟨.named "ForInLoop", "forInLoop", 11⟩, ⟨.named "ForOfLoop", "forOfLoop", 12⟩,
          ⟨.named "TryStatement", "tryStatement", 13⟩,
          ⟨.named "ThrowStatement", "throwStatement", 14⟩]]⟩,
    ⟨"Identifier", [.single ⟨.string, "name", 1⟩]⟩,
    ⟨"NumberLiteral", [.single ⟨.double, "value", 1⟩]⟩,
    ⟨"BigIntLiteral", [.single ⟨.string, "value", 1⟩]⟩,
    ⟨"StringLiteral", [.single ⟨.string, "value", 1⟩]⟩,
    ⟨"RegExpLiteral", [.single ⟨.string, "pattern", 1⟩, .single ⟨.string, "flags", 2⟩]⟩,
    ⟨"BooleanLiteral", [.single ⟨.bool, "value", 1⟩]⟩,
    ⟨"NullLiteral", []⟩,
    ⟨"ThisExpression", []⟩,
    ⟨"AssignmentExpression",
      [.single ⟨.string, "operator", 1⟩, .single ⟨.named "Expression", "lhs", 2⟩,
       .single ⟨.named "Expression", "rhs", 3⟩]⟩,
    ⟨"ObjectProperty",
      [.oneof "key"
         [⟨.string, "name", 1⟩, ⟨.int64, "index", 2⟩, ⟨.named "Expression", "expression", 3⟩],
       .single ⟨.named "Expression", "value", 4⟩]⟩,
    ⟨"ObjectMethod",
      [.single ⟨.string, "name", 1⟩, .single ⟨.named "FunctionType", "type", 2⟩,
       .repeated ⟨.named "Parameter", "parameters", 3⟩,
       .repeated ⟨.named "Statement", "body", 4⟩]⟩,
    ⟨"ObjectGetter", [.single ⟨.string, "name", 1⟩, .repeated ⟨.named "Statement", "body", 2⟩]⟩,
    ⟨"ObjectSetter",
      [.single ⟨.string, "name", 1⟩, .single ⟨.named "Parameter", "parameter", 2⟩,
       .repeated ⟨.named "Statement", "body", 3⟩]⟩,
    ⟨"ObjectField",
      [.oneof "field"
         [⟨.named "ObjectProperty", "property", 1⟩, ⟨.named "ObjectMethod", "method", 2⟩,
          ⟨.named "ObjectGetter", "getter", 3⟩, ⟨.named "ObjectSetter", "setter", 4⟩]]⟩,
    ⟨"ObjectExpression", [.repeated ⟨.named "ObjectField", "fields", 1⟩]⟩,
    ⟨"ArrayExpression", [.repeated ⟨.named "Expression", "elements", 1⟩]⟩,
    ⟨"FunctionExpression",
      [.single ⟨.named "FunctionType", "type", 1⟩, .repeated ⟨.named "Parameter", "parameters", 2⟩,
       .repeated ⟨.named "Statement", "body", 3⟩]⟩,
    ⟨"ArrowFunctionExpression",
      [.single ⟨.named "FunctionType", "type", 1⟩,
       .repeated ⟨.named "Parameter", "parameters", 2⟩,
       .oneof "body"
         [⟨.named "Statement", "block", 3⟩, ⟨.named "Expression", "expression", 4⟩]]⟩,
    ⟨"CallExpression",
      [.single ⟨.named "Expression", "callee", 1⟩,
       .repeated ⟨.named "Expression", "arguments", 2⟩]⟩,
    ⟨"NewExpression",
      [.single ⟨.named "Expression", "callee", 1⟩,
       .repeated ⟨.named "Expression", "arguments", 2⟩]⟩,
    ⟨"MemberExpression",
      [.single ⟨.named "Expression", "object", 1⟩,
       .oneof "property"
         [⟨.string, "name", 2⟩, ⟨.named "Expression", "expression", 3⟩]]⟩,
    ⟨"UnaryExpression",
      [.single ⟨.string, "operator", 1⟩, .single ⟨.named "Expression", "argument", 2⟩]⟩,
    ⟨"BinaryExpression",
      [.single ⟨.string, "operator", 1⟩, .single ⟨.named "Expression", "lhs", 2⟩,
       .single ⟨.named "Expression", "rhs", 3⟩]⟩,
    ⟨"UpdateExpression",
      [.single ⟨.string, "operator", 1⟩, .single ⟨.bool, "isPrefix", 2⟩,
       .single ⟨.named "Expression", "argument", 3⟩]⟩,
    ⟨"YieldExpression", [.single ⟨.named "Expression", "argument", 1⟩]⟩,
    ⟨"SpreadElement", [.single ⟨.named "Expression", "argument", 1⟩]⟩,
    ⟨"V8IntrinsicIdentifier", [.single ⟨.string, "name", 1⟩]⟩,
    ⟨"AwaitExpression", [.single ⟨.named "Expression", "argument", 1⟩]⟩,
    ⟨"TernaryExpression",
      [.single ⟨.named "Expression", "condition", 1⟩,
       .single ⟨.named "Expression", "consequent", 2⟩,
       .single ⟨.named "Expression", "alternate", 3⟩]⟩,
    ⟨"SequenceExpression", [.repeated ⟨.named "Expression", "expressions", 1⟩]⟩,
    ⟨"Expression",
      [.oneof "expression"
         [⟨.named "Identifier", "identifier", 1⟩, ⟨.named "NumberLiteral", "numberLiteral", 2⟩,
          ⟨.named "BigIntLiteral", "bigIntLiteral", 3⟩,
          ⟨.named "StringLiteral", "stringLiteral", 4⟩,
          ⟨.named "RegExpLiteral", "regExpLiteral", 5⟩,
          ⟨.named "BooleanLiteral", "booleanLiteral", 6⟩, ⟨.named "NullLiteral", "nullLiteral", 7⟩,
          ⟨.named "ThisExpression", "thisExpression", 8⟩,
          ⟨.named "AssignmentExpression", "assignmentExpression", 9⟩,
          ⟨.named "ObjectExpression", "objectExpression", 10⟩,
          ⟨.named "ArrayExpression", "arrayExpression", 11⟩,
          ⟨.named "FunctionExpression", "functionExpression", 12⟩,
          ⟨.named "ArrowFunctionExpression", "arrowFunctionExpression", 13⟩,
          ⟨.named "CallExpression", "callExpression", 14⟩,
          ⟨.named "NewExpression", "newExpression", 15⟩,
          ⟨.named "MemberExpression", "memberExpression", 16⟩,
          ⟨.named "UnaryExpression", "unaryExpression", 17⟩,
          ⟨.named "BinaryExpression", "binaryExpression", 18⟩,
          ⟨.named "UpdateExpression", "updateExpression", 19⟩,
          ⟨.named "YieldExpression", "yieldExpression", 20⟩,
          ⟨.named "SpreadElement", "spreadElement", 21⟩,
          ⟨.named "V8IntrinsicIdentifier", "v8IntrinsicIdentifier", 22⟩,
          ⟨.named "AwaitExpression", "awaitExpression", 23⟩,
          ⟨.named "TernaryExpression", "ternaryExpression", 24⟩,
          ⟨.named "SequenceExpression", "sequenceExpression", 25⟩]]⟩
  ]

end Interface

end ScriptWire
