import ScriptWire.Binary64.Text
import ScriptWire.Language.Error
import ScriptWire.Message.WellFormed

/-!
# Why a tree has no message

## Main definitions

- `Lowering.Reason` — why a node of a known kind is not accepted
- `CompileError` — why a program has no message
-/

namespace ScriptWire

/-- Why a node of a known kind is not accepted. -/
inductive Lowering.Reason
  | emptyText (field : String)
  | emptyBinding
  | defaultValue
  | restBinding
  | destructuring
  | declarationKind (word : String)
  | noDeclarators
  | noFunctionName
  | missingClause
  | initNotDeclaration (kind : String)
  | leftNotDeclaration (kind : String)
  | loopVariables (count : Nat)
  | loopInitializer
  | awaitLoop
  | noHandler
  | generatorArrow
  | namedArrow
  | memberNotIdentifier (kind : String)
  | postfixOperator (operator : String)
  | delegatingYield
  | objectSpread
  | shorthandProperty
  | keyNotInteger (value : Binary64)
  | keyKind (kind : String)
  | computedMethod
  | methodKind (kind : String)
  | accessorFlags (accessor : String)
  | getterParameters
  | setterParameters (count : Nat)
deriving DecidableEq

/-- The wording of a reason. -/
def Lowering.Reason.text : Lowering.Reason → String
  | .emptyText field => "empty " ++ field
  | .emptyBinding => "empty binding name"
  | .defaultValue => "default values are not supported"
  | .restBinding => "rest bindings are not supported"
  | .destructuring => "destructuring is not supported"
  | .declarationKind word => "unknown declaration kind " ++ Text.quoted word
  | .noDeclarators => "declaration has no declarators"
  | .noFunctionName => "function declaration has no name"
  | .missingClause => "init, test and update clauses are all required"
  | .initNotDeclaration kind => "init must be a variable declaration, found " ++ kind
  | .leftNotDeclaration kind => "left side must be a variable declaration, found " ++ kind
  | .loopVariables count =>
    "loop head must declare exactly one variable, found " ++ toString count
  | .loopInitializer => "loop variable must not have an initializer"
  | .awaitLoop => "for await loops are not supported"
  | .noHandler => "try needs a catch or finally clause"
  | .generatorArrow => "arrow functions cannot be generators"
  | .namedArrow => "arrow functions cannot be named"
  | .memberNotIdentifier kind => "property must be an identifier, found " ++ kind
  | .postfixOperator operator => "postfix operator " ++ operator ++ " is not supported"
  | .delegatingYield => "delegating yield* is not supported"
  | .objectSpread => "spread in object literals is not supported"
  | .shorthandProperty => "shorthand and method properties are not supported"
  | .keyNotInteger value =>
    "numeric key " ++ NumberStyle.plain.render value ++ " is not an integer"
  | .keyKind kind => "unsupported key " ++ kind
  | .computedMethod => "computed and shorthand method names are not supported"
  | .methodKind kind => "unsupported method name " ++ kind
  | .accessorFlags accessor => accessor ++ " must be synchronous and not a generator"
  | .getterParameters => "getter must not take parameters"
  | .setterParameters count =>
    "setter must take exactly one parameter, found " ++ toString count

/-- Why a program has no message. -/
inductive CompileError
  /-- A node is of a kind that messages have no place for. -/
  | unhandled (kind : String)
  /-- A node of a known kind is not accepted. -/
  | unsupported (kind : String) (reason : Lowering.Reason)
  /-- A message is not well-formed. -/
  | shape (violation : Message.Violation)
  /-- Nodes stand inside each other on more than `limit` levels. -/
  | tooDeep (limit : Nat)
deriving DecidableEq

namespace CompileError

/-- The wording of a fault. -/
def message : CompileError → String
  | .unhandled kind => "unhandled node type " ++ kind
  | .unsupported kind reason => "unsupported " ++ kind ++ ": " ++ reason.text
  | .shape violation => violation.message
  | .tooDeep limit => nestingMessage limit

/-- The fault is one of the program, not of the messages. -/
def isInputFault : CompileError → Bool
  | .shape _ => false
  | _ => true

end CompileError

end ScriptWire
