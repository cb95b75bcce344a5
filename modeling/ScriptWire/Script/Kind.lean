/-!
# The kinds of unread constructs

A construct that no later stage looks into is known by its kind. Most kinds are spelled by the rule
of the grammar that the construct follows; some have a name of their own.

## Main definitions

- `Script.kindOfRule` — the kind that a rule of the grammar spells
- `Script.UnreadStatement`, `Script.UnreadExpression` — constructs kept as their kind only
-/

namespace ScriptWire

namespace Script

/-- The rules whose kinds have a name of their own. -/
def renamedRules : List (String × String) :=
  [("import_statement", "ImportDeclaration"), ("export_statement", "ExportNamedDeclaration"),
    ("do_statement", "DoWhileStatement"), ("statement_block", "BlockStatement"),
    ("template_string", "TemplateLiteral"), ("class", "ClassExpression"), ("super", "Super"),
    ("import", "Import"), ("private_property_identifier", "PrivateName"),
    ("meta_property", "MetaProperty"), ("ternary_expression", "ConditionalExpression"),
    ("subscript_expression", "MemberExpression"), ("optional_chain", "OptionalMemberExpression"),
    ("pair_pattern", "ObjectProperty"), ("object_assignment_pattern", "ObjectProperty"),
    ("rest_pattern", "RestElement"), ("jsx_element", "JSXElement"),
    ("jsx_self_closing_element", "JSXElement")]

/-- Words with underscores between them as one word, in which each starts with a capital; `start`
tells that a word starts here. -/
def joinWords (start : Bool) : List Char → List Char
  | [] => []
  | c :: rest =>
    if c = '_' then joinWords true rest
    else (if start then c.toUpper else c) :: joinWords false rest

/-- The kind of a construct by the rule that it follows. -/
def kindOfRule (rule : String) : String :=
  (renamedRules.lookup rule).getD (String.ofList (joinWords true rule.toList))

/-- Statements that are kept as their kind only. -/
inductive UnreadStatement
  | classDeclaration
  | importDeclaration
  | exportDeclaration
  | usingDeclaration
  | labeledStatement
  | switchStatement
  | withStatement
  | breakStatement
  | continueStatement
  | debuggerStatement
deriving DecidableEq

/-- The rule of an unread statement. -/
def UnreadStatement.rule : UnreadStatement → String
  | .classDeclaration => "class_declaration"
  | .importDeclaration => "import_statement"
  | .exportDeclaration => "export_statement"
  | .usingDeclaration => "using_declaration"
  | .labeledStatement => "labeled_statement"
  | .switchStatement => "switch_statement"
  | .withStatement => "with_statement"
  | .breakStatement => "break_statement"
  | .continueStatement => "continue_statement"
  | .debuggerStatement => "debugger_statement"

/-- The kind under which an unread statement is known. -/
def UnreadStatement.kind (u : UnreadStatement) : String :=
  kindOfRule u.rule

/-- Expressions that are kept as their kind only. -/
inductive UnreadExpression
  | templateLiteral
  | taggedTemplate
  | classExpression
  | superWord
  | importWord
  | privateName
  | metaProperty
  | optionalMember
  | optionalCall
  | markupElement
  | objectPattern
  | arrayPattern
deriving DecidableEq

/-- The kind under which an unread expression is known. Three are told from others of the same rule
by one of their parts. -/
def UnreadExpression.kind : UnreadExpression → String
  | .templateLiteral => kindOfRule "template_string"
  | .taggedTemplate => "TaggedTemplateExpression"
  | .classExpression => kindOfRule "class"
  | .superWord => kindOfRule "super"
  | .importWord => kindOfRule "import"
  | .privateName => kindOfRule "private_property_identifier"
  | .metaProperty => kindOfRule "meta_property"
  | .optionalMember => "OptionalMemberExpression"
  | .optionalCall => "OptionalCallExpression"
  | .markupElement => kindOfRule "jsx_element"
  | .objectPattern => kindOfRule "object_pattern"
  | .arrayPattern => kindOfRule "array_pattern"

/-- The kind of a binding to a member of an object, whether named or computed. -/
def memberAccessKind : String :=
  kindOfRule "member_expression"

end Script

end ScriptWire
