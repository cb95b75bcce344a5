import ScriptWire.Script.Kind

/-!
# Scripts as they are written

The tree of a script that follows the grammar: literals are kept as text, groups in parentheses and
the commas of array literals are kept, and constructs that no later stage looks into are kept as
their kind only.

## Main definitions

- `Script.Statement`, `Script.Expression`, `Script.Pattern`, `Script.Member` — levels of the tree
-/

namespace ScriptWire

namespace Script

/-- The name after the point of a member access. -/
inductive MemberName
  /-- A plain name. -/
  | plain (name : String)
  /-- A name that is private to a class. -/
  | hidden
deriving DecidableEq

/-- What the words in front of a method make of it. -/
structure MethodMarks where
  getter : Bool
  setter : Bool
  generator : Bool
  isAsync : Bool
deriving DecidableEq, Inhabited

mutual

/-- A statement. -/
inductive Statement
  | empty
  | block (body : List Statement)
  | expression (value : Expression)
  | declaration (keyword : String) (declarators : List Declarator)
  | function (name : String) (params : List Pattern) (body : List Statement)
      (generator isAsync : Bool)
  | returns (argument : Option Expression)
  | conditional (test : Expression) (consequent : Statement) (alternate : Option Statement)
  | whileLoop (test : Expression) (body : Statement)
  | doLoop (body : Statement) (test : Expression)
  | forLoop (init : Option ForHead) (test update : Option Expression) (body : Statement)
  | forIn (left : ForHead) (right : Expression) (body : Statement)
  | forOf (isAwait : Bool) (left : ForHead) (right : Expression) (body : Statement)
  | tries (block : List Statement) (handler : Option Handler) (finalizer : Option (List Statement))
  | throws (argument : Expression)
  | unread (kind : UnreadStatement)

/-- One variable of a declaration. -/
inductive Declarator
  | mk (target : Pattern) (value : Option Expression)

/-- What stands before the first semicolon, or before `in` or `of`, in the head of a loop. -/
inductive ForHead
  | declaration (keyword : String) (declarators : List Declarator)
  | expression (value : Expression)

/-- A `catch` clause. -/
inductive Handler
  | mk (param : Option Pattern) (body : List Statement)

/-- An expression, or an element of a list that is spread. -/
inductive Expression
  | identifier (name : String)
  | number (text : String)
  | string (text : String)
  | regex (body flags : String)
  | boolean (value : Bool)
  | null
  | this
  | group (inner : Expression)
  | assign (operator : String) (left right : Expression)
  | object (members : List Member)
  | array (items : List ArrayItem)
  | function (name : Option String) (params : List Pattern) (body : List Statement)
      (generator isAsync : Bool)
  | arrow (isAsync : Bool) (params : List Pattern) (body : ArrowBody)
  | call (callee : Expression) (arguments : List Expression)
  | construct (callee : Expression) (arguments : List Expression)
  | member (object : Expression) (name : MemberName)
  | index (object place : Expression)
  | unary (operator : String) (argument : Expression)
  | binary (operator : String) (left right : Expression)
  | update (operator : String) (isPrefix : Bool) (argument : Expression)
  | yields (argument : Option Expression) (delegate : Bool)
  | awaits (argument : Expression)
  | conditional (test consequent alternate : Expression)
  | sequence (expressions : List Expression)
  | spread (argument : Expression)
  | unread (kind : UnreadExpression)

/-- A token between the brackets of an array literal. -/
inductive ArrayItem
  | comma
  | element (value : Expression)

/-- The body of an arrow function. -/
inductive ArrowBody
  | block (body : List Statement)
  | expression (value : Expression)

/-- A binding, or a parameter that binds nothing. -/
inductive Pattern
  | identifier (name : String)
  | withDefault (target : Pattern) (value : Expression)
  | rest (target : Pattern)
  | object
  | array
  | memberAccess

/-- A member of an object literal. -/
inductive Member
  | pair (key : MemberKey) (value : Expression)
  | shorthand (name : String)
  | method (marks : MethodMarks) (key : MemberKey) (params : List Pattern) (body : List Statement)
  | spread (argument : Expression)

/-- The key of a member. -/
inductive MemberKey
  /-- A name, which may be any word. -/
  | name (text : String)
  /-- An expression in brackets. -/
  | computed (value : Expression)
  /-- A string, a number or a private name. -/
  | literal (value : Expression)

end

end Script

end ScriptWire
