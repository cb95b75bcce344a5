import ScriptWire.Estree.Fault
import ScriptWire.Tree.Basic

/-!
# Forms of nodes

A form lists the parts of a node or record: their names, what stands there, and what is taken when
a part is left out. A node is built from its parts once all of them are known.

## Main definitions

- `Estree.Place` — what can stand at a place of a document, and `Estree.Place.Result`, what is read
- `Estree.Entry` — one part of a form
- `Estree.Form` — the parts of a node, and the node that they make up
- `Estree.Row` — the parts that were read so far
-/

namespace ScriptWire

namespace Estree

open Document (Value)
open ScriptWire.Tree

/-- The levels of a tree, each with its own kinds of nodes. -/
inductive Level
  | statement
  | expression
  | pattern
  | member
deriving DecidableEq

/-- The nodes of a level. -/
@[reducible]
def Level.Node : Level → Type
  | .statement => Statement
  | .expression => Expression
  | .pattern => Pattern
  | .member => Member

/-- A node of a kind that the level does not know. -/
def Level.unsupported : (level : Level) → String → level.Node
  | .statement, kind => Statement.unsupported kind
  | .expression, kind => Expression.unsupported kind
  | .pattern, kind => Pattern.unsupported kind
  | .member, kind => Member.unsupported kind

/-- The name of a level in faults. -/
def Level.name : Level → String
  | .statement => "Statement"
  | .expression => "Expression"
  | .pattern => "Pattern"
  | .member => "ObjectMember"

/-- Records: objects whose type is given by the place where they stand. -/
inductive Record
  | block
  | directive
  | directiveLiteral
  | identifier
  | declaration
  | declarator
  | catchClause
deriving DecidableEq

/-- The variables of a declaration and the word in front of them. -/
structure Declaration where
  kind : String
  declarations : List Declarator

/-- What is read from a record. -/
@[reducible]
def Record.Result : Record → Type
  | .block => List Statement
  | .directive => String
  | .directiveLiteral => String
  | .identifier => String
  | .declaration => Declaration
  | .declarator => Declarator
  | .catchClause => CatchClause

/-- What can stand at a place of a document. -/
inductive Place
  | text
  | flag
  | number
  | methodKind
  | optional (place : Place)
  | list (place : Place)
  | node (level : Level)
  | record (kind : Record)
  /-- The first part of a loop: a declaration or an expression. -/
  | loopHead
  /-- The body of an arrow function: a block or an expression. -/
  | arrowBody

/-- What is read at a place. -/
@[reducible]
def Place.Result : Place → Type
  | .text => String
  | .flag => Bool
  | .number => Binary64
  | .methodKind => MethodKind
  | .optional place => Option place.Result
  | .list place => List place.Result
  | .node level => level.Node
  | .record r => r.Result
  | .loopHead => ForInit
  | .arrowBody => ArrowBody

/-- One part of a form. -/
structure Entry where
  name : String
  place : Place
  /-- What is taken when an object has no member of this name. -/
  ifAbsent : Option place.Result
  /-- What is taken when an array ends before this part. -/
  ifCut : Option place.Result

/-- A part that must be there. -/
@[reducible]
def required (name : String) (place : Place) : Entry :=
  ⟨name, place, none, none⟩

/-- A part that may be `null`, and may be absent from an object. -/
@[reducible]
def nullable (name : String) (place : Place) : Entry :=
  ⟨name, .optional place, some none, none⟩

/-- A part that may be left out, with its value in that case. -/
@[reducible]
def defaulted (name : String) (place : Place) (value : place.Result) : Entry :=
  ⟨name, place, some value, some value⟩

/-- All parts of a form. -/
@[reducible]
def Full : List Entry → Type
  | [] => Unit
  | e :: es => e.place.Result × Full es

/-- The parts of a form that were read so far. -/
def Row : List Entry → Type
  | [] => Unit
  | e :: es => Option e.place.Result × Row es

/-- No part. -/
def Row.empty : (es : List Entry) → Row es
  | [] => ()
  | _ :: es => (none, Row.empty es)

/-- All parts: those that were read, and what is taken for the others. The first part that is
neither is missing. -/
def Row.complete : (es : List Entry) → Row es → Except Fault (Full es)
  | [], _ => .ok ()
  | e :: es, (part, rest) =>
    match part <|> e.ifAbsent with
    | none => .error (.missing e.name)
    | some x =>
      match Row.complete es rest with
      | .error fault => .error fault
      | .ok full => .ok (x, full)

/-- The place of a part, and how it is put into a row. -/
structure Spot (es : List Entry) where
  place : Place
  put : place.Result → Row es → Row es

/-- The spot of the part with the given name. -/
def spot? : (es : List Entry) → String → Option (Spot es)
  | [], _ => none
  | e :: es, key =>
    if e.name = key then some ⟨e.place, fun x (_, rest) => (some x, rest)⟩
    else (spot? es key).map fun s => ⟨s.place, fun x (part, rest) => (part, s.put x rest)⟩

/-- What is taken for the parts after the end of an array. The first part for which nothing is
taken makes the array too short; `index` counts the parts in front of it. -/
def cut (title : String) (total : Nat) : (es : List Entry) → (index : Nat) → Except Fault (Full es)
  | [], _ => .ok ()
  | e :: es, index =>
    match e.ifCut with
    | none => .error (.length index (title ++ " with " ++ elements total))
    | some x =>
      match cut title total es (index + 1) with
      | .error fault => .error fault
      | .ok full => .ok (x, full)

/-- The parts of a node, and the node that they make up. -/
structure Form (α : Type) where
  /-- The name of the form in faults. -/
  title : String
  entries : List Entry
  build : Full entries → α

/-- The form with another result. -/
def Form.map {α β : Type} (f : α → β) (form : Form α) : Form β :=
  ⟨form.title, form.entries, fun parts => f (form.build parts)⟩

end Estree

end ScriptWire
