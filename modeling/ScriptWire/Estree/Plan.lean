import ScriptWire.Estree.Kind

/-!
# How values are read at a place

What is done with a value is decided by its outermost layer. An object or an array may have to be
read part by part; a plan says with which form.

## Main definitions

- `Estree.Place.scalar` — reading a value that holds no other values
- `Estree.Place.objectPlan`, `Estree.Place.arrayPlan` — what is done with an object and an array
-/

namespace ScriptWire

namespace Estree

open Document (Value)
open ScriptWire.Tree

/-- The wording for what is expected at a place. -/
def Place.expected : Place → String
  | .text => "a string"
  | .flag => "a boolean"
  | .number => "f64"
  | .methodKind => "string or map"
  | .optional place => place.expected
  | .list _ => "a sequence"
  | .node level => "internally tagged enum " ++ level.name
  | .record r => r.form.title
  | .loopHead => "internally tagged enum Expression"
  | .arrowBody => "internally tagged enum Expression"

/-- The words for the kinds of methods. -/
def methodWords : List (String × MethodKind) :=
  [("method", .method), ("get", .getter), ("set", .setter)]

/-- The kind of method that a word names. -/
def methodOfWord (word : String) : Except Fault MethodKind :=
  match methodWords.lookup word with
  | some kind => .ok kind
  | none => .error (.unknown word (methodWords.map Prod.fst))

/-- The kind of method that an object names by its only key, the value of which must be empty. -/
def methodOfObject (members : List (String × Value)) : Except Fault MethodKind :=
  match members with
  | [(word, value)] => do
    let kind ← methodOfWord word
    match value with
    | .null => .ok kind
    | .object [] => .ok kind
    | value => .error (.type (found value) "unit")
  | _ => .error .severalNames

/-- The result of reading a value that holds no other values. -/
def Place.scalar : (place : Place) → Value → Except Fault place.Result
  | .text, .string s => .ok s
  | .flag, .boolean b => .ok b
  | .number, .integer n => .ok (Binary64.ofInt n)
  | .number, .float x => .ok x
  | .methodKind, .string word => methodOfWord word
  | .optional _, .null => .ok none
  | .optional place, v => (place.scalar v).map some
  | place, v => .error (.type (found v) place.expected)

/-- What is done with an object. -/
inductive ObjectPlan (α : Type)
  /-- The members need not be read. -/
  | give (result : Except Fault α)
  /-- The members are the parts of a form. -/
  | fill (form : Form α) (bare : Bool)

/-- The plan with another result. -/
def ObjectPlan.map {α β : Type} (f : α → β) : ObjectPlan α → ObjectPlan β
  | .give result => .give (result.map f)
  | .fill form bare => .fill (form.map f) bare

/-- The plan for an object that stands for a node. -/
def Level.objectPlan (level : Level) (members : List (String × Value)) : ObjectPlan level.Node :=
  match Document.lookup? "type" members with
  | none => .give (.error (.missing "type"))
  | some (.string kind) =>
    if kind ∈ level.known then
      match level.form? kind with
      | some form => .fill form false
      | none => .give (.error (.unknown kind level.kinds))
    else .give (.ok (level.unsupported kind))
  | some v => .give (.error (.type (found v) "variant identifier"))

/-- The object names its own kind as the given one. -/
def hasKind (kind : String) (members : List (String × Value)) : Bool :=
  match Document.lookup? "type" members with
  | some (.string k) => k = kind
  | _ => false

/-- The plan for an object at a place. The flag `bare` tells that no node stands between the place
and the record that the document, a loop or an arrow function starts with. -/
def Place.objectPlan (bare : Bool) :
    (place : Place) → List (String × Value) → ObjectPlan place.Result
  | .optional place, members => (place.objectPlan bare members).map some
  | .node level, members => level.objectPlan members
  | .record r, _ => .fill r.form bare
  | .loopHead, members =>
    if hasKind "VariableDeclaration" members then
      .fill (declarationForm.map fun d => .variableDeclaration d.kind d.declarations) true
    else (Level.objectPlan .expression members).map .expression
  | .arrowBody, members =>
    if hasKind "BlockStatement" members then .fill (blockForm.map .blockStatement) true
    else (Level.objectPlan .expression members).map .expression
  | .methodKind, members => .give (methodOfObject members)
  | place, _ => .give (.error (.type .map place.expected))

/-- What is done with an array. -/
inductive ArrayPlan (α : Type)
  /-- The elements need not be read. -/
  | give (result : Except Fault α)
  /-- The elements are read one like the other. -/
  | each (place : Place) (gather : List place.Result → α)
  /-- The elements are the parts of a form, in order. -/
  | fill (form : Form α) (bare : Bool)
  /-- The same for the elements after the first. -/
  | fillRest (form : Form α)

/-- The plan with another result. -/
def ArrayPlan.map {α β : Type} (f : α → β) : ArrayPlan α → ArrayPlan β
  | .give result => .give (result.map f)
  | .each place gather => .each place fun items => f (gather items)
  | .fill form bare => .fill (form.map f) bare
  | .fillRest form => .fillRest (form.map f)

/-- The plan for an array that stands for a node: its first element names the kind. -/
def Level.arrayPlan (level : Level) (first : Option Value) : ArrayPlan level.Node :=
  match first with
  | none => .give (.error (.missing "type"))
  | some (.string kind) =>
    match level.form? kind with
    | some form => .fillRest form
    | none => .give (.error (.unknown kind level.kinds))
  | some v => .give (.error (.type (found v) "variant identifier"))

/-- The plan for an array at a place, by its first element. -/
def Place.arrayPlan (bare : Bool) : (place : Place) → Option Value → ArrayPlan place.Result
  | .optional place, first => (place.arrayPlan bare first).map some
  | .list place, _ => .each place id
  | .node level, first => level.arrayPlan first
  | .record r, _ => .fill r.form bare
  | .loopHead, first => (Level.arrayPlan .expression first).map .expression
  | .arrowBody, first => (Level.arrayPlan .expression first).map .expression
  | place, _ => .give (.error (.type .sequence place.expected))

/-- The fault of an array with more elements than its form has parts. -/
def excess (bare : Bool) (count parts : Nat) : Fault :=
  .length count (if bare then "fewer elements in array" else elements parts ++ " in sequence")

end Estree

end ScriptWire
