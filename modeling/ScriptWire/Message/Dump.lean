import ScriptWire.Document.Text
import ScriptWire.Message.Basic

/-!
# Messages as documents

## Main definitions

- `Message.document` — the document of a message, with a member for every field
- `Message.dump` — its text, for inspection
- `Message.statementName` — the variant of a statement, and of the expression in it
-/

namespace ScriptWire

namespace Message

open Document (Value)

/-- The document of a plain value. -/
def Scalar.document : (type : Scalar) → type.Carrier → Value
  | .text, (s : String) => .string s
  | .flag, (b : Bool) => .boolean b
  | .choice, (n : Int32) => .integer n.toInt
  | .index, (n : Int64) => .integer n.toInt
  | .double, (x : Binary64) => .float x

mutual

/-- The document of a message. -/
def document {k : Kind} : Message k → Value
  | .mk _ slots => .object slots.members

/-- The members for the fields of a message. -/
def Slots.members : {fs : List Field} → Slots fs → List (String × Value)
  | [], .nil => []
  | f :: _, .cons head tail => (f.label, head.document) :: tail.members

/-- The document of what a field holds. -/
def Slot.document {shape : Shape} : Slot shape → Value
  | @Slot.plain _ type value => Scalar.document type value
  | .absent => .null
  | .present m => m.document
  | .repeated ms => .array ms.documents
  | .unset => .null
  | .set choice => .object [choice.member]

/-- The documents of a sequence. -/
def Sequence.documents {k : Kind} : Sequence k → List Value
  | .nil => []
  | .cons m rest => m.document :: rest.documents

/-- The member for the chosen variant. -/
def Choice.member : {vs : List Variant} → Choice vs → String × Value
  | v :: _, .here payload => (v.title, payload.document)
  | _ :: _, .later choice => choice.member

/-- The document of what a variant holds. -/
def Payload.document {c : Content} : Payload c → Value
  | @Payload.scalar type value => Scalar.document type value
  | .message m => m.document

end

/-- The text of a message's document. -/
def dump {k : Kind} (m : Message k) : String :=
  m.document.indented

/-- The title of the variant that a message has, or nothing. -/
def variantTitle {k : Kind} (m : Message k) : String :=
  (m.variant?.map Variant.title).getD ""

/-- The name of what a variant of a statement holds: its kind, followed by the variant of the
expression if it is an expression statement. -/
def Payload.statementName {c : Content} : Payload c → String
  | .message (.mk .expressionStatement (.cons (.present e) .nil)) =>
    Kind.expressionStatement.name ++ "/" ++ e.variantTitle
  | .message (.mk .expressionStatement (.cons .absent .nil)) =>
    Kind.expressionStatement.name ++ "/"
  | .message (.mk k _) => k.name
  | .scalar _ => ""

/-- The name of the chosen variant of a statement. -/
def Choice.statementName {vs : List Variant} : Choice vs → String
  | .here payload => payload.statementName
  | .later choice => choice.statementName

/-- The name of a statement, or nothing if it has no variant. -/
def statementName : Message .statement → String
  | .mk _ (.cons .unset .nil) => ""
  | .mk _ (.cons (.set choice) .nil) => choice.statementName

/-- The statements of a program. -/
def statements : Message .ast → List (Message .statement)
  | .mk _ (.cons (.repeated ms) .nil) => ms.toList

end Message

end ScriptWire
