import ScriptWire.Message.Basic
import ScriptWire.Text.Quoted

/-!
# Well-formed messages

The schema says what a well-formed message must have in each field. Only the message itself is
looked at, and of the messages inside it no more than whether they have their variant.

## Main definitions

- `Message.Violation` — what is wrong with a message
- `Message.violation?` — the first thing that is wrong
- `Message.make` — the message, if it is well-formed
-/

namespace ScriptWire

namespace Message

/-- What is wrong with a field. -/
inductive Problem
  | missing
  | empty
  | emptyExpression
  | emptyStatement
  | unknownValue (value : Int)
  | unknownOperator (text : String)
  | initialized
  | noClause
  | notBlock
  | fewerThanTwo
deriving DecidableEq

/-- The wording of a problem. -/
def Problem.text : Problem → String
  | .missing => "missing"
  | .empty => "empty"
  | .emptyExpression => "empty expression"
  | .emptyStatement => "empty statement"
  | .unknownValue value => "unknown value " ++ toString value
  | .unknownOperator operator => "unknown operator " ++ Text.quoted operator
  | .initialized => "binding has an initializer"
  | .noClause => "neither catch nor finally clause"
  | .notBlock => "not a block statement"
  | .fewerThanTwo => "fewer than two expressions"

/-- What is wrong with a message, and in which field. -/
structure Violation where
  kind : Kind
  field : String
  problem : Problem
deriving DecidableEq

/-- The wording of a violation. -/
def Violation.message (v : Violation) : String :=
  "malformed " ++ v.kind.name ++ "." ++ v.field ++ ": " ++ v.problem.text

/-- What is wrong with a plain value. -/
def Scalar.problem? (r : Requirement) : (type : Scalar) → type.Carrier → Option Problem
  | .text, (s : String) =>
    match r with
    | .nonEmpty => if s = "" then some .empty else none
    | .oneOf words => if words.contains s then none else some (.unknownOperator s)
    | _ => none
  | .choice, (value : Int32) =>
    match r with
    | .known count =>
      if 0 ≤ value.toInt ∧ value.toInt < count then none else some (.unknownValue value.toInt)
    | _ => none
  | _, _ => none

/-- The problem of a message that lacks its variant. -/
def Kind.lacking : Kind → Problem
  | .statement => .emptyStatement
  | _ => .emptyExpression

/-- The message has its variant. -/
def isFilled {k : Kind} (m : Message k) : Bool :=
  m.variant?.isSome

/-- The field is a text with a character. -/
def Slot.isNamed {shape : Shape} : Slot shape → Bool
  | @Slot.plain _ .text s => decide ((s : String) ≠ "")
  | _ => false

/-- The first of several fields is a text with a character. -/
def Slots.isNamed {fs : List Field} : Slots fs → Bool
  | .nil => false
  | .cons head _ => head.isNamed

/-- The first field of a message is a text with a character. -/
def isNamed {k : Kind} : Message k → Bool
  | .mk _ slots => slots.isNamed

/-- The field holds a message. -/
def Slot.isPresent {shape : Shape} : Slot shape → Bool
  | .present _ => true
  | _ => false

/-- One of the fields holds a message. -/
def Slots.anyPresent {fs : List Field} : Slots fs → Bool
  | .nil => false
  | .cons head tail => head.isPresent || tail.anyPresent

/-- The first of several fields holds a message. -/
def Slots.firstPresent {fs : List Field} : Slots fs → Bool
  | .nil => false
  | .cons head _ => head.isPresent

/-- No field of the message holds a message. -/
def isBare {k : Kind} : Message k → Bool
  | .mk _ slots => !slots.anyPresent

/-- What is wrong with a message in a field or variant. -/
def partProblem? (r : Requirement) {k : Kind} (m : Message k) : Option Problem :=
  match r with
  | .filled => if m.isFilled then none else some k.lacking
  | .filledIfGiven => if m.isFilled then none else some k.lacking
  | .namedIfGiven => if m.isNamed then none else some .empty
  | .bare => if m.isBare then none else some .initialized
  | .block =>
    if m.variant?.map Variant.content = some (.message .blockStatement) then none
    else some .notBlock
  | _ => none

/-- What is wrong with a field without a message; `next` tells that the next field has one. -/
def absentProblem? (r : Requirement) (next : Bool) : Option Problem :=
  match r with
  | .given => some .missing
  | .filled => some .missing
  | .bare => some .missing
  | .orNext => if next then none else some .noClause
  | _ => none

/-- What is wrong with a list of messages. -/
def listProblem? (r : Requirement) {k : Kind} (ms : List (Message k)) : Option Problem :=
  match r with
  | .nonEmpty => if ms.isEmpty then some .empty else none
  | .eachFilled => if ms.all isFilled then none else some k.lacking
  | .severalFilled =>
    if ms.length < 2 then some .fewerThanTwo
    else if ms.all isFilled then none else some k.lacking
  | _ => none

/-- What is wrong with the contents of a variant. -/
def Payload.problem? (r : Requirement) {c : Content} : Payload c → Option Problem
  | @Payload.scalar type value => Scalar.problem? r type value
  | .message m => partProblem? r m

/-- What is wrong with the chosen variant, and its name. -/
def Choice.fault? : {vs : List Variant} → Choice vs → Option (String × Problem)
  | v :: _, .here payload => (payload.problem? v.requirement).map (v.name, ·)
  | _ :: _, .later choice => choice.fault?

/-- What is wrong with a field, and the name of the field or variant. -/
def Slot.fault? (name : String) (r : Requirement) (next : Bool) {shape : Shape} :
    Slot shape → Option (String × Problem)
  | @Slot.plain _ type value => (Scalar.problem? r type value).map (name, ·)
  | .absent => (absentProblem? r next).map (name, ·)
  | .present m => (partProblem? r m).map (name, ·)
  | .repeated ms => (listProblem? r ms.toList).map (name, ·)
  | .unset => (absentProblem? r next).map (name, ·)
  | .set choice => choice.fault?

/-- The first thing that is wrong with fields. -/
def Slots.fault? : {fs : List Field} → Slots fs → Option (String × Problem)
  | [], .nil => none
  | f :: _, .cons head tail =>
    head.fault? f.name f.requirement tail.firstPresent <|> tail.fault?

/-- The first thing that is wrong with a message. -/
def violation? {k : Kind} : Message k → Option Violation
  | .mk k slots => slots.fault?.map fun (field, problem) => ⟨k, field, problem⟩

/-- The message, if it is well-formed. -/
def make {k : Kind} (m : Message k) : Except Violation (Message k) :=
  match m.violation? with
  | some v => .error v
  | none => .ok m

end Message

end ScriptWire
