import ScriptWire.Binary64.Basic
import ScriptWire.Message.Schema

/-!
# Messages

A message is a tree that follows the schema: the type of a message says its kind, and with it which
fields it has and what they hold.

## Main definitions

- `Message` — a message of a kind
- `Message.Slots`, `Message.Slot`, `Message.Choice`, `Message.Payload` — what its fields hold
- `Message.empty` — the message in which every field has its default
- `Message.sameAs` — equality, numbers compared as numbers
- `Message.depth` — how many messages stand inside each other below a message
-/

namespace ScriptWire

namespace Message

/-- The values of a plain type. -/
@[reducible]
def Scalar.Carrier : Scalar → Type
  | .text => String
  | .flag => Bool
  | .choice => Int32
  | .index => Int64
  | .double => Binary64

end Message

mutual

/-- A message of a kind. -/
inductive Message : Message.Kind → Type
  | mk (kind : Message.Kind) (slots : Message.Slots (Message.fields kind)) : Message kind

/-- What the fields of a message hold. -/
inductive Message.Slots : List Message.Field → Type
  | nil : Message.Slots []
  | cons {f : Message.Field} {fs : List Message.Field} (head : Message.Slot f.shape)
      (tail : Message.Slots fs) : Message.Slots (f :: fs)

/-- What a field holds. -/
inductive Message.Slot : Message.Shape → Type
  | plain {number : Nat} {type : Message.Scalar} (value : type.Carrier) :
      Message.Slot (.plain number type)
  | absent {number : Nat} {kind : Message.Kind} : Message.Slot (.optional number kind)
  | present {number : Nat} {kind : Message.Kind} (message : Message kind) :
      Message.Slot (.optional number kind)
  | repeated {number : Nat} {kind : Message.Kind} (messages : Message.Sequence kind) :
      Message.Slot (.repeated number kind)
  | unset {variants : List Message.Variant} : Message.Slot (.union variants)
  | set {variants : List Message.Variant} (choice : Message.Choice variants) :
      Message.Slot (.union variants)

/-- A list of messages of one kind. -/
inductive Message.Sequence : Message.Kind → Type
  | nil {kind : Message.Kind} : Message.Sequence kind
  | cons {kind : Message.Kind} (head : Message kind) (tail : Message.Sequence kind) :
      Message.Sequence kind

/-- One of several variants, with what it holds. -/
inductive Message.Choice : List Message.Variant → Type
  | here {v : Message.Variant} {vs : List Message.Variant} (payload : Message.Payload v.content) :
      Message.Choice (v :: vs)
  | later {v : Message.Variant} {vs : List Message.Variant} (choice : Message.Choice vs) :
      Message.Choice (v :: vs)

/-- What a variant holds. -/
inductive Message.Payload : Message.Content → Type
  | scalar {type : Message.Scalar} (value : type.Carrier) : Message.Payload (.scalar type)
  | message {kind : Message.Kind} (message : Message kind) : Message.Payload (.message kind)

end

namespace Message

/-- The messages of a sequence. -/
def Sequence.toList {k : Kind} : Sequence k → List (Message k)
  | .nil => []
  | .cons m rest => m :: rest.toList

/-- The sequence of the messages in a list. -/
def Sequence.ofList {k : Kind} : List (Message k) → Sequence k
  | [] => .nil
  | m :: rest => .cons m (Sequence.ofList rest)

/-- The sequence with one more message at its end. -/
def Sequence.push {k : Kind} (m : Message k) : Sequence k → Sequence k
  | .nil => .cons m .nil
  | .cons n rest => .cons n (rest.push m)

/-- A field that may hold a message. -/
def Slot.ofOption {number : Nat} {k : Kind} : Option (Message k) → Slot (.optional number k)
  | none => .absent
  | some m => .present m

/-- A field that holds the messages of a list. -/
def Slot.ofList {number : Nat} {k : Kind} (ms : List (Message k)) : Slot (.repeated number k) :=
  .repeated (Sequence.ofList ms)

/-- The value that a plain field has when nothing is written for it. -/
def Scalar.default : (type : Scalar) → type.Carrier
  | .text => ""
  | .flag => false
  | .choice => (0 : Int32)
  | .index => (0 : Int64)
  | .double => Binary64.zero

/-- What a field holds when nothing is written for it. -/
def Slot.empty : (shape : Shape) → Slot shape
  | .plain _ type => .plain type.default
  | .optional _ _ => .absent
  | .repeated _ _ => .repeated .nil
  | .union _ => .unset

/-- What fields hold when nothing is written for them. -/
def Slots.empty : (fs : List Field) → Slots fs
  | [] => .nil
  | f :: fs => .cons (Slot.empty f.shape) (Slots.empty fs)

/-- The message in which every field has its default. -/
def empty (k : Kind) : Message k :=
  .mk k (Slots.empty (fields k))

/-- Two values are the same, numbers being compared as numbers. -/
def Scalar.same : (type : Scalar) → type.Carrier → type.Carrier → Bool
  | .text, a, b => decide ((a : String) = b)
  | .flag, a, b => decide ((a : Bool) = b)
  | .choice, a, b => decide ((a : Int32) = b)
  | .index, a, b => decide ((a : Int64) = b)
  | .double, a, b => Binary64.sameNumber a b

mutual

/-- Two messages are the same, numbers being compared as numbers. -/
def sameAs {k : Kind} : Message k → Message k → Bool
  | .mk _ a, .mk _ b => a.sameAs b

/-- Fields hold the same. -/
def Slots.sameAs {fs : List Field} : Slots fs → Slots fs → Bool
  | .nil, .nil => true
  | .cons a as, .cons b bs => a.sameAs b && as.sameAs bs

/-- Two fields hold the same. -/
def Slot.sameAs {shape : Shape} : Slot shape → Slot shape → Bool
  | .plain a, .plain b => Scalar.same _ a b
  | .absent, .absent => true
  | .present a, .present b => a.sameAs b
  | .repeated a, .repeated b => a.sameAs b
  | .unset, .unset => true
  | .set a, .set b => a.sameAs b
  | _, _ => false

/-- Two sequences hold the same messages. -/
def Sequence.sameAs {k : Kind} : Sequence k → Sequence k → Bool
  | .nil, .nil => true
  | .cons a as, .cons b bs => a.sameAs b && as.sameAs bs
  | _, _ => false

/-- Two choices are of the same variant and hold the same. -/
def Choice.sameAs {vs : List Variant} : Choice vs → Choice vs → Bool
  | .here a, .here b => a.sameAs b
  | .later a, .later b => a.sameAs b
  | _, _ => false

/-- Two variants hold the same. -/
def Payload.sameAs {c : Content} : Payload c → Payload c → Bool
  | .scalar a, .scalar b => Scalar.same _ a b
  | .message a, .message b => a.sameAs b

end

mutual

/-- The length of the longest chain of messages inside each other, below a message. -/
def depth {k : Kind} : Message k → Nat
  | .mk _ slots => slots.depth

/-- The same below the fields of a message. -/
def Slots.depth {fs : List Field} : Slots fs → Nat
  | .nil => 0
  | .cons head tail => max head.depth tail.depth

/-- The same in a field. -/
def Slot.depth {shape : Shape} : Slot shape → Nat
  | .plain _ => 0
  | .absent => 0
  | .present m => m.depth + 1
  | .repeated ms => ms.depth
  | .unset => 0
  | .set choice => choice.depth

/-- The same in a sequence. -/
def Sequence.depth {k : Kind} : Sequence k → Nat
  | .nil => 0
  | .cons m rest => max (m.depth + 1) rest.depth

/-- The same in a choice. -/
def Choice.depth {vs : List Variant} : Choice vs → Nat
  | .here payload => payload.depth
  | .later choice => choice.depth

/-- The same in what a variant holds. -/
def Payload.depth {c : Content} : Payload c → Nat
  | .scalar _ => 0
  | .message m => m.depth + 1

end

/-- The variant that is chosen. -/
def Choice.variant : {vs : List Variant} → Choice vs → Variant
  | v :: _, .here _ => v
  | _ :: _, .later choice => choice.variant

/-- The variant that a field has, if it has variants and one is chosen. -/
def Slot.variant? {shape : Shape} : Slot shape → Option Variant
  | .set choice => some choice.variant
  | _ => none

/-- The variant that the first of several fields has. -/
def Slots.variant? {fs : List Field} : Slots fs → Option Variant
  | .cons head _ => head.variant?
  | .nil => none

/-- The variant that the first field of a message has. -/
def variant? {k : Kind} : Message k → Option Variant
  | .mk _ slots => slots.variant?

end Message

end ScriptWire
