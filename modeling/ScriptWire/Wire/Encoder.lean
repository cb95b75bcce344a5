import ScriptWire.Message.Basic
import ScriptWire.Wire.Error
import ScriptWire.Wire.Varint

/-!
# Writing messages

Fields are written in the order of the schema, each with a key of its number and wire type. A plain
field that has its default is left out; a variant that is chosen is always written.

## Main definitions

- `Wire.encode` — the bytes of a message
-/

namespace ScriptWire

namespace Wire

open Message

/-- The key of a field. -/
def key (number : Nat) (type : WireType) : Bytes :=
  varint (8 * number + type.code)

/-- The bytes of a text. -/
def textBytes (text : String) : Bytes :=
  text.toUTF8.data.toList

/-- Bytes after their number. -/
def delimited (bytes : Bytes) : Bytes :=
  varint bytes.length ++ bytes

/-- The wire type of a plain type. -/
def scalarWire : Scalar → WireType
  | .text => .delimited
  | .flag => .varint
  | .choice => .varint
  | .index => .varint
  | .double => .fixed64

/-- The bytes of a plain value without its key. -/
def scalarBytes : (type : Scalar) → type.Carrier → Bytes
  | .text, (s : String) => delimited (textBytes s)
  | .flag, (b : Bool) => varint b.toNat
  | .choice, (n : Int32) => varint n.toInt64.toUInt64.toNat
  | .index, (n : Int64) => varint n.toUInt64.toNat
  | .double, (x : Binary64) => word64 x.bits.toNat

/-- The value is the default of its type, either sign being allowed for zero. -/
def isDefault : (type : Scalar) → type.Carrier → Bool
  | .text, (s : String) => decide (s = "")
  | .flag, (b : Bool) => !b
  | .choice, (n : Int32) => decide (n = 0)
  | .index, (n : Int64) => decide (n = 0)
  | .double, (x : Binary64) => x.isZero

/-- A plain value with its key. -/
def scalarField (number : Nat) (type : Scalar) (value : type.Carrier) : Bytes :=
  key number (scalarWire type) ++ scalarBytes type value

/-- The bytes of a message with their number and a key. -/
def messageField (number : Nat) (bytes : Bytes) : Bytes :=
  key number .delimited ++ delimited bytes

mutual

/-- The bytes of a message. -/
def encode {k : Kind} : Message k → Bytes
  | .mk _ slots => encodeSlots slots

/-- The bytes of the fields of a message. -/
def encodeSlots {fs : List Field} : Slots fs → Bytes
  | .nil => []
  | .cons head tail => encodeSlot head ++ encodeSlots tail

/-- The bytes of a field. -/
def encodeSlot {shape : Shape} : Slot shape → Bytes
  | @Slot.plain number type value =>
    if isDefault type value then [] else scalarField number type value
  | .absent => []
  | @Slot.present number _ m => messageField number (encode m)
  | @Slot.repeated number _ ms => encodeSequence number ms
  | .unset => []
  | .set choice => encodeChoice choice

/-- The bytes of a list of messages. -/
def encodeSequence (number : Nat) {k : Kind} : Sequence k → Bytes
  | .nil => []
  | .cons m rest => messageField number (encode m) ++ encodeSequence number rest

/-- The bytes of the chosen variant. -/
def encodeChoice : {vs : List Variant} → Choice vs → Bytes
  | v :: _, .here payload => encodePayload v.number payload
  | _ :: _, .later choice => encodeChoice choice

/-- The bytes of what a variant holds. -/
def encodePayload (number : Nat) {c : Content} : Payload c → Bytes
  | @Payload.scalar type value => scalarField number type value
  | .message m => messageField number (encode m)

end

end Wire

end ScriptWire
