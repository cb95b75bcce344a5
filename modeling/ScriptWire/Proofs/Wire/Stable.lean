import ScriptWire.Proofs.Wire.Growth
import ScriptWire.Proofs.Wire.RoundTrip

/-!
# Messages written again

Bytes that are read may be no canonical encoding: fields may stand in any order, be repeated and
override or be merged with each other, unknown fields may stand among them, and numbers may take up
more bytes than they need. The message that is read is written in the canonical way, is read back
from there, and is written the same from then on.

## Main results

- `Wire.encode_plainZeros` — the sign of a zero in a plain field is not written
- `Wire.decode_encode_of_decode` — what is read is read back from its own encoding
-/

namespace ScriptWire

namespace Wire

open Message

theorem isDefault_plainZero (type : Scalar) (value : type.Carrier) :
    isDefault type (type.plainZero value) = isDefault type value := by
  by_cases h : isDefault type value = true
  · rw [Scalar.plainZero_of_isDefault h, h]
    cases type <;> rfl
  · rw [Scalar.plainZero_of_not_isDefault h]

theorem encodeSlot_plain_plainZero (number : Nat) (type : Scalar) (value : type.Carrier) :
    encodeSlot (Slot.plain (type.plainZero value) : Slot (.plain number type)) =
      encodeSlot (Slot.plain value : Slot (.plain number type)) := by
  rw [encodeSlot, encodeSlot, isDefault_plainZero]
  by_cases h : isDefault type value = true
  · rw [if_pos h, if_pos h]
  · rw [Scalar.plainZero_of_not_isDefault h]

mutual

/-- The sign of a zero in a plain field is not written. -/
theorem encode_plainZeros : {k : Kind} → (m : Message k) → encode m.plainZeros = encode m
  | _, .mk k slots => by rw [plainZeros, encode, encode, encodeSlots_plainZeros slots]

theorem encodeSlots_plainZeros : {fs : List Field} → (slots : Slots fs) →
    encodeSlots slots.plainZeros = encodeSlots slots
  | _, .nil => rfl
  | _, .cons head tail => by
    rw [Slots.plainZeros, encodeSlots, encodeSlots, encodeSlot_plainZeros head,
      encodeSlots_plainZeros tail]

theorem encodeSlot_plainZeros : {shape : Shape} → (slot : Slot shape) →
    encodeSlot slot.plainZeros = encodeSlot slot
  | .plain number type, .plain value => encodeSlot_plain_plainZero number type value
  | .optional _ _, .absent => rfl
  | .optional _ _, .present m => by
    rw [Slot.plainZeros, encodeSlot, encodeSlot, encode_plainZeros m]
  | .repeated number _, .repeated ms => encodeSequence_plainZeros number ms
  | .union _, .unset => rfl
  | .union _, .set choice => encodeChoice_plainZeros choice

theorem encodeSequence_plainZeros (number : Nat) : {k : Kind} → (ms : Sequence k) →
    encodeSequence number ms.plainZeros = encodeSequence number ms
  | _, .nil => rfl
  | _, .cons m rest => by
    rw [Sequence.plainZeros, encodeSequence, encodeSequence, encode_plainZeros m,
      encodeSequence_plainZeros number rest]

theorem encodeChoice_plainZeros : {vs : List Variant} → (choice : Choice vs) →
    encodeChoice choice.plainZeros = encodeChoice choice
  | _ :: _, .here payload => encodePayload_plainZeros _ payload
  | _ :: _, .later choice => encodeChoice_plainZeros choice

theorem encodePayload_plainZeros (number : Nat) : {c : Content} → (payload : Payload c) →
    encodePayload number payload.plainZeros = encodePayload number payload
  | .scalar _, .scalar _ => rfl
  | .message _, .message m => by
    rw [Payload.plainZeros, encodePayload, encodePayload, encode_plainZeros m]

end

/-- Whatever the bytes, the message that is read from them is read back from its own encoding, bit
for bit but for the sign of zeros in plain fields, and what is read back has the same encoding. A
byte string in memory has fewer than `2 ^ 63` bytes. -/
theorem decode_encode_of_decode (bytes : Bytes) (ast : Message .ast)
    (hsize : bytes.length < Nat.pow 2 63) (h : decode bytes = .ok ast) :
    decode (encode ast) = .ok ast.plainZeros ∧ encode ast.plainZeros = encode ast := by
  have hdepth : ast.depth ≤ nestingBudget := depth_le_of_decodeAs h
  have hlength : (encode ast).length ≤ 2 * bytes.length := length_encode_le_of_decodeAs h
  have hword : (encode ast).length < Nat.pow 2 64 := by
    have hpow : Nat.pow 2 64 = 2 * Nat.pow 2 63 := rfl
    omega
  exact ⟨(decodeAs_encode ast hword).1 hdepth, encode_plainZeros ast⟩

/-- Bytes in no canonical order: an unknown field, a length with a byte too many, a negative choice
of five bytes before a name that is given twice, and a number literal in two halves with an unknown
group after it. -/
def scatteredBytes : Bytes :=
  [0x78, 0x01,
   0x0a, 0x8e, 0x00, 0x22, 0x0c, 0x10, 0xff, 0xff, 0xff, 0xff, 0x0f, 0x0a, 0x01, 0x66, 0x0a, 0x01,
   0x67,
   0x0a, 0x19, 0x32, 0x04, 0x0a, 0x02, 0x12, 0x00, 0x32, 0x0d, 0x0a, 0x0b, 0x12, 0x09, 0x09, 0x00,
   0x00, 0x00, 0x00, 0x00, 0x00, 0x00, 0x80, 0xa3, 0x01, 0xa4, 0x01]

/-- The message in these bytes. -/
def scatteredMessage : Message .ast :=
  Message.ast [statement (functionDeclaration "g" (-1) [] []),
    statement (expressionStatement (expression (numberLiteral Binary64.zero.negate)))]

theorem decode_encode_of_decode_scattered :
    decode scatteredBytes = .ok scatteredMessage ∧
      decode (encode scatteredMessage) = .ok scatteredMessage.plainZeros ∧
      encode scatteredMessage.plainZeros = encode scatteredMessage :=
  have h : decode scatteredBytes = .ok scatteredMessage := rfl
  ⟨h, decode_encode_of_decode scatteredBytes scatteredMessage (by decide) h⟩

end Wire

end ScriptWire
