import ScriptWire.Wire.Encoder

/-!
# Messages up to the sign of zeros

A plain field that holds a zero is left out when a message is written, whatever the sign of the
zero. What can come back is the message in which such zeros are positive; every other value, every
list, every message that is present and every variant that is chosen stays as it is.

## Main definitions

- `Message.plainZeros` — the message in which the zeros of plain fields are positive
-/

namespace ScriptWire

namespace Message

/-- The value with a positive sign if it is a zero. -/
def Scalar.plainZero : (type : Scalar) → type.Carrier → type.Carrier
  | .double, x => if Binary64.isZero x then Binary64.zero else x
  | .text, s => s
  | .flag, b => b
  | .choice, n => n
  | .index, n => n

mutual

/-- The message in which the zeros of plain fields are positive. -/
def plainZeros {k : Kind} : Message k → Message k
  | .mk k slots => .mk k slots.plainZeros

/-- The same for the fields of a message. -/
def Slots.plainZeros {fs : List Field} : Slots fs → Slots fs
  | .nil => .nil
  | .cons head tail => .cons head.plainZeros tail.plainZeros

/-- The same for a field. -/
def Slot.plainZeros {shape : Shape} : Slot shape → Slot shape
  | @Slot.plain _ type value => .plain (type.plainZero value)
  | .absent => .absent
  | .present m => .present m.plainZeros
  | .repeated ms => .repeated ms.plainZeros
  | .unset => .unset
  | .set choice => .set choice.plainZeros

/-- The same for a list of messages. -/
def Sequence.plainZeros {k : Kind} : Sequence k → Sequence k
  | .nil => .nil
  | .cons m rest => .cons m.plainZeros rest.plainZeros

/-- The same for the chosen variant. A plain value in it is always written and keeps its sign. -/
def Choice.plainZeros {vs : List Variant} : Choice vs → Choice vs
  | .here payload => .here payload.plainZeros
  | .later choice => .later choice.plainZeros

/-- The same for the contents of a variant. -/
def Payload.plainZeros {c : Content} : Payload c → Payload c
  | .scalar value => .scalar value
  | .message m => .message m.plainZeros

end

/-- A value that is left out is the default up to the sign of a zero. -/
theorem Scalar.plainZero_of_isDefault {type : Scalar} {value : type.Carrier}
    (h : Wire.isDefault type value = true) : type.plainZero value = type.default := by
  cases type with
  | text => exact of_decide_eq_true h
  | flag => exact (Bool.not_eq_true' value).mp h
  | choice => exact of_decide_eq_true h
  | index => exact of_decide_eq_true h
  | double => exact if_pos h

/-- A value that is written has no sign to lose. -/
theorem Scalar.plainZero_of_not_isDefault {type : Scalar} {value : type.Carrier}
    (h : ¬ Wire.isDefault type value = true) : type.plainZero value = value := by
  cases type with
  | double => exact if_neg h
  | _ => rfl

end Message

end ScriptWire
