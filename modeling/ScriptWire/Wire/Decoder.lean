import ScriptWire.Wire.Encoder

/-!
# Reading messages

A field that occurs again replaces a plain value and is merged into a message; a variant is merged
with the same variant and replaces any other. Unknown fields are skipped. Messages may stand inside
each other up to a fixed number of levels.

## Main definitions

- `Wire.readKey` — the key of a field
- `Wire.skipField` — the bytes after an unknown field
- `Wire.mergeMessage` — a message with the fields in the bytes put into it
- `Wire.decodeAs`, `Wire.decode` — the message in the bytes
-/

namespace ScriptWire

namespace Wire

open Message

/-- The number of a field and its wire type. -/
structure Key where
  number : Nat
  type : WireType

/-- A number, or the fault of its bytes. -/
def takeVarint (bytes : Bytes) : Except DecodeError (Nat × Bytes) :=
  match readVarint bytes with
  | some result => .ok result
  | none => .error (.of .invalidVarint)

/-- The key of a field. -/
def readKey (bytes : Bytes) : Except DecodeError (Key × Bytes) := do
  let (n, rest) ← takeVarint bytes
  if Nat.pow 2 32 ≤ n then .error (.of (.invalidKey n))
  else
    match WireType.ofCode? (n % 8) with
    | none => .error (.of (.invalidWireType (n % 8)))
    | some type => if n / 8 = 0 then .error (.of .invalidNumber) else .ok (⟨n / 8, type⟩, rest)

/-- The wire type is the expected one. -/
def expectWire (got expected : WireType) : Except DecodeError Unit :=
  if got = expected then .ok () else .error (.of (.wireType got expected))

/-- The given number of bytes, and the bytes after them. -/
def takeBytes (count : Nat) (bytes : Bytes) : Except DecodeError (Bytes × Bytes) :=
  if bytes.length < count then .error (.of .underflow)
  else .ok (bytes.take count, bytes.drop count)

/-- The text of bytes. -/
def readText (bytes : Bytes) : Except DecodeError String :=
  match String.fromUTF8? ⟨bytes.toArray⟩ with
  | some s => .ok s
  | none => .error (.of .notText)

/-- A plain value, and the bytes after it. -/
def readScalar : (type : Scalar) → Bytes → Except DecodeError (type.Carrier × Bytes)
  | .text, bytes => do
    let (count, rest) ← takeVarint bytes
    let (bytes, rest) ← takeBytes count rest
    return (← readText bytes, rest)
  | .flag, bytes => do
    let (n, rest) ← takeVarint bytes
    return (n != 0, rest)
  | .choice, bytes => do
    let (n, rest) ← takeVarint bytes
    return (n.toUInt32.toInt32, rest)
  | .index, bytes => do
    let (n, rest) ← takeVarint bytes
    return (n.toUInt64.toInt64, rest)
  | .double, bytes => do
    let (bytes, rest) ← takeBytes 8 bytes
    return (Binary64.ofBits (littleEndian bytes), rest)

/-- Reading on until the bytes of a group end, in at most `fuel` steps. -/
def skipGroup (skip : Key → Bytes → Except DecodeError Bytes) (number : Nat) :
    Nat → Bytes → Except DecodeError Bytes
  | 0, _ => .error (.of .invalidVarint)
  | fuel + 1, bytes => do
    let (key, rest) ← readKey bytes
    if key.type = .endGroup then
      if key.number = number then return rest else .error (.of .unexpectedEndGroup)
    else
      skipGroup skip number fuel (← skip key rest)

/-- The bytes after an unknown field. A group may hold other fields, up to `budget` levels. -/
def skipField : (budget : Nat) → Key → Bytes → Except DecodeError Bytes
  | 0, _, _ => .error (.of .tooNested)
  | budget + 1, key, bytes =>
    match key.type with
    | .varint => do
      return (← takeVarint bytes).2
    | .fixed32 => do
      return (← takeBytes 4 bytes).2
    | .fixed64 => do
      return (← takeBytes 8 bytes).2
    | .delimited => do
      let (count, rest) ← takeVarint bytes
      return (← takeBytes count rest).2
    | .startGroup => skipGroup (skipField budget) key.number (bytes.length + 1) bytes
    | .endGroup => .error (.of .unexpectedEndGroup)

/-- How a message is merged with the bytes that follow the key of its field. -/
abbrev Merge :=
  (k : Kind) → Message k → Bytes → Except DecodeError (Message k × Bytes)

/-- A message in a field: the wire type is checked first. -/
def mergeChild (merge : Merge) (type : WireType) (k : Kind) (m : Message k) (bytes : Bytes) :
    Except DecodeError (Message k × Bytes) := do
  expectWire type .delimited
  merge k m bytes

/-- A plain value in a field: the wire type is checked first. -/
def readField (wire : WireType) (type : Scalar) (bytes : Bytes) :
    Except DecodeError (type.Carrier × Bytes) := do
  expectWire wire (scalarWire type)
  readScalar type bytes

/-- The choice among the variants after the first. -/
def laterChoice? {v : Variant} {vs : List Variant} : Option (Choice (v :: vs)) → Option (Choice vs)
  | some (.later choice) => some choice
  | _ => none

/-- The message with which a variant is merged: the one that it holds, or an empty one. -/
def Payload.messageOr {k : Kind} : Option (Payload (.message k)) → Message k
  | some (.message m) => m
  | none => Message.empty k

/-- What the first variant holds, if it is chosen. -/
def firstPayload? {v : Variant} {vs : List Variant} :
    Option (Choice (v :: vs)) → Option (Payload v.content)
  | some (.here payload) => some payload
  | _ => none

/-- What a variant holds after the bytes are put into it. -/
def mergePayload (merge : Merge) (wire : WireType) :
    (c : Content) → Option (Payload c) → Bytes → Except DecodeError (Payload c × Bytes)
  | .scalar type, _, bytes => do
    let (value, rest) ← readField wire type bytes
    return (.scalar value, rest)
  | .message k, current, bytes => do
    let (m, rest) ← mergeChild merge wire k (Payload.messageOr current) bytes
    return (.message m, rest)

/-- The variants after the bytes of the field `key` are put into them, if one has its number. -/
def mergeChoice? (merge : Merge) (key : Key) :
    (vs : List Variant) → Option (Choice vs) → Bytes →
      Option (Except DecodeError (Choice vs × Bytes))
  | [], _, _ => none
  | v :: vs, current, bytes =>
    if v.number = key.number then
      some ((mergePayload merge key.type v.content (firstPayload? current) bytes).map
        fun (payload, rest) => (.here payload, rest))
    else
      (mergeChoice? merge key vs (laterChoice? current) bytes).map fun result =>
        result.map fun (choice, rest) => (.later choice, rest)

/-- The field after the bytes of the field `key` are put into it, if it has its number. -/
def mergeSlot? (merge : Merge) (key : Key) :
    {shape : Shape} → Slot shape → Bytes → Option (Except DecodeError (Slot shape × Bytes))
  | .plain number type, .plain _, bytes =>
    if number = key.number then
      some ((readField key.type type bytes).map fun (value, rest) => (.plain value, rest))
    else none
  | .optional number k, .absent, bytes =>
    if number = key.number then
      some ((mergeChild merge key.type k (Message.empty k) bytes).map
        fun (m, rest) => (.present m, rest))
    else none
  | .optional number k, .present m, bytes =>
    if number = key.number then
      some ((mergeChild merge key.type k m bytes).map fun (m, rest) => (.present m, rest))
    else none
  | .repeated number k, .repeated ms, bytes =>
    if number = key.number then
      some ((mergeChild merge key.type k (Message.empty k) bytes).map
        fun (m, rest) => (.repeated (ms.push m), rest))
    else none
  | .union vs, .unset, bytes =>
    (mergeChoice? merge key vs none bytes).map fun result =>
      result.map fun (choice, rest) => (.set choice, rest)
  | .union vs, .set choice, bytes =>
    (mergeChoice? merge key vs (some choice) bytes).map fun result =>
      result.map fun (choice, rest) => (.set choice, rest)

/-- The fields after the bytes of the field `key` are put into one of them, if one has its number.
A fault is met in that field of the message `owner`. -/
def mergeSlots? (merge : Merge) (owner : Kind) (key : Key) :
    {fs : List Field} → Slots fs → Bytes → Option (Except DecodeError (Slots fs × Bytes))
  | [], .nil, _ => none
  | f :: _, .cons head tail, bytes =>
    match mergeSlot? merge key head bytes with
    | some (.ok (head, rest)) => some (.ok (.cons head tail, rest))
    | some (.error e) => some (.error (e.within ⟨owner, f.label⟩))
    | none =>
      (mergeSlots? merge owner key tail bytes).map fun result =>
        result.map fun (tail, rest) => (.cons head tail, rest)

/-- The message after one field is put into it or skipped. -/
def mergeField (merge : Merge) (budget : Nat) {k : Kind} :
    Message k → Bytes → Except DecodeError (Message k × Bytes)
  | .mk k slots, bytes => do
    let (key, rest) ← readKey bytes
    match mergeSlots? merge k key slots rest with
    | some result => return (← result.map fun (slots, rest) => (.mk k slots, rest))
    | none => return (.mk k slots, ← skipField budget key rest)

/-- The message after fields are put into it as long as more than `limit` bytes are left, in at most
`fuel` steps. The last field must end there. -/
def mergeFields (merge : Merge) (budget limit : Nat) {k : Kind} :
    Nat → Message k → Bytes → Except DecodeError (Message k × Bytes)
  | 0, m, bytes => if bytes.length = limit then .ok (m, bytes) else .error (.of .lengthExceeded)
  | fuel + 1, m, bytes =>
    if limit < bytes.length then do
      let (m, rest) ← mergeField merge budget m bytes
      mergeFields merge budget limit fuel m rest
    else if bytes.length = limit then .ok (m, bytes)
    else .error (.of .lengthExceeded)

/-- The message after the bytes of one field, which start with their number, are put into it. -/
def mergeMessage : (budget : Nat) → Merge
  | 0, _, _, _ => .error (.of .tooNested)
  | budget + 1, _, m, bytes => do
    let (count, rest) ← takeVarint bytes
    if rest.length < count then .error (.of .underflow)
    else mergeFields (mergeMessage budget) budget (rest.length - count) rest.length m rest

/-- How many messages may stand inside each other below the root. -/
def nestingBudget : Nat :=
  100

/-- The message of a kind in the bytes. -/
def decodeAs (k : Kind) (bytes : Bytes) : Except DecodeError (Message k) := do
  let (m, _) ← mergeFields (mergeMessage nestingBudget) nestingBudget 0 bytes.length
    (Message.empty k) bytes
  return m

/-- The program in the bytes. -/
def decode (bytes : Bytes) : Except DecodeError (Message .ast) :=
  decodeAs .ast bytes

end Wire

end ScriptWire
