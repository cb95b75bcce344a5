import ScriptWire.Message.Schema

/-!
# Faults in encoded messages

## Main definitions

- `Wire.WireType` — how the contents of a field are delimited
- `Wire.Reason` — what is wrong with the bytes
- `Wire.DecodeError` — a reason and the fields in which it was met
-/

namespace ScriptWire

namespace Wire

open Message (Kind Field)

/-- How the contents of a field are delimited. -/
inductive WireType
  | varint
  | fixed64
  | delimited
  | startGroup
  | endGroup
  | fixed32
deriving DecidableEq

/-- The number of a wire type. -/
def WireType.code : WireType → Nat
  | .varint => 0
  | .fixed64 => 1
  | .delimited => 2
  | .startGroup => 3
  | .endGroup => 4
  | .fixed32 => 5

/-- The wire type with a number. -/
def WireType.ofCode? : Nat → Option WireType
  | 0 => some .varint
  | 1 => some .fixed64
  | 2 => some .delimited
  | 3 => some .startGroup
  | 4 => some .endGroup
  | 5 => some .fixed32
  | _ => none

/-- The name of a wire type. -/
def WireType.name : WireType → String
  | .varint => "Varint"
  | .fixed64 => "SixtyFourBit"
  | .delimited => "LengthDelimited"
  | .startGroup => "StartGroup"
  | .endGroup => "EndGroup"
  | .fixed32 => "ThirtyTwoBit"

/-- What is wrong with the bytes. -/
inductive Reason
  | invalidVarint
  | invalidKey (key : Nat)
  | invalidWireType (code : Nat)
  | invalidNumber
  | wireType (got expected : WireType)
  | underflow
  | lengthExceeded
  | notText
  | unexpectedEndGroup
  | tooNested
deriving DecidableEq

/-- The wording of a reason. -/
def Reason.message : Reason → String
  | .invalidVarint => "invalid varint"
  | .invalidKey key => "invalid key value: " ++ toString key
  | .invalidWireType code => "invalid wire type value: " ++ toString code
  | .invalidNumber => "invalid tag value: 0"
  | .wireType got expected =>
    "invalid wire type: " ++ got.name ++ " (expected " ++ expected.name ++ ")"
  | .underflow => "buffer underflow"
  | .lengthExceeded => "delimited length exceeded"
  | .notText => "invalid string value: data is not UTF-8 encoded"
  | .unexpectedEndGroup => "unexpected end group tag"
  | .tooNested => "recursion limit reached"

/-- A field of a message, as a fault names it. -/
structure Position where
  kind : Kind
  label : String
deriving DecidableEq

/-- The text of a position. The root is written like other names, and a field called `type` as a
raw name. -/
def Position.text (p : Position) : String :=
  (if p.kind = .ast then "Ast" else p.kind.name) ++ "."
    ++ (if p.label = "type" then "r#type" else p.label)

/-- A reason and the fields in which it was met, the innermost first. -/
structure DecodeError where
  path : List Position
  reason : Reason
deriving DecidableEq

/-- A fault that was met in no field. -/
def DecodeError.of (reason : Reason) : DecodeError :=
  ⟨[], reason⟩

/-- The fault as met in one more field around it. -/
def DecodeError.within (p : Position) (e : DecodeError) : DecodeError :=
  ⟨e.path ++ [p], e.reason⟩

/-- The wording of a fault. -/
def DecodeError.message (e : DecodeError) : String :=
  "failed to decode Protobuf message: "
    ++ String.join (e.path.map fun p => p.text ++ ": ") ++ e.reason.message

end Wire

end ScriptWire
