import ScriptWire.Binary64.Basic
import ScriptWire.Wire.Varint
import Mathlib.Data.Nat.Digits.Defs

/-!
# Serialization under a published interface

An interface declares messages by name, each with its fields: the type, the name and the number of
every field, whether it may be repeated, and which fields exclude each other. A value is a record
of named entries and knows no numbers. Its serialization is found from the declarations alone: every
entry is written under the number that is declared for its name, and the written entries are put in
the order of their numbers.

## Main definitions

- `Interface.Schema` — the declarations of an interface
- `Interface.Value`, `Interface.Record` — values by the names of their fields
- `Interface.serialize` — the bytes of a record of a declared message
-/

namespace ScriptWire

namespace Interface

open Wire (Bytes)

/-- The declared type of a field. -/
inductive FieldType
  | string
  | bool
  | int64
  | double
  /-- A message or an enumeration. -/
  | named (name : String)
deriving DecidableEq

/-- The declaration of a field. -/
structure Declaration where
  type : FieldType
  name : String
  number : Nat
deriving DecidableEq

/-- One item in the declaration of a message. -/
inductive Item
  | single (field : Declaration)
  | repeated (field : Declaration)
  /-- Fields of which at most one is set. -/
  | oneof (name : String) (alternatives : List Declaration)

/-- The declaration of a message. -/
structure MessageType where
  name : String
  items : List Item

/-- The declarations of an interface. Enumerations are open, so only their names matter. -/
structure Schema where
  messages : List MessageType
  enumerations : List String

/-- How a field occurs in a message. -/
inductive Occurrence
  | single
  | repeated
  | alternative
deriving DecidableEq

/-- The fields that an item declares. -/
def Item.fields : Item → List (Occurrence × Declaration)
  | .single f => [(.single, f)]
  | .repeated f => [(.repeated, f)]
  | .oneof _ alternatives => alternatives.map fun f => (.alternative, f)

/-- The field with a name. -/
def MessageType.field? (m : MessageType) (name : String) : Option (Occurrence × Declaration) :=
  (m.items.flatMap Item.fields).find? fun f => f.2.name = name

/-- The message with a name. -/
def Schema.message? (schema : Schema) (name : String) : Option MessageType :=
  schema.messages.find? fun m => m.name = name

/-- A value, messages being records of named entries. -/
inductive Value
  | text (s : String)
  | flag (b : Bool)
  | integer (n : Int)
  | double (x : Binary64)
  | message (entries : List (String × Value))

/-- The entries of a message by name. A field that is not set has no entry, and a repeated field has
one for each of its elements. -/
abbrev Record := List (String × Value)

/-- The value is one that a field has when it is not written. A number is zero with either sign. -/
def Value.isDefault : Value → Bool
  | .text s => s.isEmpty
  | .flag b => !b
  | .integer n => n == 0
  | .double x => x.bits &&& 0x7fffffffffffffff == 0
  | .message _ => false

/-- Digits in base 128 as bytes, each but the last with its high bit set. -/
def continued : List Nat → Bytes
  | [] => []
  | [d] => [UInt8.ofNat d]
  | d :: rest => (UInt8.ofNat d ||| 0x80) :: continued rest

/-- A number in base 128, the lowest digit first; zero has one digit. -/
def base128 (n : Nat) : Bytes :=
  continued (if n = 0 then [0] else Nat.digits 128 n)

/-- A number in two's complement of sixty-four bits. -/
def twosComplement (n : Int) : Nat :=
  (n % (Nat.pow 2 64 : Nat)).toNat

/-- The eight bytes of a word, the lowest first. -/
def fixed64 (w : UInt64) : Bytes :=
  [w.toUInt8, (w >>> 8).toUInt8, (w >>> 16).toUInt8, (w >>> 24).toUInt8, (w >>> 32).toUInt8,
   (w >>> 40).toUInt8, (w >>> 48).toUInt8, (w >>> 56).toUInt8]

/-- Bytes after their exact number. -/
def counted (bytes : Bytes) : Bytes :=
  base128 bytes.length ++ bytes

/-- How the contents of a field are delimited. -/
inductive Framing
  | varint
  | eightBytes
  | counted

/-- The lower three bits of a key. -/
def Framing.code : Framing → Nat
  | .varint => 0
  | .eightBytes => 1
  | .counted => 2

/-- The bytes of one written field, with the number that orders them. -/
structure Chunk where
  number : Nat
  bytes : Bytes

/-- The contents of a field after its key. -/
def Chunk.of (number : Nat) (framing : Framing) (contents : Bytes) : Chunk :=
  ⟨number, base128 (number <<< 3 ||| framing.code) ++ contents⟩

/-- Chunks in the order of their numbers. Those of a repeated field keep their order. -/
def arrange (chunks : List Chunk) : Bytes :=
  (chunks.mergeSort fun a b => a.number ≤ b.number).flatMap Chunk.bytes

/-- An entry is left out: only a single field with its default is. An alternative that is set is
always written, and so is an element. -/
def omits (occurrence : Occurrence) (value : Value) : Bool :=
  decide (occurrence = .single) && value.isDefault

mutual

/-- A value of a type as the contents of a field. There is nothing for a value that is not of the
type. -/
def contents (schema : Schema) : FieldType → Value → Option (Framing × Bytes)
  | .string, .text s => some (.counted, counted (s.toList.flatMap String.utf8EncodeChar))
  | .bool, .flag b => some (.varint, base128 b.toNat)
  | .int64, .integer n => some (.varint, base128 (twosComplement n))
  | .double, .double x => some (.eightBytes, fixed64 x.bits)
  | .named name, .integer n =>
    if name ∈ schema.enumerations then some (.varint, base128 (twosComplement n)) else none
  | .named name, .message entries =>
    (schema.message? name).bind fun type => (recordChunks schema type entries).map fun chunks =>
      (.counted, counted (arrange chunks))
  | _, _ => none

/-- The written fields of a record. There is nothing for a name that is not declared. -/
def recordChunks (schema : Schema) (type : MessageType) : Record → Option (List Chunk)
  | [] => some []
  | (name, value) :: rest =>
    (type.field? name).bind fun (occurrence, field) =>
      (contents schema field.type value).bind fun (framing, bytes) =>
        (recordChunks schema type rest).map fun more =>
          if omits occurrence value then more
          else Chunk.of field.number framing bytes :: more

end

/-- The bytes of a record of the message with a name. -/
def serialize (schema : Schema) (name : String) (record : Record) : Option Bytes := do
  let type ← schema.message? name
  let chunks ← recordChunks schema type record
  return arrange chunks

end Interface

end ScriptWire
