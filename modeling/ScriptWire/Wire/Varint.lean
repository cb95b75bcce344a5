/-!
# Variable-length integers

A number is written in groups of seven bits, the lowest first; every byte but the last has its high
bit set.

## Main definitions

- `Wire.varint` — the bytes of a number
- `Wire.readVarint` — a number of at most sixty-four bits, and the bytes after it
-/

namespace ScriptWire

namespace Wire

/-- Bytes in order. -/
abbrev Bytes := List UInt8

/-- The bytes of a number. -/
def varint (n : Nat) : Bytes :=
  if n < 128 then [n.toUInt8] else (n % 128 + 128).toUInt8 :: varint (n / 128)
termination_by n
decreasing_by omega

/-- A number of at most `limit` bytes, and the bytes after it. The tenth byte of a number of
sixty-four bits has a single bit. -/
def readGroups : (limit : Nat) → Bytes → Option (Nat × Bytes)
  | 0, _ => none
  | _ + 1, [] => none
  | limit + 1, b :: rest =>
    if b.toNat < 128 then
      if limit = 0 && 1 < b.toNat then none else some (b.toNat, rest)
    else
      match readGroups limit rest with
      | none => none
      | some (n, rest) => some (b.toNat - 128 + 128 * n, rest)

/-- A number of at most sixty-four bits, and the bytes after it. -/
def readVarint (bytes : Bytes) : Option (Nat × Bytes) :=
  readGroups 10 bytes

/-- The eight bytes of a word, the lowest first. -/
def word64 (n : Nat) : Bytes :=
  (List.range 8).map fun i => (n / Nat.pow 256 i % 256).toUInt8

/-- The number that bytes stand for, the lowest first. -/
def littleEndian : Bytes → Nat
  | [] => 0
  | b :: rest => b.toNat + 256 * littleEndian rest

end Wire

end ScriptWire
