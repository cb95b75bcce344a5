import ScriptWire.Wire.Decoder
import Mathlib.Data.List.Basic

/-!
# Plain values read back

Every writer of bytes has a reader that gives the value back and leaves the bytes after it, whatever
they are.

## Main results

- `Wire.readVarint_varint` — numbers of at most sixty-four bits
- `Wire.readKey_key` — keys of fields
- `Wire.readScalar_scalarBytes` — plain values
-/

namespace ScriptWire

namespace Wire

open Message

theorem toNat_toUInt8 {n : Nat} (h : n < 256) : n.toUInt8.toNat = n := by
  simp [Nat.mod_eq_of_lt h]

theorem varint_of_lt {n : Nat} (h : n < 128) : varint n = [n.toUInt8] := by
  rw [varint, if_pos h]

theorem varint_of_le {n : Nat} (h : 128 ≤ n) :
    varint n = (n % 128 + 128).toUInt8 :: varint (n / 128) := by
  rw [varint, if_neg (by omega)]

theorem varint_ne_nil (n : Nat) : varint n ≠ [] := by
  by_cases h : n < 128
  · simp [varint_of_lt h]
  · simp [varint_of_le (Nat.le_of_not_lt h)]

/-- The last of the bytes that may be read has a single bit, and each byte before it has seven. -/
theorem readGroups_varint (limit n : Nat) (rest : Bytes) (h : n < 2 * Nat.pow 128 limit) :
    readGroups (limit + 1) (varint n ++ rest) = some (n, rest) := by
  induction limit generalizing n with
  | zero =>
    have hn : n < 2 := by simpa using h
    rw [varint_of_lt (by omega), List.cons_append, readGroups, toNat_toUInt8 (by omega),
      if_pos (by omega), if_neg (by simp; omega), List.nil_append]
  | succ limit ih =>
    by_cases hn : n < 128
    · rw [varint_of_lt hn, List.cons_append, readGroups, toNat_toUInt8 (by omega), if_pos hn,
        if_neg (by simp), List.nil_append]
    · have hpow : Nat.pow 128 (limit + 1) = Nat.pow 128 limit * 128 := rfl
      have hrest := ih (n / 128) (by omega)
      rw [varint_of_le (by omega), List.cons_append, readGroups, toNat_toUInt8 (by omega),
        if_neg (by omega), hrest]
      simp only [Option.some.injEq, Prod.mk.injEq, and_true]
      omega

theorem readVarint_varint {n : Nat} (h : n < Nat.pow 2 64) (rest : Bytes) :
    readVarint (varint n ++ rest) = some (n, rest) :=
  readGroups_varint 9 n rest h

theorem takeVarint_varint {n : Nat} (h : n < Nat.pow 2 64) (rest : Bytes) :
    takeVarint (varint n ++ rest) = .ok (n, rest) := by
  rw [takeVarint, readVarint_varint h]

theorem WireType.ofCode?_code (type : WireType) : WireType.ofCode? type.code = some type := by
  cases type <;> rfl

theorem WireType.code_lt (type : WireType) : type.code < 8 := by
  cases type <;> decide

theorem readKey_key {number : Nat} (type : WireType) (rest : Bytes) (hpos : 0 < number)
    (hlt : number < Nat.pow 2 29) :
    readKey (key number type ++ rest) = .ok (⟨number, type⟩, rest) := by
  have hcode := type.code_lt
  have hpow : Nat.pow 2 32 = 8 * Nat.pow 2 29 := rfl
  have hword : Nat.pow 2 32 ≤ Nat.pow 2 64 := by decide
  have hmod : (8 * number + type.code) % 8 = type.code := by omega
  have hdiv : (8 * number + type.code) / 8 = number := by omega
  rw [key, readKey, takeVarint_varint (by omega)]
  simp only [bind, Except.bind]
  rw [if_neg (by omega), hmod, WireType.ofCode?_code]
  simp only
  rw [hdiv, if_neg (by omega)]

theorem key_ne_nil (number : Nat) (type : WireType) : key number type ≠ [] :=
  varint_ne_nil _

theorem takeBytes_append (bytes rest : Bytes) :
    takeBytes bytes.length (bytes ++ rest) = .ok (bytes, rest) := by
  rw [takeBytes, if_neg (by simp), List.take_left, List.drop_left]

theorem fromUTF8?_textBytes (s : String) :
    String.fromUTF8? ⟨(textBytes s).toArray⟩ = some s := by
  have hbytes : (⟨(textBytes s).toArray⟩ : ByteArray) = s.toByteArray := rfl
  rw [hbytes, String.fromUTF8?, dif_pos s.isValidUTF8]
  rfl

theorem readText_textBytes (s : String) : readText (textBytes s) = .ok s := by
  rw [readText, fromUTF8?_textBytes]

theorem littleEndian_word64 {n : Nat} (h : n < Nat.pow 2 64) : littleEndian (word64 n) = n := by
  have hbyte (m : Nat) : (m % 256).toUInt8.toNat = m % 256 := toNat_toUInt8 (by omega)
  simp only [word64, List.range, List.range.loop, List.map, littleEndian, hbyte, Nat.pow_eq,
    Nat.reducePow] at h ⊢
  omega

theorem length_word64 (n : Nat) : (word64 n).length = 8 := by
  simp [word64]

theorem ofNat_toNat_signExtend (x : BitVec 32) :
    BitVec.ofNat 32 (x.signExtend 64).toNat = x := by
  rw [BitVec.ofNat_toNat]
  ext i hi
  have hlt : i < 64 := by omega
  rw [BitVec.getElem_setWidth, BitVec.getLsbD_eq_getElem hlt, BitVec.getElem_signExtend, dif_pos hi]

/-- A choice is written as sixty-four bits, of which the lower half is read. -/
theorem toInt32_choice (n : Int32) : n.toInt64.toUInt64.toNat.toUInt32.toInt32 = n := by
  have hlow : n.toInt64.toUInt64.toNat.toUInt32 = n.toUInt32 :=
    UInt32.toBitVec_inj.mp (ofNat_toNat_signExtend n.toBitVec)
  rw [hlow, Int32.toInt32_toUInt32]

/-- A plain value is read back, if the number of its bytes can be written. -/
theorem readScalar_scalarBytes (type : Scalar) (value : type.Carrier) (rest : Bytes)
    (h : (scalarBytes type value).length < Nat.pow 2 64) :
    readScalar type (scalarBytes type value ++ rest) = .ok (value, rest) := by
  cases type with
  | text =>
    have hlength : (textBytes value).length < Nat.pow 2 64 := by
      simp only [scalarBytes, delimited, List.length_append] at h
      omega
    simp only [readScalar, scalarBytes, delimited, List.append_assoc, takeVarint_varint hlength,
      bind, Except.bind, takeBytes_append, readText_textBytes, pure, Except.pure]
  | flag =>
    have hlt : Bool.toNat value < Nat.pow 2 64 := by cases value <;> decide
    simp only [readScalar, scalarBytes, takeVarint_varint hlt, bind, Except.bind, pure, Except.pure]
    cases value <;> rfl
  | choice =>
    have hlt : (Int32.toInt64 value).toUInt64.toNat < Nat.pow 2 64 := UInt64.toNat_lt _
    simp only [readScalar, scalarBytes, takeVarint_varint hlt, bind, Except.bind, pure, Except.pure,
      toInt32_choice]
  | index =>
    have hlt : (Int64.toUInt64 value).toNat < Nat.pow 2 64 := UInt64.toNat_lt _
    simp only [readScalar, scalarBytes, takeVarint_varint hlt, bind, Except.bind, pure, Except.pure,
      UInt64.ofNat_toNat, Nat.toUInt64, Int64.toInt64_toUInt64]
  | double =>
    have hlt : (Binary64.bits value).toNat < Nat.pow 2 64 := UInt64.toNat_lt _
    have htake := takeBytes_append (word64 (Binary64.bits value).toNat) rest
    rw [length_word64] at htake
    simp only [readScalar, scalarBytes, htake, bind, Except.bind, pure, Except.pure,
      littleEndian_word64 hlt, Binary64.ofBits, UInt64.ofNat_toNat, Nat.toUInt64]

theorem readField_scalarBytes (type : Scalar) (value : type.Carrier) (rest : Bytes)
    (h : (scalarBytes type value).length < Nat.pow 2 64) :
    readField (scalarWire type) type (scalarBytes type value ++ rest) = .ok (value, rest) := by
  rw [readField, expectWire, if_pos rfl]
  exact readScalar_scalarBytes type value rest h

end Wire

end ScriptWire
