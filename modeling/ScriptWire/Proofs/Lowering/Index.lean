import ScriptWire.Lowering.Basic
import ScriptWire.Proofs.Binary64.Value
import ScriptWire.Proofs.Ensures

/-!
# Numbers as keys of properties

A number is taken for the index that is its exact value. The bounds of indices are numbers
themselves, and the upper one is rounded up: the integer right above all indices is let through as
well, and is taken for the largest index.

## Main results

- `Lowering.indexKey_eq_ok_iff` — the indices that numbers are taken for
- `Lowering.member_eq_ok_of_numericKey` — the index of a number in the message of a property
- `Lowering.indexKey_above_range` — the number that is taken for another index than its value
-/

namespace ScriptWire

namespace Lowering

open ScriptWire.Tree

variable {x : Binary64} {i : Int64} {n : Int}

/-- The index that an integer in the range is taken for. -/
theorem ofInt_min_eq_iff (hlow : -2 ^ 63 ≤ n) (hhigh : n ≤ 2 ^ 63) :
    Int64.ofInt (min n (2 ^ 63 - 1)) = i ↔ n = i.toInt ∨ n = 2 ^ 63 ∧ i = Int64.maxValue := by
  have hi := i.toInt_lt
  by_cases htop : n = 2 ^ 63
  · have hmax : Int64.ofInt (min n (2 ^ 63 - 1)) = Int64.maxValue := by
      rw [htop]
      decide
    rw [hmax]
    constructor
    · rintro rfl
      exact .inr ⟨htop, rfl⟩
    · rintro (h | ⟨-, rfl⟩)
      · omega
      · rfl
  · have hmin : min n (2 ^ 63 - 1) = n := by omega
    have hn : (Int64.ofInt n).toInt = n := Int64.toInt_ofInt_of_le hlow (by omega)
    rw [hmin]
    constructor
    · rintro rfl
      exact .inl hn.symm
    · rintro (rfl | ⟨h, -⟩)
      · exact Int64.ofInt_toInt i
      · exact absurd h htop

/-- A number is taken for the index that is its value, and the number right above all indices for
the largest of them. -/
theorem indexKey_eq_ok_iff :
    indexKey x = .ok i ↔
      x.value? = some (i.toInt : ℚ) ∨ x.value? = some (2 ^ 63) ∧ i = Int64.maxValue := by
  have htop : (2 : ℚ) ^ 63 = ((2 ^ 63 : Int) : ℚ) := by norm_num
  rw [htop, ← Binary64.toInt?_eq_some_iff, ← Binary64.toInt?_eq_some_iff, indexKey]
  cases x.toInt? with
  | none => simp
  | some n =>
    simp only [Nat.pow_eq, Nat.cast_pow, Nat.cast_ofNat, Option.some.injEq]
    split
    next h => rw [Except.ok.injEq, ofInt_min_eq_iff h.1 h.2]
    next h =>
      have hlow := i.le_toInt
      have hhigh := i.toInt_lt
      simp only [reduceCtorEq, false_iff, not_or, not_and]
      constructor
      · intro hn
        omega
      · intro hn
        omega

theorem checked_eq_ok {k : Message.Kind} {m result : Message k} (h : checked m = .ok result) :
    result = m := by
  rw [checked, mapError_eq_ok, Message.make] at h
  split at h
  · cases h
  · cases h
    rfl

theorem asMember_eq_ok {k : Message.Kind} [Message.Holds Message.memberVariants k] {m : Message k}
    {result : Message .objectField} (h : asMember m = .ok result) :
    result = Message.objectField m := by
  obtain ⟨inner, hinner, hresult⟩ := bind_eq_ok.mp h
  rw [checked_eq_ok hresult, checked_eq_ok hinner]

/-- A number is the key of a property exactly if it is taken for an index, which is its value unless
it is the number right above all indices; and the message of the property holds this index. -/
theorem member_eq_ok_of_numericKey (x : Binary64) :
    (∀ i, indexKey x = .ok i ↔
      x.value? = some (i.toInt : ℚ) ∨ x.value? = some (2 ^ 63) ∧ i = Int64.maxValue) ∧
    ∀ limit levels value m,
      member limit levels (.objectProperty (.numericLiteral x) value false false false) = .ok m →
        ∃ i e, indexKey x = .ok i ∧ expression limit levels value = .ok e ∧
          m = Message.objectField (Message.indexedProperty i e) := by
  refine ⟨fun i => indexKey_eq_ok_iff, ?_⟩
  intro limit levels value m h
  obtain ⟨i, hi, h⟩ := bind_eq_ok.mp h
  obtain ⟨e, he, h⟩ := bind_eq_ok.mp h
  exact ⟨i, e, hi, he, asMember_eq_ok h⟩

/-- The least index is its own number, and the key of a property. -/
theorem member_eq_ok_of_numericKey_least :
    ∃ m, member 1 1
        (.objectProperty (.numericLiteral (.ofInt Int64.minValue.toInt)) .nullLiteral false false
          false) = .ok m ∧
      ∃ i e, indexKey (.ofInt Int64.minValue.toInt) = .ok i ∧
        expression 1 1 .nullLiteral = .ok e ∧
          m = Message.objectField (Message.indexedProperty i e) := by
  have hround : (Binary64.ofInt Int64.minValue.toInt).toInt? = some Int64.minValue.toInt := by
    decide +kernel
  have hkey : indexKey (.ofInt Int64.minValue.toInt) = .ok Int64.minValue :=
    indexKey_eq_ok_iff.mpr (.inl (Binary64.toInt?_eq_some_iff.mp hround))
  have hmember : member 1 1
      (.objectProperty (.numericLiteral (.ofInt Int64.minValue.toInt)) .nullLiteral false false
        false) =
      .ok (Message.objectField
        (Message.indexedProperty Int64.minValue (Message.expression Message.nullLiteral))) := by
    simp only [member, hkey, bind, Except.bind]
    rfl
  exact ⟨_, hmember, (member_eq_ok_of_numericKey _).2 _ _ _ _ hmember⟩

/-- The largest index, as the nearest number, has a value right above all indices, and is taken for
the largest index nevertheless. -/
theorem indexKey_above_range :
    (Binary64.ofInt Int64.maxValue.toInt).value? = some (2 ^ 63) ∧
      indexKey (Binary64.ofInt Int64.maxValue.toInt) = .ok Int64.maxValue := by
  have hround : (Binary64.ofInt Int64.maxValue.toInt).toInt? = some (2 ^ 63) := by
    decide +kernel
  have hvalue : (Binary64.ofInt Int64.maxValue.toInt).value? = some (2 ^ 63) := by
    rw [Binary64.toInt?_eq_some_iff.mp hround]
    norm_num
  exact ⟨hvalue, indexKey_eq_ok_iff.mpr (.inr ⟨hvalue, rfl⟩)⟩

end Lowering

end ScriptWire
