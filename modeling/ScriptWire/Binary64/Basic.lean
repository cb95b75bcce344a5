/-!
# Double-precision numbers

A number is kept as its bit pattern, so that every pattern is a value of the type and equality is
equality of patterns. Arithmetic goes through exact natural numbers: a finite number is a multiple
of `2 ^ -1074`, and `Binary64.nearest` rounds any quotient of naturals back to the nearest pattern.

## Main definitions

- `Binary64` — a bit pattern
- `Binary64.magnitude` — the absolute value of a finite number, in units of `2 ^ -1074`
- `Binary64.nearest` — the number nearest to a quotient, a tie going to the even significand
- `Binary64.toInt?` — the integer that a number is, if it is one
-/

namespace ScriptWire

/-- A double-precision number, given by its bit pattern. -/
structure Binary64 where
  bits : UInt64
deriving DecidableEq, Inhabited

namespace Binary64

/-- The number with the bit pattern `n`. -/
def ofBits (n : Nat) : Binary64 :=
  ⟨n.toUInt64⟩

/-- The biased exponent: eleven bits, all of them set for infinities and not-a-numbers. -/
def exponentField (x : Binary64) : Nat :=
  x.bits.toNat / Nat.pow 2 52 % Nat.pow 2 11

/-- The fifty-two bits below the exponent. -/
def fraction (x : Binary64) : Nat :=
  x.bits.toNat % Nat.pow 2 52

/-- The sign bit is set. -/
def isNegative (x : Binary64) : Bool :=
  Nat.pow 2 63 ≤ x.bits.toNat

/-- The number is neither infinite nor a not-a-number. -/
def isFinite (x : Binary64) : Bool :=
  x.exponentField < 2047

/-- The pattern stands for no number. -/
def isNaN (x : Binary64) : Bool :=
  x.exponentField == 2047 && x.fraction != 0

/-- The number is zero, of either sign. -/
def isZero (x : Binary64) : Bool :=
  x.bits.toNat % Nat.pow 2 63 == 0

/-- The significand of a finite number, the implicit bit included. -/
def significand (x : Binary64) : Nat :=
  if x.exponentField = 0 then x.fraction else x.fraction + Nat.pow 2 52

/-- The power of two by which the significand counts units of `2 ^ -1074`. -/
def scale (x : Binary64) : Nat :=
  x.exponentField - 1

/-- The absolute value of a finite number, in units of `2 ^ -1074`. -/
def magnitude (x : Binary64) : Nat :=
  x.significand * Nat.pow 2 x.scale

/-- The number of units of `magnitude` in one. -/
def unitsPerOne : Nat :=
  Nat.pow 2 1074

/-- The positive infinity. -/
def infinity : Binary64 :=
  ofBits (2047 * Nat.pow 2 52)

/-- The positive zero. -/
def zero : Binary64 :=
  ofBits 0

/-- The quiet not-a-number with a clear sign and no payload. -/
def quietNaN : Binary64 :=
  ofBits (2047 * Nat.pow 2 52 + Nat.pow 2 51)

/-- The same pattern with the other sign. -/
def negate (x : Binary64) : Binary64 :=
  ofBits ((x.bits.toNat + Nat.pow 2 63) % Nat.pow 2 64)

/-- The pattern with its sign set if `negative` holds. -/
def withSign (negative : Bool) (x : Binary64) : Binary64 :=
  if negative then x.negate else x

/-- The quotient of two naturals rounded to the nearest natural, a tie going to the even one. -/
def roundDiv (num den : Nat) : Nat :=
  let quotient := num / den
  let rest := num % den
  if den < 2 * rest || (den == 2 * rest && quotient % 2 == 1) then quotient + 1 else quotient

/-- The number nearest to `num / den`, a tie going to the even significand. A quotient that rounds
beyond the largest finite number gives infinity. -/
def nearest (num den : Nat) : Binary64 :=
  let units := num * unitsPerOne
  let scale := Nat.log2 (units / den) - 52
  ofBits (min (scale * Nat.pow 2 52 + roundDiv units (den * Nat.pow 2 scale)) (2047 * Nat.pow 2 52))

/-- The number nearest to a natural. -/
def ofNat (n : Nat) : Binary64 :=
  nearest n 1

/-- The number nearest to an integer. -/
def ofInt (n : Int) : Binary64 :=
  withSign (n < 0) (ofNat n.natAbs)

/-- The product of two non-negative numbers, the first of which may be infinite. -/
def mul (x y : Binary64) : Binary64 :=
  if x.isFinite then nearest (x.magnitude * y.magnitude) (unitsPerOne * unitsPerOne) else x

/-- The quotient of two non-negative numbers, the first of which may be infinite and the second of
which is finite and not zero. -/
def div (x y : Binary64) : Binary64 :=
  if x.isFinite then nearest x.magnitude y.magnitude else x

/-- The sum of a non-negative number, which may be infinite, and a natural that is a number. -/
def addNat (x : Binary64) (n : Nat) : Binary64 :=
  if x.isFinite then nearest (x.magnitude + n * unitsPerOne) unitsPerOne else x

/-- The integer that a finite number is, if it is one. -/
def toInt? (x : Binary64) : Option Int :=
  if x.isFinite && x.magnitude % unitsPerOne == 0 then
    let whole : Int := (x.magnitude / unitsPerOne : Nat)
    some (if x.isNegative then -whole else whole)
  else
    none

/-- Two patterns are the same number: a not-a-number is the same as nothing, and the two zeros are
the same. -/
def sameNumber (x y : Binary64) : Bool :=
  (x == y && !x.isNaN) || (x.isZero && y.isZero)

end Binary64

end ScriptWire
