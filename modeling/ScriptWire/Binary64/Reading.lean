import ScriptWire.Binary64.Basic

/-!
# Reading decimal numbers

A decimal text is an optional sign, digits with at most one point and at least one digit, and an
optional exponent; or the word for infinity or for a not-a-number, in any case. Its value is
rounded once, to the nearest number.

## Main definitions

- `Binary64.ofDecimal` — the number nearest to `digits * 10 ^ exponent`
- `Binary64.parse?` — the number that a decimal text denotes
-/

namespace ScriptWire

namespace Binary64

/-- The number nearest to `digits * 10 ^ exponent`. Exponents so large or small that the result is
infinite or zero in any case are settled without computing the power. -/
def ofDecimal (digits : Nat) (exponent : Int) : Binary64 :=
  let place := ((Nat.toDigits 10 digits).length : Int) + exponent
  if digits = 0 then zero
  else if 310 < place then infinity
  else if place < -326 then zero
  else if 0 ≤ exponent then nearest (digits * Nat.pow 10 exponent.toNat) 1
  else nearest digits (Nat.pow 10 (-exponent).toNat)

/-- The value of a list of decimal digits. -/
def digitsValue (cs : List Char) : Nat :=
  cs.foldl (fun n c => 10 * n + (c.toNat - '0'.toNat)) 0

/-- The sign in front of a text, and the rest. -/
def splitSign : List Char → Bool × List Char
  | '-' :: cs => (true, cs)
  | '+' :: cs => (false, cs)
  | cs => (false, cs)

/-- The exponent that a text denotes: nothing at all, or a mark, an optional sign and digits. -/
def parseExponent? : List Char → Option Int
  | [] => some 0
  | mark :: cs =>
    let (negative, digits) := splitSign cs
    if (mark = 'e' ∨ mark = 'E') ∧ digits ≠ [] ∧ digits.all Char.isDigit then
      some (if negative then -(digitsValue digits : Int) else digitsValue digits)
    else
      none

/-- The number that a text of digits, point and exponent denotes. -/
def parseUnsigned? (cs : List Char) : Option Binary64 :=
  let whole := cs.takeWhile Char.isDigit
  let afterWhole := cs.dropWhile Char.isDigit
  let (places, rest) := match afterWhole with
    | '.' :: tail => (tail.takeWhile Char.isDigit, tail.dropWhile Char.isDigit)
    | tail => ([], tail)
  if whole = [] ∧ places = [] then none
  else (parseExponent? rest).map fun e =>
    ofDecimal (digitsValue (whole ++ places)) (e - places.length)

/-- The number that a decimal text denotes. -/
def parse? (cs : List Char) : Option Binary64 :=
  let (negative, body) := splitSign cs
  let word := String.ofList (body.map Char.toLower)
  let value :=
    if word = "inf" ∨ word = "infinity" then some infinity
    else if word = "nan" then some quietNaN
    else parseUnsigned? body
  value.map (withSign negative)

end Binary64

end ScriptWire
