import ScriptWire.Binary64.Reading
import ScriptWire.Literal.Digit
import ScriptWire.Literal.Error

/-!
# Numeric literals

Separators are dropped first. A number with a radix mark, or a leading zero and octal digits only,
is accumulated digit by digit, each step rounded; any other is a decimal text, rounded once.

## Main definitions

- `Literal.number` — the value of a numeric literal
- `Literal.bigInt` — the digits of a big-integer literal
-/

namespace ScriptWire

namespace Literal

/-- The text without digit separators. -/
def withoutSeparators (cs : List Char) : List Char :=
  cs.filter (· != '_')

/-- The radix that the first two characters announce. -/
def announcedRadix? : List Char → Option Nat
  | '0' :: c :: _ =>
    if c = 'x' ∨ c = 'X' then some 16
    else if c = 'o' ∨ c = 'O' then some 8
    else if c = 'b' ∨ c = 'B' then some 2
    else none
  | _ => none

/-- The digits of the given radix, accumulated from the left with a rounding at each step. -/
def accumulate? (radix : Nat) (cs : List Char) : Option Binary64 :=
  if cs = [] then none
  else cs.foldlM (fun x c => (digit? radix c).map fun d =>
    (x.mul (Binary64.ofNat radix)).addNat d) Binary64.zero

/-- The text without one point at its end. -/
def dropFinalPoint (cs : List Char) : List Char :=
  if cs.getLast? = some '.' then cs.dropLast else cs

/-- The value of a numeric text that has no separators. -/
def numberValue? (cs : List Char) : Option Binary64 :=
  match announcedRadix? cs with
  | some radix => accumulate? radix (cs.drop 2)
  | none =>
    if 1 < cs.length ∧ cs.head? = some '0' ∧ cs.all Char.isDigit then
      if cs.all fun c => (digit? 8 c).isSome then accumulate? 8 (cs.drop 1)
      else Binary64.parse? cs
    else
      Binary64.parse? (dropFinalPoint cs)

/-- The value of a numeric literal. -/
def number (text : String) : Except LiteralError Binary64 :=
  match numberValue? (withoutSeparators text.toList) with
  | some x => .ok x
  | none => .error (.invalidNumber text)

/-- The digits of a big-integer literal, without its mark and separators. -/
def bigInt (text : String) : Except LiteralError String :=
  if text.toList.getLast? = some 'n' then
    .ok (String.ofList (withoutSeparators text.toList.dropLast))
  else
    .error (.invalidBigInt text)

end Literal

end ScriptWire
