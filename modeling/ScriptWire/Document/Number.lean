import ScriptWire.Binary64.Reading
import ScriptWire.Document.Error
import ScriptWire.Document.Value

/-!
# Numbers in documents

An integer that fits in sixty-four bits is kept exactly. Any other number is approximated: as many
digits as fit are collected, and the result is scaled by a power of ten, each step rounded.

## Main definitions

- `Document.scaleByTen` — a number of digits times a power of ten
- `Document.number` — a number in a document
-/

namespace ScriptWire

namespace Document

/-- A result and the text after it. -/
abbrev Parsed (α : Type) := α × List Char

/-- The power of ten nearest to the exact one. -/
def powerOfTen (n : Nat) : Binary64 :=
  Binary64.ofNat (Nat.pow 10 n)

/-- A non-negative number times a power of ten. Powers beyond the largest finite one are reached in
steps, which `fuel` bounds. -/
def scaleByTen : Nat → Binary64 → Int → Except TextError Binary64
  | 0, x, _ => .ok x
  | fuel + 1, x, e =>
    if e.natAbs ≤ 308 then
      if 0 ≤ e then
        let y := x.mul (powerOfTen e.natAbs)
        if y.isFinite then .ok y else .error .numberOutOfRange
      else
        .ok (x.div (powerOfTen e.natAbs))
    else if x.isZero then .ok x
    else if 0 ≤ e then .error .numberOutOfRange
    else scaleByTen fuel (x.div (powerOfTen 308)) (e + 308)

/-- The number with the given digits, exponent and sign. -/
def floatOf (negative : Bool) (digits : Nat) (e : Int) : Except TextError Value :=
  (scaleByTen 8 (Binary64.ofNat digits) e).map fun x => .float (x.withSign negative)

/-- The largest number of digits that is collected. -/
def mostDigits : Nat :=
  Nat.pow 2 64 - 1

/-- Digits collected one by one as long as their number fits: the number, how many were collected,
and the text after them. -/
def collect : Nat → Nat → List Char → Nat × Nat × List Char
  | digits, count, c :: cs =>
    if c.isDigit then
      let more := 10 * digits + (c.toNat - '0'.toNat)
      if mostDigits < more then (digits, count, c :: cs) else collect more (count + 1) cs
    else (digits, count, c :: cs)
  | digits, count, [] => (digits, count, [])

/-- The largest exponent that is written out. -/
def mostExponent : Nat :=
  Nat.pow 2 31 - 1

/-- The exponent `e` moved by a written one, within the bounds of thirty-two bits. -/
def moveExponent (e : Int) (negative : Bool) (written : Nat) : Int :=
  if negative then max (e - written) (-(Nat.pow 2 31)) else min (e + written) (mostExponent : Int)

/-- What follows the mark of an exponent. An exponent too large for its bounds gives zero, unless
it is positive and a digit is not zero. -/
def exponentTail (negative : Bool) (digits : Nat) (e : Int) (s : List Char) :
    Except TextError (Parsed Value) :=
  let (down, s) := Binary64.splitSign s
  match s with
  | [] => .error .endInValue
  | c :: cs =>
    if c.isDigit then
      let written := Binary64.digitsValue ((c :: cs).takeWhile Char.isDigit)
      let rest := (c :: cs).dropWhile Char.isDigit
      if mostExponent < written then
        if digits ≠ 0 && !down then .error .numberOutOfRange
        else .ok (.float (Binary64.zero.withSign negative), rest)
      else
        (floatOf negative digits (moveExponent e down written)).map (·, rest)
    else .error .invalidNumber

/-- What follows the digits of a number that is no integer. -/
def floatTail (negative : Bool) (digits : Nat) (e : Int) (s : List Char) :
    Except TextError (Parsed Value) :=
  match s with
  | 'e' :: cs => exponentTail negative digits e cs
  | 'E' :: cs => exponentTail negative digits e cs
  | _ => (floatOf negative digits e).map (·, s)

/-- What follows the point of a number. At least one digit must follow; digits that do not fit are
dropped. -/
def fractionTail (negative : Bool) (digits : Nat) (e : Int) (s : List Char) :
    Except TextError (Parsed Value) :=
  match s with
  | [] => .error .endInValue
  | c :: cs =>
    if c.isDigit then
      let (digits, count, rest) := collect digits 0 (c :: cs)
      floatTail negative digits (e - count) (rest.dropWhile Char.isDigit)
    else .error .invalidNumber

/-- An integer with its sign. A negative zero, and a negative integer that does not fit, are
floats. -/
def integerValue (negative : Bool) (n : Nat) : Value :=
  if !negative then .integer n
  else if n = 0 || Nat.pow 2 63 < n then .float (Binary64.ofNat n).negate
  else .integer (-(n : Int))

/-- What follows the integer digits of a number, all of which were collected. -/
def wholeTail (negative : Bool) (digits : Nat) (s : List Char) : Except TextError (Parsed Value) :=
  match s with
  | '.' :: cs => fractionTail negative digits 0 cs
  | 'e' :: cs => exponentTail negative digits 0 cs
  | 'E' :: cs => exponentTail negative digits 0 cs
  | _ => .ok (integerValue negative digits, s)

/-- What follows the integer digits that were collected, when more of them do not fit. -/
def longTail (negative : Bool) (digits : Nat) (s : List Char) : Except TextError (Parsed Value) :=
  let extra := (s.takeWhile Char.isDigit).length
  match s.dropWhile Char.isDigit with
  | '.' :: cs => fractionTail negative digits extra cs
  | rest => floatTail negative digits extra rest

/-- A number after its sign. -/
def unsignedNumber (negative : Bool) (s : List Char) : Except TextError (Parsed Value) :=
  match s with
  | [] => .error .endInValue
  | c :: cs =>
    if c = '0' then
      if cs.head?.any Char.isDigit then .error .invalidNumber else wholeTail negative 0 cs
    else if c.isDigit then
      let (digits, _, rest) := collect 0 0 (c :: cs)
      if rest.head?.any Char.isDigit then longTail negative digits rest
      else wholeTail negative digits rest
    else .error .invalidNumber

/-- A number. -/
def number (s : List Char) : Except TextError (Parsed Value) :=
  match s with
  | '-' :: cs => unsignedNumber true cs
  | _ => unsignedNumber false s

end Document

end ScriptWire
