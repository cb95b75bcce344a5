import ScriptWire.Binary64.Shortest

/-!
# Decimal text of numbers

A number is written with its shortest digits. What else a text needs (where positional notation
ends, what follows a whole number, how the values that are no decimals are spelled) is a
`NumberStyle`.

## Main definitions

- `NumberStyle` — the decisions of one text format
- `NumberStyle.render` — the text of a number in a style
- `NumberStyle.document` — the style of documents and dumps
- `NumberStyle.plain` — the style of messages, always positional
-/

namespace ScriptWire

/-- The decisions that fix the text of a number beside its shortest digits. -/
structure NumberStyle where
  /-- Whether a number whose first digit has this exponent of ten is written positionally. -/
  positional : Int → Bool
  /-- What follows the digits of a whole number in positional notation. -/
  wholeTail : String
  /-- The text of an infinity, by its sign. -/
  infinite : Bool → String
  /-- The text of a not-a-number. -/
  undefined : String

namespace NumberStyle

/-- Digits with a decimal point, and zeros where the digits do not reach. -/
def positionalText (style : NumberStyle) (d : Decimal) : String :=
  let digits := Nat.toDigits 10 d.digits
  if 0 ≤ d.exponent then
    String.ofList (digits ++ List.replicate d.exponent.toNat '0') ++ style.wholeTail
  else
    let places := (-d.exponent).toNat
    let padded := List.replicate (places + 1 - digits.length) '0' ++ digits
    let whole := padded.length - places
    String.ofList (padded.take whole ++ '.' :: padded.drop whole)

/-- One digit, the others after a point, and the exponent with its sign. -/
def scientificText (d : Decimal) : String :=
  let sign := if d.leading < 0 then "e-" else "e+"
  let tail := sign ++ toString d.leading.natAbs
  match Nat.toDigits 10 d.digits with
  | [] => tail
  | [c] => String.singleton c ++ tail
  | c :: cs => String.ofList (c :: '.' :: cs) ++ tail

/-- The text of a number. -/
def render (style : NumberStyle) (x : Binary64) : String :=
  let sign := if x.isNegative then "-" else ""
  if x.isNaN then style.undefined
  else if !x.isFinite then style.infinite x.isNegative
  else
    let d : Decimal := if x.isZero then ⟨0, 0⟩ else x.shortest
    sign ++ if style.positional d.leading then style.positionalText d else scientificText d

/-- In documents and dumps a number has a point or an exponent, is positional from five places
after the point up to sixteen before it, and is `null` if it is not finite. -/
def document : NumberStyle where
  positional place := -5 ≤ place && place ≤ 15
  wholeTail := ".0"
  infinite _ := "null"
  undefined := "null"

/-- In messages a number is always positional and a whole number has no point. -/
def plain : NumberStyle where
  positional _ := true
  wholeTail := ""
  infinite negative := if negative then "-inf" else "inf"
  undefined := "NaN"

end NumberStyle

end ScriptWire
