import ScriptWire.Binary64.Basic

/-!
# The shortest decimal that reads back

The reals that round to a given finite number form an interval. Among the decimals with the fewest
significant digits in that interval, `Binary64.shortest` gives the one nearest to the number.

## Main definitions

- `Decimal` — a natural number of digits together with a power of ten
- `Binary64.shortest` — the shortest decimal of a finite number that is not zero
-/

namespace ScriptWire

/-- The decimal `digits * 10 ^ exponent`. -/
structure Decimal where
  digits : Nat
  exponent : Int
deriving DecidableEq

namespace Decimal

/-- The same decimal without trailing zeros among its digits; `fuel` bounds their number. -/
def trim : Nat → Decimal → Decimal
  | 0, d => d
  | fuel + 1, d =>
    if d.digits % 10 = 0 ∧ d.digits ≠ 0 then trim fuel ⟨d.digits / 10, d.exponent + 1⟩ else d

/-- The exponent of ten of the first digit. -/
def leading (d : Decimal) : Int :=
  d.exponent + ((Nat.toDigits 10 d.digits).length : Int) - 1

end Decimal

/-- A positive rational as a numerator and a denominator. -/
structure Ratio where
  num : Nat
  den : Nat

namespace Ratio

/-- The rational times a power of ten. -/
def scaleTen (r : Ratio) (e : Int) : Ratio :=
  if 0 ≤ e then ⟨r.num * Nat.pow 10 e.toNat, r.den⟩
  else ⟨r.num, r.den * Nat.pow 10 (-e).toNat⟩

/-- The least `j` at which `r * 10 ^ j` is at least one, searched from `j` on for `fuel` steps. -/
def firstPlace (r : Ratio) : Nat → Nat → Nat
  | 0, j => j
  | fuel + 1, j => if r.den ≤ r.num * Nat.pow 10 j then j else firstPlace r fuel (j + 1)

/-- The exponent of ten of the first decimal digit. -/
def leadingPlace (r : Ratio) : Int :=
  if r.den ≤ r.num then ((Nat.toDigits 10 (r.num / r.den)).length : Int) - 1
  else -(r.firstPlace 330 0 : Int)

end Ratio

namespace Binary64

/-- The reals between `low / den` and `high / den`, with the ends or without them. -/
structure Interval where
  low : Nat
  high : Nat
  den : Nat
  closed : Bool

/-- Whether the rational `r` lies in the interval. -/
def Interval.contains (i : Interval) (r : Ratio) : Bool :=
  let low := i.low * r.den
  let value := r.num * i.den
  let high := i.high * r.den
  if i.closed then low ≤ value && value ≤ high else low < value && value < high

/-- The reals that round to the finite number `x`, in quarters of its unit. The step below a power
of two is half the step above it. -/
def interval (x : Binary64) : Interval :=
  let step := Nat.pow 2 x.scale
  let below := if x.fraction = 0 ∧ 1 < x.exponentField then step else 2 * step
  { low := 4 * x.magnitude - below
    high := 4 * x.magnitude + 2 * step
    den := 4 * unitsPerOne
    closed := x.significand % 2 == 0 }

/-- The absolute value of the finite number `x`. -/
def ratio (x : Binary64) : Ratio :=
  ⟨x.magnitude, unitsPerOne⟩

/-- The decimal with exponent `e` nearest to `x`. -/
def rounded (x : Binary64) (e : Int) : Decimal :=
  let scaled := x.ratio.scaleTen (-e)
  ⟨roundDiv scaled.num scaled.den, e⟩

/-- Of the two neighbours of `x` on the grid of decimals with exponent `e`, the nearer one that
rounds to `x`. -/
def onGrid? (x : Binary64) (e : Int) : Option Decimal :=
  let scaled := x.ratio.scaleTen (-e)
  let lower := scaled.num / scaled.den
  let value (n : Nat) : Ratio := (⟨n, 1⟩ : Ratio).scaleTen e
  let fits (n : Nat) : Bool := x.interval.contains (value n)
  let nearer := (x.rounded e).digits
  let farther := if nearer = lower then lower + 1 else lower
  if fits nearer then some ⟨nearer, e⟩ else if fits farther then some ⟨farther, e⟩ else none

/-- The decimal of the first grid that has one which rounds to `x`. The grids grow finer from the
place `place - count` on, and `fuel` bounds their number. -/
def searchGrid (x : Binary64) (place : Int) : Nat → Nat → Decimal
  | 0, count => x.rounded (place - count)
  | fuel + 1, count =>
    match x.onGrid? (place - count) with
    | some d => d
    | none => searchGrid x place fuel (count + 1)

/-- The shortest decimal that rounds to the finite number `x`, which is not zero; of several, the
nearest one. The sign is left out. -/
def shortest (x : Binary64) : Decimal :=
  (searchGrid x x.ratio.leadingPlace 18 0).trim 20

end Binary64

end ScriptWire
