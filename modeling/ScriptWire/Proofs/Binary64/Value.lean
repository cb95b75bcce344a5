import ScriptWire.Proofs.Binary64.Exact
import Mathlib.Algebra.Field.Rat
import Mathlib.Algebra.Order.Ring.Rat
import Mathlib.Data.Rat.Cast.Defs
import Mathlib.Tactic.FieldSimp
import Mathlib.Tactic.NormNum
import Mathlib.Tactic.Ring

/-!
# The exact value of a number

A pattern has a sign, an exponent and a fraction, and stands for a rational number unless all bits
of its exponent are set.

## Main definitions

- `Binary64.value?` — the rational number that a pattern stands for

## Main results

- `Binary64.value?_of_isFinite` — the value in units of the smallest number
- `Binary64.toInt?_eq_some_iff` — the integer that a number is, is its value
- `Binary64.value?_ofNat` — a natural of at most fifty-three bits is the value of its number
-/

namespace ScriptWire

namespace Binary64

variable {x : Binary64} {n : Nat}

/-- The sign of a number as a factor. -/
def sign (x : Binary64) : ℚ :=
  if x.isNegative then -1 else 1

/-- The rational number that a pattern stands for: one and the fraction, moved by the exponent, or
the fraction alone at the least exponent. -/
def value? (x : Binary64) : Option ℚ :=
  if x.exponentField = 2047 then none
  else if x.exponentField = 0 then some (x.sign * (x.fraction / 2 ^ 52) * 2 ^ (-1022 : ℤ))
  else some (x.sign * (1 + x.fraction / 2 ^ 52) * 2 ^ ((x.exponentField : ℤ) - 1023))

theorem isFinite_iff : x.isFinite = true ↔ x.exponentField ≠ 2047 := by
  have hlt : x.exponentField < 2048 := Nat.mod_lt _ (by decide)
  rw [isFinite, decide_eq_true_eq]
  omega

theorem value?_of_not_isFinite (h : x.isFinite = false) : x.value? = none := by
  have hfield : x.exponentField = 2047 := by
    by_contra hne
    rw [isFinite_iff.mpr hne] at h
    cases h
  rw [value?, if_pos hfield]

/-- A power of two whose exponent is a difference. -/
theorem two_zpow_sub (a b : Nat) : (2 : ℚ) ^ ((a : ℤ) - b) = 2 ^ a / 2 ^ b := by
  rw [zpow_sub₀ two_ne_zero, zpow_natCast, zpow_natCast]

/-- The value of a finite number is its magnitude in units of the smallest number. -/
theorem value?_of_isFinite (h : x.isFinite = true) :
    x.value? = some (x.sign * ((x.magnitude : ℚ) / (unitsPerOne : ℚ))) := by
  have hfield : x.exponentField ≠ 2047 := isFinite_iff.mp h
  -- The exponent of the unit stays a variable, so that its power is not evaluated.
  obtain ⟨e, he, hunit⟩ := unitsPerOne_eq_pow
  have hunits : (unitsPerOne : ℚ) = 2 ^ e := by
    rw [hunit, Nat.pow_eq]
    push_cast
    rfl
  rw [value?, if_neg hfield, hunits, magnitude, significand, scale]
  by_cases hzero : x.exponentField = 0
  · have hexp : (-1022 : ℤ) = (52 : ℕ) - (e : ℕ) := by omega
    rw [if_pos hzero, if_pos hzero, hzero, hexp, two_zpow_sub]
    clear he hunit
    simp only [Nat.pow_eq, Option.some.injEq]
    push_cast
    field_simp
  · have hexp : (x.exponentField : ℤ) - 1023 = (x.exponentField - 1 + 52 : ℕ) - (e : ℕ) := by
      omega
    rw [if_neg hzero, if_neg hzero, hexp, two_zpow_sub, pow_add]
    clear he hunit hexp
    simp only [Nat.pow_eq, Option.some.injEq]
    push_cast
    field_simp
    ring

theorem unitsPerOne_ne_zero : (unitsPerOne : ℚ) ≠ 0 :=
  Nat.cast_ne_zero.mpr (Nat.ne_of_gt unitsPerOne_pos)

/-- A number with a sign is an integer when its absolute value is one. -/
theorem sign_mul_eq_iff {q : ℚ} {z : ℤ} :
    x.sign * q = z ↔ q = ((if x.isNegative then -z else z : ℤ) : ℚ) := by
  cases h : x.isNegative
  · simp [sign, h]
  · simp [sign, h, neg_eq_iff_eq_neg]

/-- A natural is a multiple when it is divided without rest. -/
theorem natCast_eq_mul_iff {m u : Nat} (hu : 0 < u) {w : ℤ} :
    (m : ℤ) = w * u ↔ m % u = 0 ∧ ((m / u : Nat) : ℤ) = w := by
  constructor
  · intro h
    have hmod : ((m % u : Nat) : ℤ) = 0 := by rw [Int.natCast_emod, h, Int.mul_emod_left]
    have hdiv : ((m / u : Nat) : ℤ) = w := by
      rw [Int.natCast_ediv, h]
      exact Int.mul_ediv_cancel w (Int.natCast_ne_zero.mpr (Nat.ne_of_gt hu))
    exact ⟨Int.ofNat_eq_zero.mp hmod, hdiv⟩
  · rintro ⟨hmod, rfl⟩
    exact_mod_cast (Nat.div_mul_cancel (Nat.dvd_of_mod_eq_zero hmod)).symm

/-- The integer that a finite number is, is its value. -/
theorem toInt?_eq_some_iff {z : ℤ} : x.toInt? = some z ↔ x.value? = some (z : ℚ) := by
  cases hfinite : x.isFinite with
  | false =>
    rw [value?_of_not_isFinite hfinite, toInt?, hfinite]
    simp
  | true =>
    have hvalue : x.value? = some (z : ℚ) ↔
        (x.magnitude : ℤ) = (if x.isNegative then -z else z) * (unitsPerOne : ℤ) := by
      rw [value?_of_isFinite hfinite, Option.some.injEq, sign_mul_eq_iff,
        div_eq_iff unitsPerOne_ne_zero]
      norm_cast
    rw [hvalue, natCast_eq_mul_iff unitsPerOne_pos, toInt?, hfinite]
    -- The units are made a variable, so that their number is not evaluated.
    generalize unitsPerOne = u
    cases x.isNegative <;> simp [neg_eq_iff_eq_neg]

/-- A natural of at most fifty-three bits, or the one right above them, is the value of the number
nearest to it. -/
theorem value?_ofNat (h : n ≤ Nat.pow 2 53) : (ofNat n).value? = some (n : ℚ) := by
  obtain ⟨hfinite, hsign, hmagnitude⟩ := magnitude_ofNat h
  rw [value?_of_isFinite hfinite, sign, hsign, hmagnitude, Nat.cast_mul,
    mul_div_cancel_right₀ _ unitsPerOne_ne_zero]
  simp

end Binary64

end ScriptWire
