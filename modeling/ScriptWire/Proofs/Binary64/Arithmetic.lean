import ScriptWire.Binary64.Reading
import ScriptWire.Proofs.Binary64.Exact
import Mathlib.Data.Nat.Digits.Lemmas

/-!
# Exact arithmetic

Products and sums of naturals are not rounded as long as they have at most fifty-three bits, and
neither is a decimal text that stands for such a natural.

## Main results

- `Binary64.nearest_mul_right` — the number nearest to a quotient depends on the quotient only
- `Binary64.addNat_mul_ofNat` — a digit is taken into a natural without rounding
- `Binary64.ofDecimal_zero` — a natural is read from its decimal digits without rounding
-/

namespace ScriptWire

namespace Binary64

variable {m n radix d : Nat}

theorem roundDiv_mul_right (num den : Nat) {c : Nat} (hc : 0 < c) :
    roundDiv (num * c) (den * c) = roundDiv num den := by
  have hquotient : num * c / (den * c) = num / den := Nat.mul_div_mul_right _ _ hc
  have hrest : num * c % (den * c) = num % den * c := Nat.mul_mod_mul_right c num den
  have hdouble : 2 * (num % den * c) = 2 * (num % den) * c := (Nat.mul_assoc _ _ _).symm
  have hlt : den * c < 2 * (num % den) * c ↔ den < 2 * (num % den) :=
    Nat.mul_lt_mul_right hc
  have heq : den * c = 2 * (num % den) * c ↔ den = 2 * (num % den) :=
    Nat.mul_left_inj (Nat.ne_of_gt hc)
  simp only [roundDiv, hquotient, hrest, hdouble, hlt, Bool.beq_eq_decide_eq, heq]

/-- A factor common to both sides of a quotient does not show in the number nearest to it. -/
theorem nearest_mul_right (num den : Nat) {c : Nat} (hc : 0 < c) :
    nearest (num * c) (den * c) = nearest num den := by
  have hunits : num * c * unitsPerOne = num * unitsPerOne * c := Nat.mul_right_comm _ _ _
  have hscaled (k : Nat) : den * c * Nat.pow 2 k = den * Nat.pow 2 k * c := Nat.mul_right_comm _ _ _
  simp only [nearest, hunits, hscaled, Nat.mul_div_mul_right _ _ hc, roundDiv_mul_right _ _ hc]

/-- The product of two naturals is not rounded, apart from the last step. -/
theorem mul_ofNat (hm : m ≤ Nat.pow 2 53) (hn : n ≤ Nat.pow 2 53) :
    (ofNat m).mul (ofNat n) = ofNat (m * n) := by
  obtain ⟨hfinite, -, hleft⟩ := magnitude_ofNat hm
  obtain ⟨-, -, hright⟩ := magnitude_ofNat hn
  have hproduct : m * unitsPerOne * (n * unitsPerOne) =
      m * n * (unitsPerOne * unitsPerOne) := Nat.mul_mul_mul_comm _ _ _ _
  have hunit : 0 < unitsPerOne * unitsPerOne := Nat.mul_pos unitsPerOne_pos unitsPerOne_pos
  rw [mul, if_pos hfinite, hleft, hright, hproduct, ofNat, ← nearest_mul_right _ 1 hunit,
    Nat.one_mul]

theorem addNat_ofNat (hm : m ≤ Nat.pow 2 53) (n : Nat) :
    (ofNat m).addNat n = ofNat (m + n) := by
  obtain ⟨hfinite, -, hmagnitude⟩ := magnitude_ofNat hm
  rw [addNat, if_pos hfinite, hmagnitude, ← Nat.add_mul, ofNat,
    ← nearest_mul_right _ 1 unitsPerOne_pos, Nat.one_mul]

/-- A digit is taken into a natural that has room for it. -/
theorem addNat_mul_ofNat (hradix : 0 < radix) (h : radix * m + d ≤ Nat.pow 2 53)
    (hr : radix ≤ Nat.pow 2 53) :
    ((ofNat m).mul (ofNat radix)).addNat d = ofNat (radix * m + d) := by
  have hproduct : m * radix ≤ Nat.pow 2 53 := by
    rw [Nat.mul_comm]
    omega
  have hm : m ≤ Nat.pow 2 53 := Nat.le_trans (Nat.le_mul_of_pos_right m hradix) hproduct
  rw [mul_ofNat hm hr, addNat_ofNat hproduct, Nat.mul_comm]

theorem ofNat_zero : ofNat 0 = zero := by
  decide +kernel

/-- The decimal digits of a natural of at most fifty-three bits. -/
theorem length_toDigits_le (hn : n ≤ Nat.pow 2 53) : (Nat.toDigits 10 n).length ≤ 16 := by
  rw [Nat.length_toDigits_le_iff (by decide) (by decide)]
  exact Nat.lt_of_le_of_lt hn (by decide)

/-- Digits without an exponent are a natural, which is rounded as such. -/
theorem ofDecimal_zero (hn : n ≤ Nat.pow 2 53) : ofDecimal n 0 = ofNat n := by
  have hlength := length_toDigits_le hn
  by_cases hzero : n = 0
  · rw [hzero, ofNat_zero]
    rfl
  · have hhigh : ¬ 310 < ((Nat.toDigits 10 n).length : Int) + 0 := by omega
    have hlow : ¬ ((Nat.toDigits 10 n).length : Int) + 0 < -326 := by omega
    have hpow : n * Nat.pow 10 (0 : Int).toNat = n := Nat.mul_one n
    simp only [ofDecimal, hzero, hhigh, hlow, if_false, Int.le_refl, if_true, hpow, ofNat]

end Binary64

end ScriptWire
