import ScriptWire.Proofs.Binary64.Integer

/-!
# Finite results

A number of units with fewer than `2098` binary digits is rounded to a finite number.

## Main results

- `Binary64.isFinite_nearest`, `Binary64.isFinite_ofNat` — quotients and naturals that have a finite
  number nearest to them
- `Binary64.isFinite_div` — a finite number divided by two or more is finite
- `Binary64.le_magnitude_ofNat` — what is two or more stays so when it is rounded
-/

namespace ScriptWire

namespace Binary64

variable {x y : Binary64} {n num den : Nat}

section Logarithm

theorem log2_mono {a b : Nat} (h : a ≤ b) : Nat.log2 a ≤ Nat.log2 b := by
  by_cases ha : a = 0
  · rw [ha, Nat.log2_zero]
    exact Nat.zero_le _
  · have hb : b ≠ 0 := by omega
    exact (Nat.le_log2 hb).mpr (Nat.le_trans (Nat.log2_self_le ha) h)

theorem log2_div_two (n : Nat) : Nat.log2 (n / 2) = Nat.log2 n - 1 := by
  rw [Nat.log2_def n]
  split
  · rw [Nat.add_sub_cancel]
  · have hsmall : n / 2 = 0 := by omega
    rw [hsmall, Nat.log2_zero]

theorem log2_mul_pow (hn : n ≠ 0) (b : Nat) : Nat.log2 (n * Nat.pow 2 b) = Nat.log2 n + b := by
  have hpos : 0 < Nat.pow 2 b := Nat.pow_pos (by decide)
  have hne : n * Nat.pow 2 b ≠ 0 := Nat.ne_of_gt (Nat.mul_pos (Nat.pos_of_ne_zero hn) hpos)
  rw [Nat.log2_eq_iff hne, Nat.add_right_comm, Nat.pow_add, Nat.pow_add]
  exact ⟨Nat.mul_le_mul_right _ (Nat.log2_self_le hn),
    Nat.mul_lt_mul_of_pos_right Nat.lt_log2_self hpos⟩

/-- The exponent of the unit is kept as a variable, so that the power is not evaluated. -/
theorem unitsPerOne_eq_pow : ∃ e, e = 1074 ∧ unitsPerOne = Nat.pow 2 e :=
  ⟨1074, rfl, rfl⟩

theorem unitsPerOne_pos : 0 < unitsPerOne := by
  obtain ⟨e, -, hunit⟩ := unitsPerOne_eq_pow
  rw [hunit]
  exact Nat.pow_pos (by decide)

theorem log2_mul_unitsPerOne (hn : n ≠ 0) : Nat.log2 (n * unitsPerOne) = Nat.log2 n + 1074 := by
  obtain ⟨e, he, hunit⟩ := unitsPerOne_eq_pow
  rw [hunit, log2_mul_pow hn, he]

end Logarithm

theorem roundDiv_le (num den : Nat) : roundDiv num den ≤ num / den + 1 := by
  simp only [roundDiv]
  split
  · exact Nat.le_refl _
  · exact Nat.le_succ _

theorem le_roundDiv (num den : Nat) : num / den ≤ roundDiv num den := by
  simp only [roundDiv]
  split
  · exact Nat.le_succ _
  · exact Nat.le_refl _

theorem toNat_bits_ofBits (h : n ≤ 2047 * Nat.pow 2 52) : (ofBits n).bits.toNat = n :=
  UInt64.toNat_ofNat_of_lt (Nat.lt_of_le_of_lt h (by decide))

theorem exponentField_ofBits (h : n ≤ 2047 * Nat.pow 2 52) :
    (ofBits n).exponentField = n / Nat.pow 2 52 := by
  rw [exponentField, toNat_bits_ofBits h]
  refine Nat.mod_eq_of_lt ?_
  rw [Nat.div_lt_iff_lt_mul (by decide)]
  exact Nat.lt_of_le_of_lt h (by decide)

/-- The pattern of the number nearest to a quotient, and the significand that is rounded. -/
theorem nearest_eq (num den : Nat) :
    ∃ scale rounded, scale = Nat.log2 (num * unitsPerOne / den) - 52 ∧
      num * unitsPerOne / den / Nat.pow 2 scale ≤ rounded ∧
      rounded ≤ num * unitsPerOne / den / Nat.pow 2 scale + 1 ∧
      nearest num den = ofBits (min (scale * Nat.pow 2 52 + rounded) (2047 * Nat.pow 2 52)) := by
  refine ⟨_, roundDiv (num * unitsPerOne)
    (den * Nat.pow 2 (Nat.log2 (num * unitsPerOne / den) - 52)), rfl, ?_, ?_, rfl⟩
  · rw [Nat.div_div_eq_div_mul]
    exact le_roundDiv _ _
  · rw [Nat.div_div_eq_div_mul]
    exact roundDiv_le _ _

/-- The number nearest to a quotient is finite if the quotient is not too large. -/
theorem isFinite_nearest (h : Nat.log2 (num * unitsPerOne / den) < 2097) :
    (nearest num den).isFinite = true := by
  obtain ⟨scale, rounded, hscale, -, hrounded, hnearest⟩ := nearest_eq num den
  generalize num * unitsPerOne / den = quotient at h hscale hrounded
  -- Fifty-three bits are left, and rounding up can carry into the exponent once.
  have hsignificand : quotient / Nat.pow 2 scale < Nat.pow 2 53 := by
    simp only [Nat.pow_eq]
    rw [Nat.div_lt_iff_lt_mul (Nat.two_pow_pos _), ← Nat.pow_add]
    exact Nat.lt_of_lt_of_le Nat.lt_log2_self (Nat.pow_le_pow_right (by decide) (by omega))
  have hfield : scale * Nat.pow 2 52 + rounded < 2047 * Nat.pow 2 52 := by
    simp only [Nat.pow_eq, Nat.reducePow] at hsignificand hrounded ⊢
    omega
  rw [hnearest, Nat.min_eq_left (Nat.le_of_lt hfield), isFinite, exponentField_ofBits
    (Nat.le_of_lt hfield), decide_eq_true_eq, Nat.div_lt_iff_lt_mul (by decide)]
  exact hfield

theorem isFinite_ofNat (h : n < Nat.pow 2 64) : (ofNat n).isFinite = true := by
  refine isFinite_nearest ?_
  rw [Nat.div_one]
  by_cases hn : n = 0
  · rw [hn, Nat.zero_mul, Nat.log2_zero]
    decide
  · have hlog : Nat.log2 n < 64 := (Nat.log2_lt hn).mpr h
    rw [log2_mul_unitsPerOne hn]
    omega

/-- The magnitude of a number shows in its exponent. -/
theorem le_magnitude (h : x.exponentField ≠ 0) :
    Nat.pow 2 (52 + (x.exponentField - 1)) ≤ x.magnitude := by
  rw [magnitude, significand, if_neg h, scale]
  simp only [Nat.pow_eq]
  rw [Nat.pow_add]
  exact Nat.mul_le_mul_right _ (Nat.le_add_left _ _)

/-- A natural that is two or more stays so when it is rounded. -/
theorem le_magnitude_ofNat (h : 2 ≤ n) : 2 * unitsPerOne ≤ (ofNat n).magnitude := by
  obtain ⟨scale, rounded, hscale, hrounded, -, hnearest⟩ := nearest_eq n 1
  have hn : n ≠ 0 := by omega
  have hlog : 1 ≤ Nat.log2 n := log2_mono h
  rw [Nat.div_one, log2_mul_unitsPerOne hn] at hscale
  rw [Nat.div_one] at hrounded
  have hsignificand : Nat.pow 2 52 ≤ rounded := by
    refine Nat.le_trans ?_ hrounded
    have hunits := Nat.mul_pos (Nat.pos_of_ne_zero hn) unitsPerOne_pos
    have hlow := Nat.log2_self_le (Nat.ne_of_gt hunits)
    rw [log2_mul_unitsPerOne hn] at hlow
    have hsplit : Nat.log2 n + 1074 = 52 + scale := by omega
    rw [hsplit, Nat.pow_add] at hlow
    exact (Nat.le_div_iff_mul_le (Nat.pow_pos (by decide))).mpr hlow
  have hfield : 1024 ≤ (ofNat n).exponentField := by
    rw [ofNat, hnearest, exponentField_ofBits (Nat.min_le_right _ _),
      Nat.le_div_iff_mul_le (by decide)]
    simp only [Nat.pow_eq, Nat.reducePow] at hsignificand ⊢
    omega
  obtain ⟨e, he, hunit⟩ := unitsPerOne_eq_pow
  calc 2 * unitsPerOne = Nat.pow 2 (e + 1) := by
        rw [hunit, Nat.mul_comm]
        rfl
    _ ≤ Nat.pow 2 (52 + ((ofNat n).exponentField - 1)) :=
        Nat.pow_le_pow_right (by decide) (by omega)
    _ ≤ (ofNat n).magnitude := le_magnitude (by omega)

theorem isFinite_div (hx : x.isFinite = true) (hy : 2 * unitsPerOne ≤ y.magnitude) :
    (x.div y).isFinite = true := by
  rw [div, if_pos hx]
  refine isFinite_nearest ?_
  have hfield : x.exponentField < 2047 := of_decide_eq_true hx
  have hlog := x.log2_magnitude
  have hquotient : x.magnitude * unitsPerOne / y.magnitude ≤ x.magnitude / 2 := by
    calc x.magnitude * unitsPerOne / y.magnitude
        ≤ x.magnitude * unitsPerOne / (2 * unitsPerOne) :=
          Nat.div_le_div_left hy (Nat.mul_pos (by decide) unitsPerOne_pos)
      _ = x.magnitude / 2 := Nat.mul_div_mul_right _ _ unitsPerOne_pos
  have hmono := log2_mono hquotient
  rw [log2_div_two] at hmono
  rw [scale] at hlog
  omega

theorem isFinite_withSign (negative : Bool) (x : Binary64) :
    (x.withSign negative).isFinite = x.isFinite := by
  cases negative with
  | false => rfl
  | true => exact isFinite_negate x

end Binary64

end ScriptWire
