import ScriptWire.Binary64.Basic

/-!
# Integers among the numbers

A finite number that is an integer is the number nearest to that integer, so that the integer
determines it, up to the sign of a zero.

## Main results

- `Binary64.ofNat_of_magnitude` — a number is found again from its magnitude
- `Binary64.ofInt_of_toInt?` — a number that is an integer is found again from the integer
-/

namespace ScriptWire

namespace Binary64

variable {x : Binary64} {n : Nat}

theorem fraction_lt (x : Binary64) : x.fraction < Nat.pow 2 52 :=
  Nat.mod_lt _ (by decide)

/-- The pattern of a number without a sign is made of its exponent and fraction. -/
theorem bits_eq_of_not_isNegative (h : x.isNegative = false) :
    x.bits.toNat = x.exponentField * Nat.pow 2 52 + x.fraction := by
  have hsign : x.bits.toNat < Nat.pow 2 63 := by
    simpa [isNegative] using h
  have hfield : x.exponentField = x.bits.toNat / Nat.pow 2 52 :=
    Nat.mod_eq_of_lt (by rw [Nat.div_lt_iff_lt_mul (by decide)]; exact hsign)
  rw [hfield, fraction, Nat.mul_comm]
  exact (Nat.div_add_mod _ _).symm

theorem roundDiv_of_exact (m : Nat) {d : Nat} (hd : 0 < d) : roundDiv (m * d) d = m := by
  simp [roundDiv, Nat.mul_div_cancel m hd, Nat.ne_of_gt hd]

/-- The binary logarithm of a significand with its scale. -/
theorem log2_significand {m k : Nat} (hlow : Nat.pow 2 52 ≤ m) (hhigh : m < Nat.pow 2 53) :
    Nat.log2 (m * Nat.pow 2 k) = k + 52 := by
  have hpos : 0 < Nat.pow 2 k := Nat.pow_pos (by decide)
  have hm : 0 < m := Nat.lt_of_lt_of_le (by decide) hlow
  have hne : m * Nat.pow 2 k ≠ 0 := Nat.ne_of_gt (Nat.mul_pos hm hpos)
  simp only [Nat.pow_eq] at hlow hhigh hpos hne ⊢
  rw [Nat.log2_eq_iff hne, Nat.add_assoc, Nat.pow_add, Nat.pow_add, Nat.mul_comm m]
  exact ⟨Nat.mul_le_mul_left _ hlow, Nat.mul_lt_mul_of_pos_left hhigh hpos⟩

/-- The scale and the rounded units from which `nearest` makes a pattern. -/
theorem ofNat_eq {m k : Nat} (hunits : n * unitsPerOne = m * Nat.pow 2 k)
    (hscale : Nat.log2 (m * Nat.pow 2 k) - 52 = k) :
    ofNat n = ofBits (min (k * Nat.pow 2 52 + m) (2047 * Nat.pow 2 52)) := by
  have hpos : 0 < Nat.pow 2 k := Nat.pow_pos (by decide)
  simp only [ofNat, nearest, Nat.div_one, Nat.one_mul, hunits, hscale,
    roundDiv_of_exact m hpos]

/-- The scale of a number shows in the logarithm of its magnitude. -/
theorem log2_magnitude (x : Binary64) : Nat.log2 x.magnitude - 52 = x.scale := by
  have hfraction := x.fraction_lt
  by_cases hzero : x.exponentField = 0
  · -- A subnormal number is below the first power of two that has a scale.
    have hmagnitude : x.magnitude = x.fraction := by
      rw [magnitude, significand, scale, if_pos hzero, hzero]
      exact Nat.mul_one _
    have hlog : Nat.log2 x.fraction < 52 := by
      by_cases hne : x.fraction = 0
      · rw [hne, Nat.log2_zero]
        decide
      · exact (Nat.log2_lt hne).mpr hfraction
    rw [hmagnitude, scale, hzero]
    omega
  · have hsignificand : x.significand = x.fraction + Nat.pow 2 52 := if_neg hzero
    rw [magnitude, log2_significand, Nat.add_sub_cancel]
    · rw [hsignificand]
      exact Nat.le_add_left _ _
    · rw [hsignificand]
      exact Nat.add_lt_add_right hfraction (Nat.pow 2 52)

theorem scale_add_significand (x : Binary64) :
    x.scale * Nat.pow 2 52 + x.significand = x.exponentField * Nat.pow 2 52 + x.fraction := by
  rw [scale, significand]
  generalize Nat.pow 2 52 = unit
  cases x.exponentField with
  | zero => simp
  | succ e =>
    rw [if_neg (Nat.succ_ne_zero e), Nat.succ_mul, Nat.add_sub_cancel]
    omega

/-- A number without a sign is found again from its magnitude. -/
theorem ofNat_of_magnitude (hf : x.isFinite = true) (hs : x.isNegative = false)
    (h : n * unitsPerOne = x.magnitude) : ofNat n = x := by
  have hfield : x.exponentField < 2047 := by simpa [isFinite] using hf
  have hbits := bits_eq_of_not_isNegative hs
  have hbound : x.bits.toNat ≤ 2047 * Nat.pow 2 52 := by
    rw [hbits]
    calc x.exponentField * Nat.pow 2 52 + x.fraction
        ≤ x.exponentField * Nat.pow 2 52 + Nat.pow 2 52 :=
          Nat.add_le_add_left (Nat.le_of_lt x.fraction_lt) _
      _ = (x.exponentField + 1) * Nat.pow 2 52 := (Nat.succ_mul _ _).symm
      _ ≤ 2047 * Nat.pow 2 52 := Nat.mul_le_mul_right _ hfield
  rw [ofNat_eq h x.log2_magnitude, scale_add_significand, ← hbits, Nat.min_eq_left hbound, ofBits]
  exact congrArg Binary64.mk (UInt64.ofNat_toNat)

section Negate

theorem toNat_bits_negate (x : Binary64) :
    x.negate.bits.toNat = (x.bits.toNat + Nat.pow 2 63) % Nat.pow 2 64 := by
  rw [negate, ofBits]
  exact UInt64.toNat_ofNat_of_lt (Nat.mod_lt _ (by decide))

theorem negate_negate (x : Binary64) : x.negate.negate = x := by
  have hlt := x.bits.toNat_lt
  refine congrArg Binary64.mk (UInt64.toNat_inj.mp ?_)
  change x.negate.negate.bits.toNat = x.bits.toNat
  rw [toNat_bits_negate, toNat_bits_negate]
  simp only [Nat.pow_eq, Nat.reducePow] at hlt ⊢
  omega

theorem isNegative_negate (x : Binary64) : x.negate.isNegative = !x.isNegative := by
  have hlt := x.bits.toNat_lt
  rw [isNegative, isNegative, toNat_bits_negate, ← decide_not]
  simp only [Nat.pow_eq, Nat.reducePow] at hlt ⊢
  refine decide_eq_decide.mpr ?_
  omega

theorem exponentField_negate (x : Binary64) : x.negate.exponentField = x.exponentField := by
  rw [exponentField, exponentField, toNat_bits_negate]
  simp only [Nat.pow_eq, Nat.reducePow]
  omega

theorem fraction_negate (x : Binary64) : x.negate.fraction = x.fraction := by
  rw [fraction, fraction, toNat_bits_negate]
  simp only [Nat.pow_eq, Nat.reducePow]
  omega

theorem isFinite_negate (x : Binary64) : x.negate.isFinite = x.isFinite := by
  rw [isFinite, isFinite, exponentField_negate]

theorem magnitude_negate (x : Binary64) : x.negate.magnitude = x.magnitude := by
  rw [magnitude, magnitude, significand, significand, scale, scale, exponentField_negate,
    fraction_negate]

end Negate

theorem isZero_of_magnitude_eq_zero (h : x.magnitude = 0) : x.isZero = true := by
  have hsignificand : x.significand = 0 :=
    (Nat.mul_eq_zero.mp h).resolve_right (Nat.ne_of_gt (Nat.pow_pos (by decide)))
  have hzero : x.exponentField = 0 ∧ x.fraction = 0 := by
    rw [significand] at hsignificand
    split at hsignificand
    · exact ⟨‹_›, hsignificand⟩
    · simp only [Nat.pow_eq, Nat.reducePow] at hsignificand
      omega
  obtain ⟨hfield, hfraction⟩ := hzero
  rw [exponentField] at hfield
  rw [fraction] at hfraction
  rw [isZero, beq_iff_eq]
  simp only [Nat.pow_eq, Nat.reducePow] at hfield hfraction ⊢
  omega

/-- A number that is an integer, other than the negative zero, is the number nearest to the
integer. -/
theorem ofInt_of_toInt? {z : Int} (h : x.toInt? = some z) (hz : x.isZero = true → x = zero) :
    ofInt z = x := by
  rw [toInt?] at h
  split at h
  next hwhole =>
    rw [Bool.and_eq_true, beq_iff_eq] at hwhole
    have hunits : x.magnitude / unitsPerOne * unitsPerOne = x.magnitude :=
      Nat.div_mul_cancel (Nat.dvd_of_mod_eq_zero hwhole.2)
    cases hsign : x.isNegative with
    | false =>
      rw [hsign] at h
      obtain rfl : (x.magnitude / unitsPerOne : Nat) = z := Option.some.inj h
      have hofNat := ofNat_of_magnitude hwhole.1 hsign hunits
      rw [ofInt, Int.natAbs_natCast, hofNat, withSign, if_neg]
      rw [decide_eq_true_eq, Int.not_lt]
      exact Int.natCast_nonneg _
    | true =>
      rw [hsign] at h
      obtain rfl : -((x.magnitude / unitsPerOne : Nat) : Int) = z := Option.some.inj h
      -- The negative zero is excluded, so the number differs from its opposite.
      have hpos : 0 < x.magnitude / unitsPerOne := by
        refine Nat.pos_of_ne_zero fun hzero => ?_
        have hmagnitude : x.magnitude = 0 := by rw [← hunits, hzero, Nat.zero_mul]
        rw [hz (isZero_of_magnitude_eq_zero hmagnitude)] at hsign
        cases hsign
      have hofNat : ofNat (x.magnitude / unitsPerOne) = x.negate := by
        refine ofNat_of_magnitude ?_ ?_ ?_
        · rw [isFinite_negate, hwhole.1]
        · rw [isNegative_negate, hsign, Bool.not_true]
        · rw [magnitude_negate, hunits]
      rw [ofInt, Int.natAbs_neg, Int.natAbs_natCast, hofNat, withSign, if_pos, negate_negate]
      exact decide_eq_true (Int.neg_neg_of_pos (Int.natCast_pos.mpr hpos))
  next => cases h

theorem toInt?_of_isZero (h : x.isZero = true) : x.toInt? = some 0 := by
  have hbits : x.bits.toNat % Nat.pow 2 63 = 0 := by simpa [isZero] using h
  have hfield : x.exponentField = 0 := by
    rw [exponentField]
    simp only [Nat.pow_eq, Nat.reducePow] at hbits ⊢
    omega
  have hfraction : x.fraction = 0 := by
    rw [fraction]
    simp only [Nat.pow_eq, Nat.reducePow] at hbits ⊢
    omega
  have hmagnitude : x.magnitude = 0 := by
    rw [magnitude, significand, if_pos hfield, hfraction, Nat.zero_mul]
  have hfinite : x.isFinite = true := by
    rw [isFinite, hfield]
    rfl
  rw [toInt?, hfinite, hmagnitude]
  simp

end Binary64

end ScriptWire
