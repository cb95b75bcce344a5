import ScriptWire.Proofs.Binary64.Finite

/-!
# Integers that are numbers

An integer of at most fifty-three bits, and the one right above them, is a number of double
precision itself, so that nothing is lost when it is rounded.

## Main results

- `Binary64.toInt?_ofInt` — an integer in this range is found again from its number
-/

namespace ScriptWire

namespace Binary64

variable {n : Nat}

/-- An integer below the top of the range, shifted up to the size of a significand. -/
theorem significand_bounds {l r : Nat} (hlow : Nat.pow 2 l ≤ n) (hhigh : n < Nat.pow 2 (l + 1))
    (hsum : l + r = 52) :
    Nat.pow 2 52 ≤ n * Nat.pow 2 r ∧ n * Nat.pow 2 r < Nat.pow 2 53 := by
  have hpow (a b : Nat) : Nat.pow 2 (a + b) = Nat.pow 2 a * Nat.pow 2 b := Nat.pow_add 2 a b
  have hshift : 0 < Nat.pow 2 r := Nat.pow_pos (by decide)
  constructor
  · calc Nat.pow 2 52 = Nat.pow 2 l * Nat.pow 2 r := by rw [← hpow, hsum]
      _ ≤ n * Nat.pow 2 r := Nat.mul_le_mul_right _ hlow
  · calc n * Nat.pow 2 r < Nat.pow 2 (l + 1) * Nat.pow 2 r :=
          Nat.mul_lt_mul_of_pos_right hhigh hshift
      _ = Nat.pow 2 53 := by rw [← hpow, Nat.add_right_comm, hsum]

/-- The significand and the scale of an integer. -/
theorem exists_significand (hpos : 0 < n) (hn : n ≤ Nat.pow 2 53) :
    ∃ m k, Nat.pow 2 52 ≤ m ∧ m < Nat.pow 2 53 ∧ k ≤ 1075 ∧
      n * unitsPerOne = m * Nat.pow 2 k := by
  by_cases htop : n = Nat.pow 2 53
  · obtain ⟨e, he, hunit⟩ := unitsPerOne_eq_pow
    refine ⟨Nat.pow 2 52, e + 1, Nat.le_refl _, by decide, Nat.le_of_eq (congrArg _ he), ?_⟩
    calc n * unitsPerOne = Nat.pow 2 52 * 2 * Nat.pow 2 e := by rw [htop, hunit]
      _ = Nat.pow 2 52 * (Nat.pow 2 e * 2) := by rw [Nat.mul_assoc, Nat.mul_comm 2]
  · have hne : n ≠ 0 := Nat.ne_of_gt hpos
    have hlog : Nat.log2 n < 53 := (Nat.log2_lt hne).mpr (Nat.lt_of_le_of_ne hn htop)
    obtain ⟨r, hr⟩ : ∃ r, Nat.log2 n + r = 52 := ⟨52 - Nat.log2 n, by omega⟩
    obtain ⟨hlow, hhigh⟩ := significand_bounds (Nat.log2_self_le hne) Nat.lt_log2_self hr
    have hscale : Nat.log2 n + 1022 ≤ 1075 := by omega
    have hsum : r + (Nat.log2 n + 1022) = 1074 := by omega
    refine ⟨n * Nat.pow 2 r, Nat.log2 n + 1022, hlow, hhigh, hscale, ?_⟩
    -- The unit is opened with its exponent kept as a variable.
    obtain ⟨e, he, hunit⟩ := unitsPerOne_eq_pow
    rw [hunit, he, ← hsum, Nat.mul_assoc]
    exact congrArg (n * ·) (Nat.pow_add 2 r (Nat.log2 n + 1022))

/-- What the pattern of a significand and a scale stands for. -/
theorem magnitude_ofBits {m k : Nat} (hlow : Nat.pow 2 52 ≤ m) (hhigh : m < Nat.pow 2 53)
    (hk : k ≤ 1075) :
    (ofBits (k * Nat.pow 2 52 + m)).isFinite = true ∧
      (ofBits (k * Nat.pow 2 52 + m)).isNegative = false ∧
      (ofBits (k * Nat.pow 2 52 + m)).magnitude = m * Nat.pow 2 k := by
  have hbits : (ofBits (k * Nat.pow 2 52 + m)).bits.toNat = k * Nat.pow 2 52 + m := by
    refine toNat_bits_ofBits ?_
    simp only [Nat.pow_eq, Nat.reducePow] at hhigh ⊢
    omega
  have hfield : (ofBits (k * Nat.pow 2 52 + m)).exponentField = k + 1 := by
    rw [exponentField, hbits]
    simp only [Nat.pow_eq, Nat.reducePow] at hlow hhigh ⊢
    omega
  have hfraction : (ofBits (k * Nat.pow 2 52 + m)).fraction = m - Nat.pow 2 52 := by
    rw [fraction, hbits]
    simp only [Nat.pow_eq, Nat.reducePow] at hlow hhigh ⊢
    omega
  refine ⟨?_, ?_, ?_⟩
  · rw [isFinite, hfield]
    exact decide_eq_true (by omega)
  · rw [isNegative, hbits]
    simp only [Nat.pow_eq, Nat.reducePow] at hhigh ⊢
    exact decide_eq_false (by omega)
  · rw [magnitude, significand, scale, hfield, if_neg (Nat.succ_ne_zero k), hfraction,
      Nat.add_sub_cancel, Nat.sub_add_cancel hlow]

theorem magnitude_ofNat (hn : n ≤ Nat.pow 2 53) :
    (ofNat n).isFinite = true ∧ (ofNat n).isNegative = false ∧
      (ofNat n).magnitude = n * unitsPerOne := by
  by_cases hzero : n = 0
  · subst hzero
    decide +kernel
  · obtain ⟨m, k, hlow, hhigh, hk, hunits⟩ := exists_significand (Nat.pos_of_ne_zero hzero) hn
    have hscale : Nat.log2 (m * Nat.pow 2 k) - 52 = k := by
      rw [log2_significand hlow hhigh, Nat.add_sub_cancel]
    have hmin : min (k * Nat.pow 2 52 + m) (2047 * Nat.pow 2 52) = k * Nat.pow 2 52 + m := by
      refine Nat.min_eq_left ?_
      simp only [Nat.pow_eq, Nat.reducePow] at hhigh ⊢
      omega
    rw [ofNat_eq hunits hscale, hmin, hunits]
    exact magnitude_ofBits hlow hhigh hk

/-- An integer of at most fifty-three bits beside its sign, or the one right above them, is found
again from the number nearest to it. -/
theorem toInt?_ofInt {z : Int} (h : z.natAbs ≤ Nat.pow 2 53) : (ofInt z).toInt? = some z := by
  obtain ⟨hfinite, hsign, hmagnitude⟩ := magnitude_ofNat h
  have hmod : z.natAbs * unitsPerOne % unitsPerOne = 0 := Nat.mul_mod_left _ _
  have hdiv : z.natAbs * unitsPerOne / unitsPerOne = z.natAbs :=
    Nat.mul_div_cancel _ unitsPerOne_pos
  by_cases hz : z < 0
  · rw [ofInt, withSign, if_pos (decide_eq_true hz), toInt?, isFinite_negate, magnitude_negate,
      isNegative_negate, hfinite, hsign, hmagnitude, hmod, hdiv]
    show some (-(z.natAbs : Int)) = some z
    rw [Int.ofNat_natAbs_of_nonpos (Int.le_of_lt hz), Int.neg_neg]
  · rw [ofInt, withSign, if_neg (by simpa using hz), toInt?, hfinite, hsign, hmagnitude, hmod,
      hdiv]
    show some (z.natAbs : Int) = some z
    rw [Int.natAbs_of_nonneg (Int.not_lt.mp hz)]

end Binary64

end ScriptWire
