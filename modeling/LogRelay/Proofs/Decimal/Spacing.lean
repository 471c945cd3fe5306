import LogRelay.Proofs.Decimal.Doubles

/-!
# Doubles and their seventeen digits

Doubles of different size differ by more than the 2^53rd part of the smaller one, while
seventeen digits miss a number by no more than half of its 10^16th part.  As 2^53 is less than
10^16, no two doubles have the same seventeen digits.
-/

namespace LogRelay.Decimal

variable {number left right : Binary64} {exact rounded : ℚ}

/-! ## Doubles on the grid of a scale -/

theorem absValue_eq (number : Binary64) :
    number.absValue = number.significand * 2 ^ ((number.scaleField : ℤ) - 1075) := by
  rw [← toRat_magnitude, toRat_magnitude_eq]

theorem absValue_nonneg (number : Binary64) : 0 ≤ number.absValue := by
  rw [absValue_eq]
  exact mul_nonneg (Nat.cast_nonneg _) (zpow_nonneg (by norm_num) _)

/-- A number is also a multiple of the unit of every smaller scale. -/
theorem exists_eq_scale {scale : ℕ} (hscale : scale ≤ number.scaleField) :
    ∃ count : ℕ, number.absValue = count * 2 ^ ((scale : ℤ) - 1075) := by
  obtain ⟨shift, hshift⟩ := Nat.exists_eq_add_of_le hscale
  refine ⟨number.significand * 2 ^ shift, ?_⟩
  have hexponent : ((scale + shift : ℕ) : ℤ) - 1075 = shift + (scale - 1075) := by
    push_cast
    ring
  rw [absValue_eq, hshift, hexponent, zpow_add₀ (by norm_num), zpow_natCast]
  push_cast
  ring

theorem le_significand (hscale : 1 < number.scaleField) : 2 ^ 52 ≤ number.significand := by
  have hfield : number.exponentField ≠ 0 := by
    intro hzero
    rw [Binary64.scaleField, hzero] at hscale
    contradiction
  rw [Binary64.significand, if_neg hfield]
  exact Nat.le_add_right _ _

/-- Numbers of a greater scale have the leading bit that keeps them above all others. -/
theorem absValue_lt_of_scaleField_lt (hscale : left.scaleField < right.scaleField) :
    left.absValue < right.absValue := by
  have hleft : (left.significand : ℚ) < 2 ^ 53 := by exact_mod_cast significand_lt left
  have hright : (2 ^ 52 : ℚ) ≤ right.significand := by
    have hone : 1 ≤ left.scaleField := Nat.le_max_right _ _
    have hleast : 2 ^ 52 ≤ right.significand := le_significand (by omega)
    exact_mod_cast hleast
  have hunit : (0 : ℚ) < 2 ^ ((left.scaleField : ℤ) - 1075) := zpow_pos (by norm_num) _
  have hdouble : (2 : ℚ) ^ ((left.scaleField : ℤ) - 1075) * 2 ≤
      2 ^ ((right.scaleField : ℤ) - 1075) := by
    rw [← zpow_add_one₀ (by norm_num)]
    exact zpow_le_zpow_right₀ (by norm_num) (by omega)
  rw [absValue_eq, absValue_eq]
  calc
    left.significand * (2 : ℚ) ^ ((left.scaleField : ℤ) - 1075) <
        2 ^ 53 * 2 ^ ((left.scaleField : ℤ) - 1075) := mul_lt_mul_of_pos_right hleft hunit
    _ = 2 ^ 52 * (2 ^ ((left.scaleField : ℤ) - 1075) * 2) := by ring
    _ ≤ right.significand * 2 ^ ((right.scaleField : ℤ) - 1075) :=
      mul_le_mul hright hdouble (by positivity) (Nat.cast_nonneg _)

theorem scaleField_le_of_absValue_le (hle : left.absValue ≤ right.absValue) :
    left.scaleField ≤ right.scaleField := by
  by_contra hscale
  exact absurd (absValue_lt_of_scaleField_lt (Nat.not_le.mp hscale)) (not_lt.mpr hle)

/-- The gap above a double is more than its 2^53rd part. -/
theorem absValue_lt_mul_gap (hlt : left.absValue < right.absValue) :
    left.absValue < 2 ^ 53 * (right.absValue - left.absValue) := by
  have hleft : (left.significand : ℚ) < 2 ^ 53 := by exact_mod_cast significand_lt left
  have hunit : (0 : ℚ) < 2 ^ ((left.scaleField : ℤ) - 1075) := zpow_pos (by norm_num) _
  obtain ⟨count, hcount⟩ := exists_eq_scale (scaleField_le_of_absValue_le hlt.le)
  rw [absValue_eq left] at hlt ⊢
  rw [hcount] at hlt ⊢
  generalize (2 : ℚ) ^ ((left.scaleField : ℤ) - 1075) = unit at *
  have hless : left.significand < count := by
    exact_mod_cast lt_of_mul_lt_mul_right hlt hunit.le
  have hstep : (1 : ℚ) ≤ count - left.significand := by
    have hsucc : (left.significand : ℚ) + 1 ≤ count := by exact_mod_cast hless
    linarith
  calc
    left.significand * unit < 2 ^ 53 * unit := mul_lt_mul_of_pos_right hleft hunit
    _ ≤ 2 ^ 53 * ((count - left.significand) * unit) :=
      mul_le_mul_of_nonneg_left (le_mul_of_one_le_left hunit.le hstep) (by norm_num)
    _ = 2 ^ 53 * (count * unit - left.significand * unit) := by ring

/-! ## Doubles by sign and size -/

theorem bits_eq (number : Binary64) :
    number.bits.toNat = (if number.isNegative then 2 ^ 63 else 0) +
      number.exponentField * 2 ^ 52 + number.fractionField := by
  have hbits := number.bits.toNat_lt
  simp only [Binary64.isNegative, Binary64.exponentField, Binary64.fractionField, Nat.pow_eq,
    decide_eq_true_eq]
  split <;> omega

/-- Sign and size are all there is to a double. -/
theorem eq_of_absValue_eq (hsign : left.isNegative = right.isNegative)
    (hvalue : left.absValue = right.absValue) : left = right := by
  have hscale : left.scaleField = right.scaleField :=
    Nat.le_antisymm (scaleField_le_of_absValue_le hvalue.le)
      (scaleField_le_of_absValue_le hvalue.ge)
  have hsignificand : left.significand = right.significand := by
    have hunit : (2 : ℚ) ^ ((left.scaleField : ℤ) - 1075) ≠ 0 := zpow_ne_zero _ (by norm_num)
    rw [absValue_eq, absValue_eq, ← hscale, mul_left_inj' hunit] at hvalue
    exact_mod_cast hvalue
  have hleft : left.fractionField < 2 ^ 52 := Nat.mod_lt _ (by decide)
  have hright : right.fractionField < 2 ^ 52 := Nat.mod_lt _ (by decide)
  have hfields : left.exponentField = right.exponentField ∧
      left.fractionField = right.fractionField := by
    simp only [Binary64.scaleField, Binary64.significand, Nat.pow_eq] at hscale hsignificand
    split at hsignificand <;> split at hsignificand <;> omega
  have hbits : left.bits.toNat = right.bits.toNat := by
    rw [bits_eq, bits_eq, hsign, hfields.1, hfields.2]
  cases left
  cases right
  exact congrArg Binary64.mk (UInt64.toNat_inj.mp hbits)

/-! ## Seventeen digits -/

/-- Seventeen digits miss a number by half of its 10^16th part at most. -/
theorem mul_abs_sub_le {digits : ℕ} (hdigits : 17 ≤ digits) (hpositive : 0 < exact)
    (hnearest : IsNearest exact (digitUnit exact digits) rounded) :
    2 * 10 ^ 16 * |exact - rounded| ≤ exact := by
  obtain ⟨-, -, hgap, -⟩ := hnearest
  have hunit : digitUnit exact digits * 10 ^ 16 ≤ exact := by
    calc
      digitUnit exact digits * 10 ^ 16 = 10 ^ (Int.log 10 exact + 1 - digits + 16) := by
        rw [digitUnit, zpow_add₀ (by norm_num)]
        norm_cast
      _ ≤ 10 ^ Int.log 10 exact := zpow_le_zpow_right₀ (by norm_num) (by omega)
      _ ≤ exact := (log_bounds hpositive).1
  linarith

theorem not_absValue_lt_of_isNearest {digits : ℕ} (hdigits : 17 ≤ digits)
    (hleft : IsNearest left.absValue (digitUnit left.absValue digits) rounded)
    (hright : IsNearest right.absValue (digitUnit right.absValue digits) rounded) :
    ¬ left.absValue < right.absValue := by
  intro hlt
  have hnonneg : 0 ≤ left.absValue := absValue_nonneg left
  have hmissed := mul_abs_sub_le hdigits (hnonneg.trans_lt hlt) hright
  rcases hnonneg.eq_or_lt with hzero | hpositive
  · -- Nothing but zero is rounded to zero.
    have hunit := digitUnit_pos left.absValue digits
    have hself : IsNearest left.absValue (digitUnit left.absValue digits) left.absValue :=
      isNearest_self hunit ⟨0, by rw [← hzero, Nat.cast_zero, zero_mul]⟩
    rw [hleft.unique hunit hself, ← hzero, sub_zero, abs_of_pos (hzero ▸ hlt)] at hmissed
    linarith
  · have hother := mul_abs_sub_le hdigits hpositive hleft
    have hgap := absValue_lt_mul_gap hlt
    have habove := le_abs_self (right.absValue - rounded)
    have hbelow := neg_abs_le (left.absValue - rounded)
    linarith

/-- Seventeen digits tell the sizes of doubles apart. -/
theorem absValue_eq_of_isNearest {digits : ℕ} (hdigits : 17 ≤ digits)
    (hleft : IsNearest left.absValue (digitUnit left.absValue digits) rounded)
    (hright : IsNearest right.absValue (digitUnit right.absValue digits) rounded) :
    left.absValue = right.absValue :=
  le_antisymm (not_lt.mp (not_absValue_lt_of_isNearest hdigits hright hleft))
    (not_lt.mp (not_absValue_lt_of_isNearest hdigits hleft hright))

end LogRelay.Decimal
