import LogRelay.Proofs.Checked.Decimal
import LogRelay.Proofs.Decimal.Rounding

/-!
# Doubles in decimal

A double is a whole number over a power of two, and so of as many decimal places.  With those
places, or with the digits that they and the point come to, rounding changes nothing, and
what is rounded to the limit of exact digits stands for a number rounded to any more of them.
-/

namespace LogRelay

/-- The absolute value of a finite number by the meaning of its fields. -/
def Binary64.absValue (number : Binary64) : ℚ :=
  if number.exponentField = 0 then number.fractionField * 2 ^ (-1074 : ℤ)
  else (2 ^ 52 + number.fractionField) * 2 ^ ((number.exponentField : ℤ) - 1075)

namespace Decimal

theorem denominator_magnitude_pos (number : Binary64) : 0 < number.magnitude.denominator :=
  Nat.pow_pos (by decide)

theorem toRat_magnitude_eq (number : Binary64) :
    number.magnitude.toRat = number.significand * 2 ^ ((number.scaleField : ℤ) - 1075) := by
  have hexponent : ((number.scaleField - 1075 : ℕ) : ℤ) - (1075 - number.scaleField : ℕ) =
      number.scaleField - 1075 := by omega
  have hpower : (2 : ℚ) ^ (number.scaleField - 1075) / 2 ^ (1075 - number.scaleField) =
      2 ^ ((number.scaleField : ℤ) - 1075) := by
    rw [← hexponent, zpow_sub₀ (by norm_num), zpow_natCast, zpow_natCast]
  rw [Magnitude.toRat, Binary64.magnitude, ← hpower, ← mul_div_assoc]
  push_cast [Nat.pow_eq]
  rfl

/-- A finite number's magnitude is what its fields mean. -/
theorem toRat_magnitude (number : Binary64) : number.magnitude.toRat = number.absValue := by
  rw [toRat_magnitude_eq, Binary64.absValue, Binary64.significand, Binary64.scaleField]
  by_cases hfield : number.exponentField = 0
  · have hscale : ((max number.exponentField 1 : ℕ) : ℤ) - 1075 = -1074 := by rw [hfield]; rfl
    rw [if_pos hfield, if_pos hfield, hscale]
  · rw [if_neg hfield, if_neg hfield, Nat.max_eq_left (Nat.pos_of_ne_zero hfield), Nat.cast_add,
      Nat.pow_eq, Nat.cast_pow, Nat.cast_ofNat]

/-- A double has no more than 1074 places. -/
theorem exists_eq_places (number : Binary64) {places : ℕ} (hplaces : 1074 ≤ places) :
    ∃ count : ℕ, number.magnitude.toRat = count * 10 ^ (-places : ℤ) := by
  have hscale : 1 ≤ number.scaleField := Nat.le_max_right _ _
  obtain ⟨more, hmore⟩ := Nat.exists_eq_add_of_le
    (show 1075 - number.scaleField ≤ places by omega)
  rw [Magnitude.toRat, Binary64.magnitude]
  generalize 1075 - number.scaleField = twos at *
  generalize number.significand * Nat.pow 2 (number.scaleField - 1075) = numerator
  refine ⟨numerator * 5 ^ twos * 10 ^ more, ?_⟩
  have htens : (10 : ℚ) ^ twos = 2 ^ twos * 5 ^ twos := by
    rw [← mul_pow]
    norm_num
  rw [zpow_neg, zpow_natCast, hmore, pow_add, htens]
  push_cast [Nat.pow_eq]
  field_simp

/-- Numbers with many digits before their point are integers, as doubles go. -/
theorem denominator_eq_one {number : Binary64}
    (hlarge : 2 ^ 53 ≤ number.magnitude.toRat) : number.magnitude.denominator = 1 := by
  have hwhole : 1075 ≤ number.scaleField := by
    by_contra hlt
    have hsignificand : (number.significand : ℚ) < 2 ^ 53 := by
      exact_mod_cast significand_lt number
    have hscale : (2 : ℚ) ^ ((number.scaleField : ℤ) - 1075) ≤ 1 :=
      zpow_le_one_of_nonpos₀ (by norm_num) (by omega)
    have hle : number.magnitude.toRat ≤ number.significand := by
      rw [toRat_magnitude_eq]
      exact mul_le_of_le_one_right (Nat.cast_nonneg _) hscale
    linarith
  exact (congrArg (Nat.pow 2) (Nat.sub_eq_zero_of_le hwhole)).trans (Nat.pow_zero 2)

/-- A double has fewer digits than the text of one is ever cut to. -/
theorem exists_eq_digits (number : Binary64) {places : ℕ} (hplaces : exactDigits ≤ places) :
    ∃ count : ℕ,
      number.magnitude.toRat = count * digitUnit number.magnitude.toRat (places + 1) := by
  rw [exactDigits] at hplaces
  rw [digitUnit_succ]
  rcases le_or_gt 1074 ((places : ℤ) - Int.log 10 number.magnitude.toRat) with hmany | hfew
  · obtain ⟨count, hcount⟩ := exists_eq_places number
      (show 1074 ≤ ((places : ℤ) - Int.log 10 number.magnitude.toRat).toNat by omega)
    have hexponent : -(((places : ℤ) - Int.log 10 number.magnitude.toRat).toNat : ℤ) =
        Int.log 10 number.magnitude.toRat - places := by omega
    exact ⟨count, by rwa [hexponent] at hcount⟩
  · -- So many digits before the point that nothing is behind it.
    have hpositive : 0 < number.magnitude.toRat := by
      by_contra hle
      rw [Int.log_of_right_le_zero 10 (not_lt.mp hle)] at hfew
      omega
    obtain ⟨hlower, -⟩ := log_bounds hpositive
    have hlarge : (2 : ℚ) ^ 53 ≤ number.magnitude.toRat := by
      have hpower : (10 : ℚ) ^ (16 : ℤ) ≤ 10 ^ Int.log 10 number.magnitude.toRat :=
        zpow_le_zpow_right₀ (by norm_num) (by omega)
      norm_num at hpower ⊢
      linarith
    have hinteger : number.magnitude.toRat = number.magnitude.numerator := by
      rw [Magnitude.toRat, denominator_eq_one hlarge, Nat.cast_one, div_one]
    have hfewer : Int.log 10 number.magnitude.toRat < exponentLimit := by
      have hnumerator := (moderate_magnitude number).numerator_lt
      rw [Nat.pow_eq] at hnumerator
      rw [hinteger, Nat.cast_pos] at hpositive
      rw [hinteger, Int.log_natCast]
      exact_mod_cast Nat.log_lt_of_lt_pow hpositive.ne' hnumerator
    rw [exponentLimit] at hfewer
    obtain ⟨shift, hshift⟩ := Int.eq_ofNat_of_zero_le
      (show 0 ≤ (places : ℤ) - Int.log 10 number.magnitude.toRat by omega)
    refine ⟨number.magnitude.numerator * 10 ^ shift, ?_⟩
    rw [← neg_sub, hshift, Nat.cast_mul, ← hinteger, zpow_neg, zpow_natCast]
    push_cast
    field_simp

/-! ## Places and digits without end -/

/-- Past the places that a double has, more of them change nothing. -/
theorem isNearest_places (number : Binary64) (places : ℕ) :
    let kept := min places exactDigits
    IsNearest number.absValue (10 ^ (-places : ℤ))
      (roundToPlaces number.magnitude kept * 10 ^ (-kept : ℤ)) := by
  intro kept
  have hnearest := isNearest_roundToPlaces (denominator_magnitude_pos number) kept
  rw [toRat_magnitude] at hnearest
  rcases Nat.le_total places exactDigits with hfew | hmany
  · have hkept : kept = places := Nat.min_eq_left hfew
    rwa [hkept] at hnearest ⊢
  · have hkept : 1074 ≤ kept := by
      calc
        1074 ≤ exactDigits := by decide
        _ = kept := (Nat.min_eq_right hmany).symm
    have hplaces : kept ≤ places := Nat.min_le_left _ _
    have hexact := exists_eq_places number hkept
    have hfiner := exists_eq_places number (hkept.trans hplaces)
    rw [toRat_magnitude] at hexact hfiner
    rw [hnearest.unique (ten_zpow_pos _) (isNearest_self (ten_zpow_pos _) hexact)]
    exact isNearest_self (ten_zpow_pos _) hfiner

/-- Past the digits that a double has, more of them change nothing. -/
theorem isNearest_digits (number : Binary64) (places : ℕ) :
    let kept := min places exactDigits
    IsNearest number.absValue (digitUnit number.absValue (places + 1))
      ((roundToDigits number.magnitude kept).toRat kept) := by
  intro kept
  have hnearest := isNearest_roundToDigits (denominator_magnitude_pos number) kept
  rw [toRat_magnitude] at hnearest
  rcases Nat.le_total places exactDigits with hfew | hmany
  · have hkept : kept = places := Nat.min_eq_left hfew
    rwa [hkept] at hnearest ⊢
  · have hkept : exactDigits ≤ kept := (Nat.min_eq_right hmany).ge
    have hexact := exists_eq_digits number hkept
    have hfiner := exists_eq_digits number hmany
    rw [toRat_magnitude] at hexact hfiner
    rw [hnearest.unique (digitUnit_pos _ _) (isNearest_self (digitUnit_pos _ _) hexact)]
    exact isNearest_self (digitUnit_pos _ _) hfiner

/-- The same for a number of digits, of which there is at least one. -/
theorem isNearest_significant (number : Binary64) {significant : ℕ} (hpositive : 1 ≤ significant) :
    let kept := min (significant - 1) exactDigits
    IsNearest number.absValue (digitUnit number.absValue significant)
      ((roundToDigits number.magnitude kept).toRat kept) := by
  have hnearest := isNearest_digits number (significant - 1)
  rwa [Nat.sub_add_cancel hpositive] at hnearest

/-- A number rounded to digits is nearest in the unit of its own last digit, also when it has
carried into a new first one. -/
theorem isNearest_lastDigit (number : Binary64) (places : ℕ) :
    let kept := min places exactDigits
    let rounded := roundToDigits number.magnitude kept
    IsNearest number.absValue (10 ^ (rounded.exponent - places)) (rounded.toRat kept) := by
  intro kept rounded
  have hnearest : IsNearest number.absValue (digitUnit number.absValue (places + 1))
      (rounded.toRat kept) := isNearest_digits number places
  rcases Nat.eq_zero_or_pos number.magnitude.numerator with hzero | hnumerator
  · have hexact : number.absValue = 0 := by
      rw [← toRat_magnitude, Magnitude.toRat, hzero, Nat.cast_zero, zero_div]
    have hexponent : rounded.exponent = Int.log 10 number.absValue := by
      rw [hexact, Int.log_zero_right]
      exact congrArg Scientific.exponent (if_pos hzero)
    rwa [hexponent, ← digitUnit_succ]
  · obtain ⟨digits, -, -, -, heq⟩ :=
      exists_roundToDigits hnumerator (denominator_magnitude_pos number) kept
    have hrounded : rounded = _ := heq
    rw [toRat_magnitude] at hrounded
    clear_value rounded
    split at hrounded
    · -- The last of the digits is now ten times as great.
      have hunit : (10 : ℚ) ^ (Int.log 10 number.absValue + 1 - places) =
          10 * digitUnit number.absValue (places + 1) := by
        rw [digitUnit_succ, add_sub_right_comm, zpow_add_one₀ (by norm_num), mul_comm]
      have hvalue : rounded.toRat kept =
          ((10 ^ places : ℕ) : ℚ) * (10 * digitUnit number.absValue (places + 1)) := by
        rw [← hunit, hrounded, Scientific.toRat]
        push_cast
        rw [← zpow_natCast, ← zpow_natCast, ← zpow_add₀ (by norm_num), ← zpow_add₀ (by norm_num),
          add_sub_cancel, add_sub_cancel]
      have hcoarser := hnearest.coarsen (digitUnit_pos _ _) hvalue
      rw [← hunit] at hcoarser
      rwa [hrounded] at hcoarser ⊢
    · rw [digitUnit_succ] at hnearest
      rwa [hrounded] at hnearest ⊢

/-- A number rounded to digits and then taken anew, to the places that these digits reach to,
is rounded to the same. -/
theorem toRat_roundToDigits (number : Binary64) {places behind : ℕ} :
    let rounded := roundToDigits number.magnitude (min places exactDigits)
    let kept := min behind exactDigits
    (behind : ℤ) = places - rounded.exponent →
      rounded.toRat (min places exactDigits) =
        roundToPlaces number.magnitude kept * 10 ^ (-kept : ℤ) := by
  intro rounded kept hbehind
  have hdigits : IsNearest number.absValue (10 ^ (rounded.exponent - places))
      (rounded.toRat (min places exactDigits)) := isNearest_lastDigit number places
  have hplaces : IsNearest number.absValue (10 ^ (-behind : ℤ))
      (roundToPlaces number.magnitude kept * 10 ^ (-kept : ℤ)) := isNearest_places number behind
  rw [hbehind, neg_sub] at hplaces
  exact hdigits.unique (ten_zpow_pos _) hplaces

end Decimal

end LogRelay
