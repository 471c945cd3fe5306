import LogRelay.Proofs.Decimal.Doubles
import LogRelay.Proofs.Decimal.Notation

/-!
# Doubles as decimal text

The three notations by what a reader makes of them.  Fixed and exponential notation write the
number rounded to places or to digits, all of them, however many there are.  General notation
rounds to digits once, takes its style from the result and writes just that: rounding anew to
the places of the plain style comes to the same, because they end at the same digit.
-/

namespace LogRelay.Decimal

open LogRelay.Text

/-- Fixed notation: the number rounded to `precision` places, with as many digits behind the
point. -/
inductive WritesFixed (exact : ℚ) (precision : ℕ) (alternate : Bool) : List Char → Prop where
  | intro {whole fraction : List Char} {number : ℕ}
      (hdecimal : IsDecimal whole fraction number)
      (hlength : fraction.length = precision)
      (hnearest : IsNearest exact (10 ^ (-precision : ℤ)) (number * 10 ^ (-precision : ℤ))) :
      WritesFixed exact precision alternate (aroundPoint alternate whole fraction)

/-- Exponential notation: the number rounded to one digit, which is zero for no other number
than zero, and `precision` more behind the point. -/
inductive WritesExponential (exact : ℚ) (precision : ℕ) (alternate upper : Bool) :
    List Char → Prop where
  | intro {first : Char} {fraction suffix : List Char} {number : ℕ} {exponent : ℤ}
      (hspells : Spells 10 false (first :: fraction) number)
      (hlength : fraction.length = precision)
      (hfirst : first = '0' ↔ exact = 0)
      (hzero : exact = 0 → exponent = 0)
      (hnearest : IsNearest exact (digitUnit exact (precision + 1))
        (number * 10 ^ (exponent - precision)))
      (hexponent : IsExponent upper exponent suffix) :
      WritesExponential exact precision alternate upper
        (aroundPoint alternate [first] fraction ++ suffix)

/-- Whether general notation writes a number, rounded to `significant` digits, without an
exponent. -/
def IsPlain (rounded : ℚ) (significant : ℕ) : Prop :=
  -4 ≤ Int.log 10 rounded ∧ Int.log 10 rounded < significant

/-- General notation: the number rounded to `significant` digits, in the style that suits its
first one, without zeros at the end of the fraction. -/
inductive WritesGeneral (exact : ℚ) (significant : ℕ) (upper : Bool) : List Char → Prop where
  | plain {rounded : ℚ} {whole fraction : List Char} {number : ℕ}
      (hnearest : IsNearest exact (digitUnit exact significant) rounded)
      (hplain : IsPlain rounded significant)
      (hdecimal : IsDecimal whole fraction number)
      (hvalue : rounded = number * 10 ^ (-fraction.length : ℤ))
      (hlast : fraction.getLast? ≠ some '0') :
      WritesGeneral exact significant upper (aroundPoint false whole fraction)
  | exponential {rounded : ℚ} {first : Char} {fraction suffix : List Char} {number : ℕ}
      (hnearest : IsNearest exact (digitUnit exact significant) rounded)
      (hplain : ¬ IsPlain rounded significant)
      (hspells : Spells 10 false (first :: fraction) number)
      (hfirst : first ≠ '0')
      (hvalue : rounded = number * 10 ^ (Int.log 10 rounded - fraction.length))
      (hlast : fraction.getLast? ≠ some '0')
      (hexponent : IsExponent upper (Int.log 10 rounded) suffix) :
      WritesGeneral exact significant upper (aroundPoint false [first] fraction ++ suffix)

/-! ## Zeros at the end -/

/-- Zeros at the end of the digits leave the number what it was. -/
theorem mul_ten_pow_mul_zpow (number count places : ℕ) (exponent : ℤ) :
    ((number * 10 ^ count : ℕ) : ℚ) * 10 ^ (exponent - (places + count : ℕ)) =
      number * 10 ^ (exponent - places) := by
  have hexponent : (count : ℤ) + (exponent - (places + count : ℕ)) = exponent - places := by
    push_cast
    ring
  rw [Nat.cast_mul, Nat.cast_pow, Nat.cast_ofNat, mul_assoc, ← zpow_natCast,
    ← zpow_add₀ (by norm_num), hexponent]

theorem mul_ten_pow_mul_zpow_neg (number count places : ℕ) :
    ((number * 10 ^ count : ℕ) : ℚ) * 10 ^ (-(places + count : ℕ) : ℤ) =
      number * 10 ^ (-places : ℤ) := by
  simpa only [zero_sub] using mul_ten_pow_mul_zpow number count places 0

theorem mul_ten_pow_lt_iff (number count places : ℕ) :
    number * 10 ^ count < 10 ^ (places + count) ↔ number < 10 ^ places := by
  rw [Nat.pow_add, Nat.mul_lt_mul_right (Nat.pow_pos (by decide))]

/-- The places that are written as digits and those that are counted. -/
theorem min_add_sub_exactDigits (precision : ℕ) :
    min precision exactDigits + (precision - exactDigits) = precision := by
  omega

theorem expandAll_pieces (numeral : Numeral) :
    expandAll numeral.pieces =
      numeral.digits ++ List.replicate numeral.zeros '0' ++ numeral.exponent := by
  simp [Numeral.pieces, expandAll, Piece.expand]

/-! ## The three notations -/

variable (number : Binary64) (precision : ℕ) (alternate upper : Bool)

theorem writesFixed_fixed :
    WritesFixed number.absValue precision alternate
      (expandAll (fixed number.magnitude precision alternate).pieces) := by
  obtain ⟨whole, fraction, htext, hlength, hdecimal⟩ := exists_padded
    (roundToPlaces number.magnitude (min precision exactDigits)) precision alternate
  have hnearest := isNearest_places number precision
  simp only at hnearest
  rw [← mul_ten_pow_mul_zpow_neg _ (precision - exactDigits), min_add_sub_exactDigits] at hnearest
  rw [expandAll_pieces, fixed, List.append_nil, htext]
  exact .intro hdecimal hlength hnearest

theorem writesExponential_exponential :
    WritesExponential number.absValue precision alternate upper
      (expandAll (exponential number.magnitude precision alternate upper).pieces) := by
  have hdenominator := denominator_magnitude_pos number
  have hprecision := min_add_sub_exactDigits precision
  obtain ⟨whole, fraction, htext, hlength, hdecimal⟩ := exists_padded
    (roundToDigits number.magnitude (min precision exactDigits)).digits precision alternate
  have hnearest := isNearest_digits number precision
  have hlt := digits_roundToDigits_lt hdenominator (min precision exactDigits)
  have hiff := digits_roundToDigits_lt_iff hdenominator (min precision exactDigits)
  have hzero : number.absValue = 0 →
      (roundToDigits number.magnitude (min precision exactDigits)).exponent = 0 := by
    intro hexact
    rw [roundToDigits_of_eq_zero hdenominator ((toRat_magnitude number).trans hexact)]
  rw [toRat_magnitude] at hiff
  rw [expandAll_pieces, exponential, htext]
  simp only at hnearest htext ⊢
  generalize roundToDigits number.magnitude (min precision exactDigits) = rounded at *
  rw [Scientific.toRat, ← mul_ten_pow_mul_zpow _ (precision - exactDigits), hprecision] at hnearest
  rw [← mul_ten_pow_lt_iff _ (precision - exactDigits), Nat.add_right_comm, hprecision] at hlt
  rw [← mul_ten_pow_lt_iff _ (precision - exactDigits), hprecision] at hiff
  subst hlength
  obtain ⟨first, rfl, hfirst⟩ := hdecimal.exists_first hlt
  exact .intro hdecimal.spells rfl (hfirst.trans hiff) hzero hnearest
    (isExponent_exponentText rounded.exponent upper)

/-- The places of the plain style, limited as a precision is, reach to the last digit. -/
theorem min_plainPlaces {significant : ℕ} {exponent : ℤ} (hexponent : exponent < significant) :
    min (if exponent < 0 then min (significant - 1 + exponent.natAbs) Format.maxNumber
      else significant - 1 - exponent.natAbs) exactDigits =
        min ((significant - 1 : ℕ) - exponent).toNat exactDigits := by
  have hlimit : exactDigits ≤ Format.maxNumber := by decide
  split
  · rw [min_assoc, min_eq_right hlimit]
    congr 1
    omega
  · congr 1
    omega

/-- General notation by the digits it trims, of the places or the digits that are kept. -/
theorem expandAll_general {number : Magnitude} {significant : ℕ} {rounded : Scientific}
    (hsignificant : max precision 1 = significant)
    (hrounded : roundToDigits number (min (significant - 1) exactDigits) = rounded) :
    let behind := min ((significant - 1 : ℕ) - rounded.exponent).toNat exactDigits
    expandAll (general number precision false upper).pieces =
      if -4 ≤ rounded.exponent ∧ rounded.exponent < significant then
        trimFraction (placePoint (roundToPlaces number behind) behind)
      else
        trimFraction (placePoint rounded.digits (min (significant - 1) exactDigits)) ++
          exponentText rounded.exponent upper := by
  intro behind
  simp only [expandAll_pieces, general, hsignificant, hrounded, Bool.false_eq_true, if_false]
  split
  · next hplain =>
    have hbehind := min_plainPlaces hplain.2
    simp only [fixed, hbehind, Bool.false_eq_true, if_false]
    rw [List.replicate_zero, List.append_nil, List.append_nil]
  · next hother =>
    simp only [exponential, hrounded, Bool.false_eq_true, if_false]
    rw [List.replicate_zero, List.append_nil]

/-- The plain style writes the number that its style was chosen by. -/
theorem writesGeneral_plain {significant : ℕ} (hpositive : 1 ≤ significant) :
    let rounded := roundToDigits number.magnitude (min (significant - 1) exactDigits)
    let behind := min ((significant - 1 : ℕ) - rounded.exponent).toNat exactDigits
    (-4 ≤ rounded.exponent ∧ rounded.exponent < significant) →
      WritesGeneral number.absValue significant upper
        (trimFraction (placePoint (roundToPlaces number.magnitude behind) behind)) := by
  intro rounded behind hplain
  have hnearest : IsNearest number.absValue (digitUnit number.absValue significant)
      (rounded.toRat (min (significant - 1) exactDigits)) := isNearest_significant number hpositive
  have hlog : Int.log 10 (rounded.toRat (min (significant - 1) exactDigits)) = rounded.exponent :=
    log_toRat_roundToDigits (denominator_magnitude_pos number) _
  -- The style leaves the last digit at the point or behind it, so that places can reach it.
  have hreach : 0 ≤ ((significant - 1 : ℕ) : ℤ) - rounded.exponent := by omega
  have hplaces : rounded.toRat (min (significant - 1) exactDigits) =
      roundToPlaces number.magnitude behind * 10 ^ (-behind : ℤ) :=
    toRat_roundToDigits number (Int.toNat_of_nonneg hreach)
  obtain ⟨whole, fraction, front, count, htext, hlast, hbehind, hdecimal, hnumber⟩ :=
    exists_trimmed (roundToPlaces number.magnitude behind) behind
  rw [hnumber, hbehind, mul_ten_pow_mul_zpow_neg] at hplaces
  rw [htext]
  exact .plain hnearest (by rwa [IsPlain, hlog]) hdecimal hplaces hlast

theorem writesGeneral_exponential {significant : ℕ} (hpositive : 1 ≤ significant) :
    let kept := min (significant - 1) exactDigits
    let rounded := roundToDigits number.magnitude kept
    ¬ (-4 ≤ rounded.exponent ∧ rounded.exponent < significant) →
      WritesGeneral number.absValue significant upper
        (trimFraction (placePoint rounded.digits kept) ++ exponentText rounded.exponent upper) := by
  intro kept rounded hother
  have hdenominator := denominator_magnitude_pos number
  have hnearest : IsNearest number.absValue (digitUnit number.absValue significant)
      (rounded.toRat kept) := isNearest_significant number hpositive
  have hlog : Int.log 10 (rounded.toRat kept) = rounded.exponent :=
    log_toRat_roundToDigits hdenominator _
  have hlt : rounded.digits < 10 ^ (kept + 1) := digits_roundToDigits_lt hdenominator kept
  -- Zero is written plainly.
  have hge : ¬ rounded.digits < 10 ^ kept := by
    rw [digits_roundToDigits_lt_iff hdenominator]
    intro hzero
    have hexponent : rounded.exponent = 0 :=
      congrArg Scientific.exponent (roundToDigits_of_eq_zero hdenominator hzero kept)
    exact hother (by omega)
  clear_value rounded
  obtain ⟨whole, fraction, front, count, htext, hlast, hkept, hdecimal, hdigits⟩ :=
    exists_trimmed rounded.digits kept
  rw [htext]
  clear_value kept
  subst hkept
  rw [hdigits, Nat.add_right_comm, mul_ten_pow_lt_iff] at hlt
  rw [hdigits, mul_ten_pow_lt_iff] at hge
  have hvalue : rounded.toRat (fraction.length + count) =
      front * 10 ^ (rounded.exponent - fraction.length) := by
    rw [Scientific.toRat, hdigits, mul_ten_pow_mul_zpow]
  obtain ⟨first, rfl, hfirst⟩ := hdecimal.exists_first hlt
  rw [← hlog] at hvalue hother
  exact .exponential hnearest hother hdecimal.spells (mt hfirst.mp hge) hvalue hlast
    (hlog.symm ▸ isExponent_exponentText rounded.exponent upper)

theorem writesGeneral_general :
    WritesGeneral number.absValue (max precision 1) upper
      (expandAll (general number.magnitude precision false upper).pieces) := by
  have hpositive : 1 ≤ max precision 1 := Nat.le_max_right _ _
  rw [expandAll_general precision upper rfl rfl]
  split
  · next hplain => exact writesGeneral_plain number upper hpositive hplain
  · next hother => exact writesGeneral_exponential number upper hpositive hother

end LogRelay.Decimal
