import LogRelay.Proofs.Decimal.Spacing
import LogRelay.Proofs.Decimal.Written

/-!
# General notation in alternate form

Alternate form keeps the zeros at the end of a fraction, so that in both styles a number has
exactly as many digits as were asked for, also when rounding carries into a new first digit.
The digits are those of fixed or exponential notation; what is counted here is how many of them
stand behind the zeros at the front.

The count of places saturates at the greatest number that a precision can be.  So at the greatest
precisions the plain style of a number below a tenth ends a few places early, with its value
unchanged: what is missing is zeros.
-/

namespace LogRelay.Decimal

open LogRelay.Text

/-- How many digits the plain style leaves out, because it takes no more places than can be
counted. -/
def unreached (rounded : ℚ) (significant : ℕ) : ℕ :=
  if Int.log 10 rounded < 0 then
    significant - 1 + (Int.log 10 rounded).natAbs - Format.maxNumber
  else 0

/-- Digits of a number, as many as asked for from the first on that is not zero, and for zero as
many in all. -/
structure HasDigits (exact : ℚ) (significant : ℕ) (digits : List Char) : Prop where
  of_zero : exact = 0 → digits.length = significant
  of_ne_zero : exact ≠ 0 → (digits.dropWhile (· = '0')).length = significant

/-- General notation in alternate form: the number rounded to `significant` digits, all of them
that can be reached, with a point, in the style that suits its first digit. -/
inductive WritesAlternate (exact : ℚ) (significant : ℕ) (upper : Bool) : List Char → Prop where
  | plain {rounded : ℚ} {whole fraction : List Char} {number : ℕ}
      (hnearest : IsNearest exact (digitUnit exact significant) rounded)
      (hplain : IsPlain rounded significant)
      (hdecimal : IsDecimal whole fraction number)
      (hvalue : rounded = number * 10 ^ (-fraction.length : ℤ))
      (hdigits : HasDigits exact (significant - unreached rounded significant)
        (whole ++ fraction)) :
      WritesAlternate exact significant upper (whole ++ '.' :: fraction)
  | exponential {rounded : ℚ} {first : Char} {fraction suffix : List Char} {number : ℕ}
      (hnearest : IsNearest exact (digitUnit exact significant) rounded)
      (hplain : ¬ IsPlain rounded significant)
      (hspells : Spells 10 false (first :: fraction) number)
      (hfirst : first ≠ '0')
      (hvalue : rounded = number * 10 ^ (Int.log 10 rounded - fraction.length))
      (hdigits : HasDigits exact significant (first :: fraction))
      (hexponent : IsExponent upper (Int.log 10 rounded) suffix) :
      WritesAlternate exact significant upper (first :: '.' :: fraction ++ suffix)

variable {exact rounded : ℚ} {places behind : ℕ} {upper : Bool} {text : List Char}

/-! ## Rounded numbers -/

/-- Zero is rounded to zero. -/
theorem IsNearest.eq_zero {unit : ℚ} (hunit : 0 < unit) (hnearest : IsNearest 0 unit rounded) :
    rounded = 0 :=
  hnearest.unique hunit (isNearest_self hunit ⟨0, by rw [Nat.cast_zero, zero_mul]⟩)

/-- A number is never rounded to zero by digits of its own. -/
theorem IsNearest.pos (hexact : 0 < exact)
    (hnearest : IsNearest exact (digitUnit exact (places + 1)) rounded) : 0 < rounded := by
  obtain ⟨count, rfl, hgap, -⟩ := hnearest
  have hunit := digitUnit_pos exact (places + 1)
  have hleast : digitUnit exact (places + 1) ≤ exact := by
    rw [digitUnit_succ]
    exact (zpow_le_zpow_right₀ (by norm_num) (by omega)).trans (log_bounds hexact).1
  rcases Nat.eq_zero_or_pos count with rfl | hcount
  · rw [Nat.cast_zero, zero_mul, sub_zero, abs_of_pos hexact] at hgap
    linarith
  · exact mul_pos (Nat.cast_pos.mpr hcount) hunit

/-- A number of one digit and `places` more, by the place of its first one. -/
theorem bounds_of_log {number : ℕ} (hpositive : 0 < rounded)
    (hvalue : rounded = number * 10 ^ (Int.log 10 rounded - places)) :
    10 ^ places ≤ number ∧ number < 10 ^ (places + 1) := by
  have hnumber : 0 < number := by
    rw [hvalue] at hpositive
    exact Nat.cast_pos.mp (pos_of_mul_pos_left hpositive (ten_zpow_pos _).le)
  have hlog : Nat.log 10 number = places := by
    have hmoved := log_mul_ten_zpow hnumber (Int.log 10 rounded - places)
    rw [← hvalue] at hmoved
    omega
  rwa [Nat.log_eq_iff (Or.inr ⟨by decide, hnumber.ne'⟩)] at hlog

/-! ## Digits out of reach -/

theorem four_le_maxNumber : 4 ≤ Format.maxNumber := by decide

/-- The plain style starts at the fourth place at the latest, so no digit is missing unless the
precision is one of the three greatest, and three are at most. -/
theorem unreached_le {significant : ℕ} (hplain : IsPlain rounded significant) :
    unreached rounded significant ≤ significant + 3 - Format.maxNumber := by
  have hlimit := four_le_maxNumber
  rw [unreached]
  split
  · next hsmall =>
    have hzeros : (Int.log 10 rounded).natAbs ≤ 4 := by have := hplain.1; omega
    exact (Nat.sub_le_sub_right (Nat.add_le_add_left hzeros _) _).trans (by omega)
  · exact Nat.zero_le _

theorem unreached_zero (significant : ℕ) : unreached 0 significant = 0 := by
  rw [unreached, Int.log_zero_right, if_neg (lt_irrefl 0)]

/-- There are digits left behind the zeros at the front. -/
theorem unreached_le_places (hplain : IsPlain rounded (places + 1)) :
    unreached rounded (places + 1) ≤ places := by
  have hlimit := four_le_maxNumber
  have hmissing := unreached_le hplain
  omega

/-- The places that are counted end where the digits do that can be reached. -/
theorem places_of_isPlain (hplain : IsPlain rounded (places + 1)) :
    ((if Int.log 10 rounded < 0 then
        min (places + (Int.log 10 rounded).natAbs) Format.maxNumber
      else places - (Int.log 10 rounded).natAbs : ℕ) : ℤ) =
      places - unreached rounded (places + 1) - Int.log 10 rounded := by
  obtain ⟨-, hreach⟩ := hplain
  rw [unreached]
  generalize Int.log 10 rounded = exponent at *
  generalize Format.maxNumber = limit
  split <;> omega

/-! ## Both styles -/

/-- Fixed notation with the places that the digits reach to, as far as these can be counted, has
just these digits. -/
theorem WritesFixed.alternate (hwrites : WritesFixed exact behind true text) (hexact : 0 ≤ exact)
    (hnearest : IsNearest exact (digitUnit exact (places + 1)) rounded)
    (hlast : IsNearest exact (10 ^ (-behind : ℤ)) rounded)
    (hplain : IsPlain rounded (places + 1))
    (hbehind : (behind : ℤ) =
      places - unreached rounded (places + 1) - Int.log 10 rounded) :
    WritesAlternate exact (places + 1) upper text := by
  cases hwrites with
  | @intro whole fraction number hdecimal hlength hfixed =>
    have hvalue := hlast.unique (ten_zpow_pos _) hfixed
    rw [aroundPoint_true]
    refine .plain hnearest hplain hdecimal (by rwa [hlength]) ⟨?_, ?_⟩
    · rintro rfl
      obtain rfl := hnearest.eq_zero (digitUnit_pos _ _)
      rw [unreached_zero, Int.log_zero_right] at hbehind
      have hplaces : behind = places := by omega
      have hnumber : number = 0 := by
        have hzero := (mul_eq_zero.mp hvalue.symm).resolve_right (ten_zpow_pos _).ne'
        exact_mod_cast hzero
      obtain ⟨first, rfl, -⟩ := hdecimal.exists_first (by rw [hnumber]; positivity)
      rw [unreached_zero, List.length_append, List.length_singleton, hlength, hplaces,
        Nat.add_comm]
      rfl
    · intro hne
      have hpositive := hnearest.pos (lt_of_le_of_ne hexact hne.symm)
      have hreached := unreached_le_places hplain
      have hexponent : (-behind : ℤ) =
          Int.log 10 rounded - (places - unreached rounded (places + 1) : ℕ) := by omega
      rw [hexponent] at hvalue
      obtain ⟨hlower, hupper⟩ := bounds_of_log hpositive hvalue
      rw [Nat.sub_add_comm hreached]
      exact hdecimal.spells.length_dropWhile (by decide) (by decide) hlower hupper

/-- Exponential notation has a first digit that is not zero, and as many behind it as it is asked
for. -/
theorem WritesExponential.alternate (hwrites : WritesExponential exact places true upper text)
    (hnearest : IsNearest exact (digitUnit exact (places + 1)) rounded)
    (hplain : ¬ IsPlain rounded (places + 1)) : WritesAlternate exact (places + 1) upper text := by
  have hexact : exact ≠ 0 := by
    rintro rfl
    obtain rfl := hnearest.eq_zero (digitUnit_pos _ _)
    rw [IsPlain, Int.log_zero_right] at hplain
    omega
  cases hwrites with
  | @intro first fraction suffix number exponent hspells hlength hfirst hzero hdigits hexponent =>
    have hne : first ≠ '0' := mt hfirst.mp hexact
    have hvalue : rounded = number * 10 ^ (exponent - places) :=
      hnearest.unique (digitUnit_pos _ _) hdigits
    have hlower : 10 ^ fraction.length ≤ number :=
      Nat.le_of_not_lt (mt (hspells.head_eq_zero_iff (by decide)).mpr hne)
    have hlog : Int.log 10 rounded = exponent := by
      have hupper : number < 10 ^ (fraction.length + 1) := hspells.lt_pow
      have hpositive : 0 < number := (Nat.pow_pos (by decide)).trans_le hlower
      rw [hvalue, log_mul_ten_zpow hpositive, Nat.log_eq_of_pow_le_of_lt_pow hlower hupper,
        hlength, add_sub_cancel]
    rw [aroundPoint_true]
    rw [← hlog] at hexponent hvalue
    have hdrop : (first :: fraction).dropWhile (· = '0') = first :: fraction :=
      List.dropWhile_cons_of_neg (by simpa using hne)
    have hcount : HasDigits exact (places + 1) (first :: fraction) := by
      refine ⟨fun heq => absurd heq hexact, fun _ => ?_⟩
      rw [hdrop, List.length_cons, hlength]
    exact .exponential hnearest hplain hspells hne (by rwa [hlength]) hcount hexponent

/-! ## The places of the plain style -/

/-- The first digit of a number rounded to digits, as the style is chosen by. -/
theorem IsNearest.log_eq {number : Binary64} {significant : ℕ} (hpositive : 1 ≤ significant)
    (hnearest : IsNearest number.absValue (digitUnit number.absValue significant) rounded) :
    Int.log 10 rounded =
      (roundToDigits number.magnitude (min (significant - 1) exactDigits)).exponent := by
  rw [hnearest.unique (digitUnit_pos _ _) (isNearest_significant number hpositive)]
  exact log_toRat_roundToDigits (denominator_magnitude_pos number) _

variable (number : Binary64)

/-- The places that are counted are exact, however many more there would be. -/
theorem isNearest_plainPlaces (places : ℕ) :
    let rounded := roundToDigits number.magnitude (min places exactDigits)
    let behind := if rounded.exponent < 0 then
        min (places + rounded.exponent.natAbs) Format.maxNumber
      else places - rounded.exponent.natAbs
    rounded.exponent < (places + 1 : ℕ) →
      IsNearest number.absValue (10 ^ (-behind : ℤ))
        (rounded.toRat (min places exactDigits)) := by
  intro rounded behind hplain
  have hsame := min_plainPlaces hplain
  rw [Nat.add_sub_cancel] at hsame
  have hreach : ((places - rounded.exponent).toNat : ℤ) = places - rounded.exponent :=
    Int.toNat_of_nonneg (by omega)
  have hvalue := toRat_roundToDigits number hreach
  have hnearest := isNearest_places number behind
  simp only at hvalue hnearest
  rwa [hsame, ← hvalue] at hnearest

theorem writesAlternate_plain (places : ℕ) (upper : Bool) :
    let rounded := roundToDigits number.magnitude (min places exactDigits)
    let behind := if rounded.exponent < 0 then
        min (places + rounded.exponent.natAbs) Format.maxNumber
      else places - rounded.exponent.natAbs
    (-4 ≤ rounded.exponent ∧ rounded.exponent < (places + 1 : ℕ)) →
      WritesAlternate number.absValue (places + 1) upper
        (expandAll (fixed number.magnitude behind true).pieces) := by
  intro rounded behind hplain
  have hnearest : IsNearest number.absValue (digitUnit number.absValue (places + 1))
      (rounded.toRat (min places exactDigits)) := isNearest_digits number places
  have hlast : IsNearest number.absValue (10 ^ (-behind : ℤ))
      (rounded.toRat (min places exactDigits)) := isNearest_plainPlaces number places hplain.2
  have hlog : Int.log 10 (rounded.toRat (min places exactDigits)) = rounded.exponent :=
    log_toRat_roundToDigits (denominator_magnitude_pos number) _
  have hstyle : IsPlain (rounded.toRat (min places exactDigits)) (places + 1) := by
    rwa [IsPlain, hlog]
  have hbehind := places_of_isPlain hstyle
  rw [hlog] at hbehind
  exact (writesFixed_fixed number _ true).alternate (absValue_nonneg number) hnearest hlast
    hstyle (by rwa [hlog])

theorem writesAlternate_exponential (places : ℕ) (upper : Bool) :
    let rounded := roundToDigits number.magnitude (min places exactDigits)
    ¬ (-4 ≤ rounded.exponent ∧ rounded.exponent < (places + 1 : ℕ)) →
      WritesAlternate number.absValue (places + 1) upper
        (expandAll (exponential number.magnitude places true upper).pieces) := by
  intro rounded hother
  have hnearest : IsNearest number.absValue (digitUnit number.absValue (places + 1))
      (rounded.toRat (min places exactDigits)) := isNearest_digits number places
  have hlog : Int.log 10 (rounded.toRat (min places exactDigits)) = rounded.exponent :=
    log_toRat_roundToDigits (denominator_magnitude_pos number) _
  rw [← hlog] at hother
  exact (writesExponential_exponential number _ true _).alternate hnearest hother

/-- In alternate form general notation has all the digits asked for that can be reached. -/
theorem writesAlternate_general (precision : ℕ) (upper : Bool) :
    WritesAlternate number.absValue (max precision 1) upper
      (expandAll (general number.magnitude precision true upper).pieces) := by
  obtain ⟨places, hplaces⟩ : ∃ places, max precision 1 = places + 1 :=
    ⟨max precision 1 - 1, by omega⟩
  simp only [general, hplaces, Nat.add_sub_cancel, if_true]
  split
  · next hplain => exact writesAlternate_plain number places upper hplain
  · next hother => exact writesAlternate_exponential number places upper hother

end LogRelay.Decimal
