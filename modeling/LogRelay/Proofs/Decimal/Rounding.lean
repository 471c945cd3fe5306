import Mathlib.Data.Int.Log
import Mathlib.Data.Rat.Floor
import Mathlib.Tactic.FieldSimp
import Mathlib.Tactic.Linarith
import LogRelay.Decimal.Rounding

/-!
# What rounding gives

Rounded numbers are looked at as fractions: each is the multiple of a power of ten nearest to
the exact one.  A number of places names that power at once, a number of digits by way of the
first digit, which rounding may carry into the place before it.
-/

namespace LogRelay

/-- The fraction that a magnitude stands for. -/
def Magnitude.toRat (number : Magnitude) : ℚ :=
  number.numerator / number.denominator

namespace Decimal

/-- `rounded` is the multiple of `unit` nearest to `exact`, and of two equally near ones the
even multiple. -/
def IsNearest (exact unit rounded : ℚ) : Prop :=
  ∃ count : ℕ, rounded = count * unit ∧ |exact - rounded| ≤ unit / 2 ∧
    (|exact - rounded| = unit / 2 → Even count)

/-- The unit of the last of `digits` decimal digits of a number, the first of which is not
zero. -/
def digitUnit (exact : ℚ) (digits : ℕ) : ℚ :=
  10 ^ (Int.log 10 exact + 1 - digits)

variable {exact unit rounded other : ℚ}

theorem ten_zpow_pos (exponent : ℤ) : (0 : ℚ) < 10 ^ exponent :=
  zpow_pos (by norm_num) exponent

theorem digitUnit_pos (exact : ℚ) (digits : ℕ) : 0 < digitUnit exact digits :=
  ten_zpow_pos _

/-! ## Nearest multiples -/

/-- How far the rounded quotient is from the exact one, in halves of the denominator. -/
theorem roundHalfEven_bounds {denominator : Nat} (hpositive : 0 < denominator)
    (numerator : Nat) :
    let scaled := roundHalfEven numerator denominator * denominator
    2 * scaled ≤ 2 * numerator + denominator ∧ 2 * numerator ≤ 2 * scaled + denominator ∧
      (2 * scaled = 2 * numerator + denominator ∨ 2 * numerator = 2 * scaled + denominator →
        Even (roundHalfEven numerator denominator)) := by
  have hdivision := Nat.div_add_mod' numerator denominator
  have hremainder := Nat.mod_lt numerator hpositive
  simp only [roundHalfEven]
  generalize numerator / denominator = quotient at *
  generalize numerator % denominator = remainder at *
  split
  · refine ⟨by omega, by omega, by omega⟩
  · split
    · rw [Nat.add_mul, Nat.one_mul]
      refine ⟨by omega, by omega, by omega⟩
    · -- Halfway between, what is added makes the quotient even.
      have htie : 2 * remainder = denominator := by omega
      have hodd := Nat.mod_two_eq_zero_or_one quotient
      have heven : Even (quotient + quotient % 2) := by
        rw [Nat.even_iff]
        omega
      refine ⟨?_, ?_, fun _ => heven⟩
      all_goals
        rcases hodd with hmod | hmod
        · rw [hmod, Nat.add_zero]
          omega
        · rw [hmod, Nat.add_mul, Nat.one_mul]
          omega

theorem isNearest_roundHalfEven {denominator : Nat} (hpositive : 0 < denominator)
    (hunit : 0 < unit) (numerator : Nat) :
    IsNearest (numerator / denominator * unit) unit
      (roundHalfEven numerator denominator * unit) := by
  obtain ⟨hlower, hupper, heven⟩ := roundHalfEven_bounds hpositive numerator
  generalize roundHalfEven numerator denominator = count at *
  have hdenominator : (0 : ℚ) < denominator := by exact_mod_cast hpositive
  have hscale : 0 < unit / denominator := div_pos hunit hdenominator
  have hgap : |numerator / denominator * unit - count * unit| =
      |(numerator : ℚ) - count * denominator| * (unit / denominator) := by
    have hfactor : numerator / denominator * unit - count * unit =
        ((numerator : ℚ) - count * denominator) * (unit / denominator) := by field_simp
    rw [hfactor, abs_mul, abs_of_pos hscale]
  have hhalf : unit / 2 = denominator / 2 * (unit / denominator) := by field_simp
  refine ⟨count, rfl, ?_, fun htie => heven ?_⟩
  · rw [hgap, hhalf]
    refine mul_le_mul_of_nonneg_right (abs_le.mpr ⟨?_, ?_⟩) hscale.le
    · have hcast : (2 * (count * denominator) : ℚ) ≤ 2 * numerator + denominator := by
        exact_mod_cast hlower
      linarith
    · have hcast : (2 * numerator : ℚ) ≤ 2 * (count * denominator) + denominator := by
        exact_mod_cast hupper
      linarith
  · rw [hgap, hhalf, mul_left_inj' hscale.ne'] at htie
    rcases (abs_eq (by linarith)).mp htie with hbelow | habove
    · right
      have hcast : (2 * numerator : ℚ) = 2 * (count * denominator) + denominator := by linarith
      exact_mod_cast hcast
    · left
      have hcast : (2 * (count * denominator) : ℚ) = 2 * numerator + denominator := by linarith
      exact_mod_cast hcast

/-- Two multiples a unit apart are equally near only halfway between them, where one of them
is not even. -/
theorem IsNearest.not_lt {low high : ℕ} (hunit : 0 < unit)
    (hlow : |exact - low * unit| ≤ unit / 2)
    (hlowEven : |exact - low * unit| = unit / 2 → Even low)
    (hhigh : |exact - high * unit| ≤ unit / 2)
    (hhighEven : |exact - high * unit| = unit / 2 → Even high) : ¬ low < high := by
  intro hlt
  have hgap : ((low : ℚ) + 1) * unit ≤ high * unit :=
    mul_le_mul_of_nonneg_right (by exact_mod_cast hlt) hunit.le
  have habove := (abs_le.mp hlow).2
  have hbelow := (abs_le.mp hhigh).1
  have hexact : exact = low * unit + unit / 2 := by linarith
  have hnext : (high : ℚ) * unit = (low + 1) * unit := by linarith
  have hhighEq : high = low + 1 := by
    exact_mod_cast (mul_left_inj' hunit.ne').mp hnext
  have hlowTie : |exact - low * unit| = unit / 2 := by
    rw [hexact, add_sub_cancel_left, abs_of_pos (by linarith)]
  have hhighTie : |exact - high * unit| = unit / 2 := by
    rw [hexact, hnext, abs_sub_comm, abs_of_pos (by linarith)]
    ring
  have heven := hhighEven hhighTie
  rw [hhighEq, Nat.even_add_one] at heven
  exact heven (hlowEven hlowTie)

/-- There is one nearest multiple. -/
theorem IsNearest.unique (hunit : 0 < unit) (hrounded : IsNearest exact unit rounded)
    (hother : IsNearest exact unit other) : rounded = other := by
  obtain ⟨count, rfl, hgap, heven⟩ := hrounded
  obtain ⟨number, rfl, hdistance, hparity⟩ := hother
  have hle := IsNearest.not_lt hunit hgap heven hdistance hparity
  have hge := IsNearest.not_lt hunit hdistance hparity hgap heven
  rw [Nat.le_antisymm (Nat.not_lt.mp hge) (Nat.not_lt.mp hle)]

/-- A multiple of the unit is its own nearest multiple. -/
theorem isNearest_self (hunit : 0 < unit) (hexact : ∃ count : ℕ, exact = count * unit) :
    IsNearest exact unit exact := by
  obtain ⟨count, hcount⟩ := hexact
  rw [IsNearest, sub_self, abs_zero]
  exact ⟨count, hcount, by linarith, fun htie => absurd htie (by linarith)⟩

/-- A rounded number that has a unit ten times as great is the nearest multiple of that, too. -/
theorem IsNearest.coarsen (hunit : 0 < unit) (hrounded : IsNearest exact unit rounded)
    {count : ℕ} (hcount : rounded = count * (10 * unit)) :
    IsNearest exact (10 * unit) rounded := by
  obtain ⟨-, -, hgap, -⟩ := hrounded
  exact ⟨count, hcount, by linarith, fun htie => absurd htie (by linarith)⟩

/-- Between two integers a quotient is rounded to a number between them. -/
theorem roundHalfEven_mem {numerator denominator low high : Nat} (hpositive : 0 < denominator)
    (hlow : low * denominator ≤ numerator) (hhigh : numerator ≤ high * denominator) :
    low ≤ roundHalfEven numerator denominator ∧ roundHalfEven numerator denominator ≤ high := by
  obtain ⟨habove, hbelow, -⟩ := roundHalfEven_bounds hpositive numerator
  generalize roundHalfEven numerator denominator = count at *
  constructor
  · by_contra hlt
    have hstep : (count + 1) * denominator ≤ low * denominator :=
      Nat.mul_le_mul_right _ (by omega)
    rw [Nat.add_mul, Nat.one_mul] at hstep
    omega
  · by_contra hlt
    have hstep : (high + 1) * denominator ≤ count * denominator :=
      Nat.mul_le_mul_right _ (by omega)
    rw [Nat.add_mul, Nat.one_mul] at hstep
    omega

/-! ## The first digit -/

theorem log_eq_of_bounds {exponent : ℤ} (hlower : 10 ^ exponent ≤ exact)
    (hupper : exact < 10 ^ (exponent + 1)) : Int.log 10 exact = exponent := by
  have hpositive : 0 < exact := lt_of_lt_of_le (ten_zpow_pos exponent) hlower
  have hge := (Int.zpow_le_iff_le_log (b := 10) (by decide) hpositive).mp
    (by rwa [Nat.cast_ofNat])
  have hlt := (Int.lt_zpow_iff_log_lt (b := 10) (by decide) hpositive).mp
    (by rwa [Nat.cast_ofNat])
  omega

theorem log_bounds (hpositive : 0 < exact) :
    10 ^ Int.log 10 exact ≤ exact ∧ exact < 10 ^ (Int.log 10 exact + 1) := by
  have hlower := Int.zpow_log_le_self (b := 10) (by decide) hpositive
  have hupper := Int.lt_zpow_succ_log_self (b := 10) (by decide) exact
  rw [Nat.cast_ofNat] at hlower hupper
  exact ⟨hlower, hupper⟩

/-- Powers of ten move the first digit by as many places. -/
theorem log_mul_ten_zpow {number : ℕ} (hpositive : 0 < number) (shift : ℤ) :
    Int.log 10 (number * 10 ^ shift : ℚ) = Nat.log 10 number + shift := by
  have hlower : (10 : ℚ) ^ (Nat.log 10 number : ℤ) ≤ number := by
    rw [zpow_natCast]
    exact_mod_cast Nat.pow_log_le_self 10 hpositive.ne'
  have hupper : (number : ℚ) < 10 ^ (Nat.log 10 number + 1 : ℤ) := by
    have hlt : number < 10 ^ (Nat.log 10 number + 1) :=
      Nat.lt_pow_succ_log_self (by decide) number
    exact_mod_cast hlt
  apply log_eq_of_bounds
  · rw [zpow_add₀ (by norm_num)]
    exact mul_le_mul_of_nonneg_right hlower (ten_zpow_pos shift).le
  · rw [add_right_comm, zpow_add₀ (by norm_num)]
    exact mul_lt_mul_of_pos_right hupper (ten_zpow_pos shift)

theorem digitCount_bounds {number : Nat} (hpositive : 0 < number) :
    ∃ count, digitCount number = count + 1 ∧ 10 ^ count ≤ number ∧ number < 10 ^ (count + 1) := by
  have hcount : 0 < digitCount number := Nat.length_toDigits_pos
  obtain ⟨count, hcount⟩ := Nat.exists_eq_succ_of_ne_zero hcount.ne'
  refine ⟨count, hcount, ?_, ?_⟩
  · cases count with
    | zero => exact hpositive
    | succ count =>
      rw [← Nat.not_lt, ← Nat.length_toDigits_le_iff (by decide) (Nat.succ_pos count)]
      intro hle
      rw [← digitCount, hcount] at hle
      omega
  · rw [← Nat.length_toDigits_le_iff (by decide) (Nat.succ_pos count)]
    exact hcount.le

theorem log_toRat {number : Magnitude} (hnumerator : 0 < number.numerator)
    (hdenominator : 0 < number.denominator) :
    Int.log 10 number.toRat = leadingExponent number := by
  have hpositive : (0 : ℚ) < number.denominator := by exact_mod_cast hdenominator
  rw [leadingExponent]
  split
  · next hle =>
    obtain ⟨count, hcount, hlower, hupper⟩ := digitCount_bounds (Nat.div_pos hle hdenominator)
    rw [Nat.le_div_iff_mul_le hdenominator] at hlower
    rw [Nat.div_lt_iff_lt_mul hdenominator] at hupper
    have hexponent : (digitCount (number.numerator / number.denominator) : ℤ) - 1 = count := by
      omega
    rw [hexponent]
    apply log_eq_of_bounds
    · rw [Magnitude.toRat, zpow_natCast, le_div_iff₀ hpositive]
      exact_mod_cast hlower
    · rw [Magnitude.toRat, div_lt_iff₀ hpositive]
      exact_mod_cast hupper
  · next hlt =>
    have hquotient : 0 < (number.denominator - 1) / number.numerator :=
      Nat.div_pos (by omega) hnumerator
    obtain ⟨count, hcount, hlower, hupper⟩ := digitCount_bounds hquotient
    rw [Nat.le_div_iff_mul_le hnumerator] at hlower
    rw [Nat.div_lt_iff_lt_mul hnumerator] at hupper
    have habove : number.denominator ≤ 10 ^ (count + 1) * number.numerator := by omega
    have hbelow : 10 ^ count * number.numerator < number.denominator := by omega
    rw [hcount]
    apply log_eq_of_bounds
    · rw [Magnitude.toRat, zpow_neg, zpow_natCast, inv_le_iff_one_le_mul₀ (by positivity),
        div_mul_eq_mul_div, one_le_div hpositive, mul_comm]
      exact_mod_cast habove
    · have hexponent : -((count + 1 : ℕ) : ℤ) + 1 = -(count : ℤ) := by omega
      rw [Magnitude.toRat, hexponent, zpow_neg, zpow_natCast, div_lt_iff₀ hpositive,
        inv_mul_eq_div, lt_div_iff₀ (by positivity), mul_comm]
      exact_mod_cast hbelow

/-! ## Rounding to places -/

variable {number : Magnitude}

theorem isNearest_roundToPlaces (hdenominator : 0 < number.denominator) (places : ℕ) :
    IsNearest number.toRat (10 ^ (-places : ℤ))
      (roundToPlaces number places * 10 ^ (-places : ℤ)) := by
  have hnearest := isNearest_roundHalfEven hdenominator (ten_zpow_pos (-places))
    (number.numerator * Nat.pow 10 places)
  have hexact : ((number.numerator * Nat.pow 10 places : ℕ) : ℚ) / number.denominator *
      10 ^ (-places : ℤ) = number.toRat := by
    rw [Magnitude.toRat, zpow_neg, zpow_natCast]
    push_cast [Nat.pow_eq]
    field_simp
  rwa [hexact] at hnearest

/-! ## Rounding to digits -/

/-- The fraction that a number with `places` digits behind its first one stands for. -/
def Scientific.toRat (rounded : Scientific) (places : ℕ) : ℚ :=
  rounded.digits * 10 ^ (rounded.exponent - places)

theorem ten_zpow_eq_div (shift : ℤ) :
    (10 : ℚ) ^ shift = 10 ^ shift.toNat / 10 ^ (-shift).toNat := by
  rw [← zpow_natCast, ← zpow_natCast, ← zpow_sub₀ (by norm_num)]
  congr 1
  omega

/-- What is rounded to digits is the number with its point behind the last of them. -/
theorem quotient_eq (number : Magnitude) (shift : ℤ) :
    ((number.numerator * 10 ^ shift.toNat : ℕ) : ℚ) /
        ((number.denominator * 10 ^ (-shift).toNat : ℕ) : ℚ) =
      number.toRat * 10 ^ shift := by
  rw [ten_zpow_eq_div, Magnitude.toRat]
  push_cast
  exact mul_div_mul_comm _ _ _ _

theorem digitUnit_succ (exact : ℚ) (places : ℕ) :
    digitUnit exact (places + 1) = 10 ^ (Int.log 10 exact - places) := by
  rw [digitUnit]
  congr 1
  omega

/-- The digits of a number, with a carry into a new first digit when they are one too many. -/
theorem exists_roundToDigits (hnumerator : 0 < number.numerator)
    (hdenominator : 0 < number.denominator) (places : ℕ) :
    ∃ digits : ℕ,
      IsNearest number.toRat (digitUnit number.toRat (places + 1))
        (digits * digitUnit number.toRat (places + 1)) ∧
      10 ^ places ≤ digits ∧ digits ≤ 10 ^ (places + 1) ∧
      roundToDigits number places =
        if digits = 10 ^ (places + 1) then ⟨10 ^ places, Int.log 10 number.toRat + 1⟩
        else ⟨digits, Int.log 10 number.toRat⟩ := by
  have hpositive : 0 < number.toRat :=
    div_pos (by exact_mod_cast hnumerator) (by exact_mod_cast hdenominator)
  obtain ⟨hlower, hupper⟩ := log_bounds hpositive
  rw [digitUnit_succ, roundToDigits, if_neg hnumerator.ne', ← log_toRat hnumerator hdenominator]
  simp only [Nat.pow_eq]
  generalize Int.log 10 number.toRat = exponent at *
  have hquotient := quotient_eq number (places - exponent)
  have hbottom : 0 < number.denominator * 10 ^ (-(places - exponent)).toNat := by positivity
  generalize number.numerator * 10 ^ (places - exponent).toNat = top at *
  generalize number.denominator * 10 ^ (-(places - exponent)).toNat = bottom at *
  have hbottomRat : (0 : ℚ) < bottom := by exact_mod_cast hbottom
  have hscale := ten_zpow_pos (places - exponent)
  have hfirst : (10 : ℚ) ^ places = 10 ^ exponent * 10 ^ (places - exponent) := by
    rw [← zpow_natCast, ← zpow_add₀ (by norm_num), add_sub_cancel]
  have hbounds : 10 ^ places * bottom ≤ top ∧ top ≤ 10 ^ (places + 1) * bottom := by
    have hbelow : (10 : ℚ) ^ places * bottom ≤ top := by
      rw [← le_div_iff₀ hbottomRat, hquotient, hfirst]
      exact mul_le_mul_of_nonneg_right hlower hscale.le
    have habove : (top : ℚ) ≤ 10 ^ (places + 1) * bottom := by
      rw [← div_le_iff₀ hbottomRat, hquotient, pow_succ, hfirst, mul_right_comm,
        ← zpow_add_one₀ (by norm_num)]
      exact mul_le_mul_of_nonneg_right hupper.le hscale.le
    exact ⟨by exact_mod_cast hbelow, by exact_mod_cast habove⟩
  obtain ⟨hlow, hhigh⟩ := roundHalfEven_mem hbottom hbounds.1 hbounds.2
  have hnearest := isNearest_roundHalfEven hbottom (ten_zpow_pos (exponent - places)) top
  rw [hquotient, mul_assoc, ← zpow_add₀ (by norm_num), sub_add_sub_cancel, sub_self, zpow_zero,
    mul_one] at hnearest
  exact ⟨_, hnearest, hlow, hhigh, rfl⟩

theorem isNearest_roundToDigits (hdenominator : 0 < number.denominator) (places : ℕ) :
    IsNearest number.toRat (digitUnit number.toRat (places + 1))
      ((roundToDigits number places).toRat places) := by
  rcases Nat.eq_zero_or_pos number.numerator with hzero | hnumerator
  · have hexact : number.toRat = 0 := by rw [Magnitude.toRat, hzero, Nat.cast_zero, zero_div]
    rw [roundToDigits, if_pos hzero, Scientific.toRat, Nat.cast_zero, zero_mul, hexact]
    exact isNearest_self (digitUnit_pos 0 _) ⟨0, by rw [Nat.cast_zero, zero_mul]⟩
  · obtain ⟨digits, hnearest, -, -, heq⟩ := exists_roundToDigits hnumerator hdenominator places
    rw [heq]
    split
    · next hcarry =>
      have hvalue : (10 : ℚ) ^ places * 10 ^ (Int.log 10 number.toRat + 1 - places) =
          10 ^ (places + 1) * 10 ^ (Int.log 10 number.toRat - places) := by
        rw [add_sub_right_comm, zpow_add_one₀ (by norm_num), pow_succ]
        ring
      rw [hcarry, digitUnit_succ] at hnearest
      rw [Scientific.toRat, digitUnit_succ]
      push_cast at hnearest ⊢
      rwa [hvalue]
    · rwa [digitUnit_succ] at hnearest ⊢

/-- Unless the number is zero there are as many digits as asked for. -/
theorem roundToDigits_bounds (hnumerator : 0 < number.numerator)
    (hdenominator : 0 < number.denominator) (places : ℕ) :
    10 ^ places ≤ (roundToDigits number places).digits ∧
      (roundToDigits number places).digits < 10 ^ (places + 1) := by
  obtain ⟨digits, -, hlow, hhigh, heq⟩ := exists_roundToDigits hnumerator hdenominator places
  rw [heq]
  split
  · exact ⟨Nat.le_refl _, Nat.pow_lt_pow_right (by decide) (Nat.lt_succ_self places)⟩
  · next hcarry => exact ⟨hlow, Nat.lt_of_le_of_ne hhigh hcarry⟩

theorem digits_roundToDigits_lt (hdenominator : 0 < number.denominator) (places : ℕ) :
    (roundToDigits number places).digits < 10 ^ (places + 1) := by
  rcases Nat.eq_zero_or_pos number.numerator with hzero | hnumerator
  · rw [roundToDigits, if_pos hzero]
    exact Nat.pow_pos (by decide)
  · exact (roundToDigits_bounds hnumerator hdenominator places).2

theorem roundToDigits_of_eq_zero (hdenominator : 0 < number.denominator)
    (hzero : number.toRat = 0) (places : ℕ) : roundToDigits number places = ⟨0, 0⟩ := by
  rw [Magnitude.toRat, div_eq_zero_iff, Nat.cast_eq_zero, Nat.cast_eq_zero,
    or_iff_left hdenominator.ne'] at hzero
  exact if_pos hzero

theorem digits_roundToDigits_lt_iff (hdenominator : 0 < number.denominator) (places : ℕ) :
    (roundToDigits number places).digits < 10 ^ places ↔ number.toRat = 0 := by
  constructor
  · intro hlt
    rcases Nat.eq_zero_or_pos number.numerator with hzero | hnumerator
    · rw [Magnitude.toRat, hzero, Nat.cast_zero, zero_div]
    · have hge := (roundToDigits_bounds hnumerator hdenominator places).1
      exact absurd hlt (Nat.not_lt.mpr hge)
  · intro hzero
    rw [roundToDigits_of_eq_zero hdenominator hzero]
    exact Nat.pow_pos (by decide)

/-- The first digit of a rounded number is where its exponent says. -/
theorem log_toRat_roundToDigits (hdenominator : 0 < number.denominator) (places : ℕ) :
    Int.log 10 ((roundToDigits number places).toRat places) =
      (roundToDigits number places).exponent := by
  rcases Nat.eq_zero_or_pos number.numerator with hzero | hnumerator
  · rw [roundToDigits, if_pos hzero, Scientific.toRat, Nat.cast_zero, zero_mul, Int.log_zero_right]
  · obtain ⟨hlower, hupper⟩ := roundToDigits_bounds hnumerator hdenominator places
    have hpositive := (Nat.pow_pos (by decide)).trans_le hlower
    rw [Scientific.toRat, log_mul_ten_zpow hpositive,
      Nat.log_eq_of_pow_le_of_lt_pow hlower hupper, add_sub_cancel]

end Decimal

end LogRelay
