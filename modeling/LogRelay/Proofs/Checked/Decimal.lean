import LogRelay.Decimal.Numeral
import LogRelay.Proofs.Checked.Basic

/-!
# Decimal text taken apart again

Exponential notation is first written with a mantissa and an exponent around an `e`, and
these are then read back out of the text.  General notation chooses by that exponent, and
subtracts it from the precision.  Both work for every double: the text has one `e`, what
follows is a number, and that number is far from the end of its range.
-/

namespace LogRelay.Decimal

open LogRelay.Checked LogRelay.Text

/-! ## Exponents read back -/

def integerText (value : Int) : List Char :=
  if value < 0 then '-' :: Nat.toDigits 10 value.natAbs else Nat.toDigits 10 value.natAbs

/-- The text of exponential notation: a mantissa, an `e`, and the exponent. -/
def scientificText (number : Magnitude) (places : Nat) : List Char :=
  let rounded := roundToDigits number places
  placePoint rounded.digits places ++ 'e' :: integerText rounded.exponent

/-- The parts of a text before and behind the first `separator`. -/
def splitOnce? (separator : Char) (text : List Char) : Option (List Char × List Char) :=
  match text.dropWhile (· ≠ separator) with
  | [] => none
  | _ :: behind => some (text.takeWhile (· ≠ separator), behind)

def parseDigits? (digits : List Char) : Option Nat :=
  if digits ≠ [] ∧ digits.all Char.isDigit then some (Nat.ofDigitChars 10 digits 0) else none

/-- The integer of 32 bits that a text denotes. -/
def parseInteger? (text : List Char) : Option Int :=
  match text with
  | '-' :: digits => do
    let value ← parseDigits? digits
    guard (value ≤ Nat.pow 2 31)
    return -value
  | '+' :: digits => do
    let value ← parseDigits? digits
    guard (value < Nat.pow 2 31)
    return value
  | digits => do
    let value ← parseDigits? digits
    guard (value < Nat.pow 2 31)
    return value

/-- A number rounded to one digit and `places` more, as a mantissa and an exponent. -/
def scientific? (number : Magnitude) (places : Nat) : Option (List Char × Int) := do
  let (mantissa, exponent) ← splitOnce? 'e' (scientificText number places)
  let exponent ← parseInteger? exponent
  return (mantissa, exponent)

theorem splitOnce?_append {separator : Char} {before : List Char} (hbefore : separator ∉ before)
    (behind : List Char) :
    splitOnce? separator (before ++ separator :: behind) = some (before, behind) := by
  have hdiffer : ∀ char ∈ before, decide (char ≠ separator) = true := by
    intro char hchar
    exact decide_eq_true fun heq => hbefore (heq ▸ hchar)
  rw [splitOnce?, List.dropWhile_append_of_pos hdiffer, List.takeWhile_append_of_pos hdiffer,
    List.dropWhile_cons_of_neg (by simp), List.takeWhile_cons_of_neg (by simp), List.append_nil]

/-- What was written as digits is read back. -/
theorem parseDigits?_toDigits (number : Nat) :
    parseDigits? (Nat.toDigits 10 number) = some number := by
  have hdigits : (Nat.toDigits 10 number).all Char.isDigit = true :=
    List.all_eq_true.mpr fun _ => Nat.isDigit_of_mem_toDigits (by decide) (by decide)
  rw [parseDigits?, if_pos ⟨Nat.toDigits_ne_nil, hdigits⟩, Nat.ofDigitChars_ten_toDigits]

/-- What was written as an integer is read as that integer. -/
theorem parseInteger?_integerText {value : Int} (hsmall : value.natAbs < Nat.pow 2 31) :
    parseInteger? (integerText value) = some value := by
  rw [integerText]
  split
  · next hnegative =>
    rw [parseInteger?, parseDigits?_toDigits]
    simp only [Option.bind_eq_bind, Option.bind_some, guard_of (Nat.le_of_lt hsmall)]
    exact congrArg some (by omega)
  · next hpositive =>
    have hdigit : ∀ char ∈ Nat.toDigits 10 value.natAbs, char.isDigit = true :=
      fun _ => Nat.isDigit_of_mem_toDigits (by decide) (by decide)
    have hplain : parseInteger? (Nat.toDigits 10 value.natAbs) = (do
        let number ← parseDigits? (Nat.toDigits 10 value.natAbs)
        guard (number < Nat.pow 2 31)
        return number) := by
      unfold parseInteger?
      split
      · next heq => exact absurd (hdigit '-' (heq ▸ List.mem_cons_self)) (by decide)
      · next heq => exact absurd (hdigit '+' (heq ▸ List.mem_cons_self)) (by decide)
      · rfl
    rw [hplain, parseDigits?_toDigits]
    simp only [Option.bind_eq_bind, Option.bind_some, guard_of hsmall]
    exact congrArg some (by omega)

theorem not_mem_placePoint (number places : Nat) : 'e' ∉ placePoint number places := by
  have hdigits : 'e' ∉ (Nat.toDigits 10 number).leftpad (places + 1) '0' := by
    intro hmem
    rw [List.leftpad, List.mem_append] at hmem
    rcases hmem with hzero | hdigit
    · exact absurd (List.eq_of_mem_replicate hzero) (by decide)
    · exact absurd (Nat.isDigit_of_mem_toDigits (by decide) (by decide) hdigit) (by decide)
  intro hmem
  simp only [placePoint] at hmem
  split at hmem
  · exact hdigits (List.mem_of_mem_take hmem)
  · rw [List.mem_append, List.mem_cons] at hmem
    rcases hmem with hwhole | hpoint | hfraction
    · exact hdigits (List.mem_of_mem_take hwhole)
    · exact absurd hpoint (by decide)
    · exact hdigits (List.mem_of_mem_drop hfraction)

/-! ## The exponents of doubles -/

/-- More decimal digits than a double has before its point, and more places than it needs
for its first digit behind it. -/
def exponentLimit : Nat := 1100

/-- The magnitude is made of numbers of as many digits at most. -/
structure Moderate (number : Magnitude) : Prop where
  numerator_lt : number.numerator < Nat.pow 10 exponentLimit
  denominator_lt : number.denominator < Nat.pow 10 exponentLimit

theorem two_pow_lt {exponent limit : Nat} (hexponent : exponent < limit) :
    Nat.pow 2 exponent < Nat.pow 10 limit :=
  Nat.lt_of_le_of_lt (Nat.pow_le_pow_left (by decide) exponent)
    (Nat.pow_lt_pow_right (by decide) hexponent)

theorem significand_lt (number : Binary64) : number.significand < Nat.pow 2 53 := by
  have hfraction : number.fractionField < Nat.pow 2 52 := Nat.mod_lt _ (by decide)
  have hdouble : Nat.pow 2 53 = Nat.pow 2 52 + Nat.pow 2 52 := rfl
  rw [Binary64.significand]
  split <;> omega

/-- A double is a fraction of two numbers below the limit. -/
theorem moderate_magnitude (number : Binary64) : Moderate number.magnitude := by
  have hfield : number.exponentField < Nat.pow 2 11 := Nat.mod_lt _ (by decide)
  have hscale : number.scaleField < Nat.pow 2 11 := Nat.max_lt.mpr ⟨hfield, by decide⟩
  have hsignificand := significand_lt number
  have hlimits : 53 + (Nat.pow 2 11 - 1075) < exponentLimit ∧ 1075 < exponentLimit := by decide
  constructor
  · calc
      number.significand * Nat.pow 2 (number.scaleField - 1075) <
          Nat.pow 2 53 * Nat.pow 2 (number.scaleField - 1075) :=
        Nat.mul_lt_mul_of_pos_right hsignificand (Nat.pow_pos (by decide))
      _ = Nat.pow 2 (53 + (number.scaleField - 1075)) := (Nat.pow_add _ _ _).symm
      _ < Nat.pow 10 exponentLimit := two_pow_lt (by omega)
  · exact two_pow_lt (by omega)

theorem digitCount_le {number limit : Nat} (hlimit : 0 < limit)
    (hsize : number < Nat.pow 10 limit) : digitCount number ≤ limit :=
  (Nat.length_toDigits_le_iff (by decide) hlimit).mpr hsize

theorem natAbs_leadingExponent_le {number : Magnitude} (hmoderate : Moderate number) :
    (leadingExponent number).natAbs ≤ exponentLimit := by
  have hlimit : 0 < exponentLimit := by decide
  obtain ⟨hnumerator, hdenominator⟩ := hmoderate
  rw [leadingExponent]
  split
  · have hquotient := digitCount_le hlimit (Nat.lt_of_le_of_lt
      (Nat.div_le_self number.numerator number.denominator) hnumerator)
    have hpositive : 0 < digitCount (number.numerator / number.denominator) :=
      List.length_pos_iff.mpr Nat.toDigits_ne_nil
    omega
  · have hquotient := digitCount_le hlimit (Nat.lt_of_le_of_lt
      (Nat.div_le_self (number.denominator - 1) number.numerator)
      (Nat.lt_of_le_of_lt (Nat.sub_le _ _) hdenominator))
    omega

/-- The exponent fits into 32 bits, with room for the digits of any precision kept. -/
theorem natAbs_exponent_lt {number : Magnitude} (hmoderate : Moderate number) (places : Nat) :
    (roundToDigits number places).exponent.natAbs < Nat.pow 2 31 := by
  have hleading := natAbs_leadingExponent_le hmoderate
  have hlimit : exponentLimit + 1 < Nat.pow 2 31 := by decide
  simp only [roundToDigits]
  split
  · decide
  · split
    · simp only
      omega
    · simp only
      omega

/-- Taking apart what exponential notation was written as gives back what it was written
from. -/
theorem scientific?_eq {number : Magnitude} (hmoderate : Moderate number) (places : Nat) :
    scientific? number places =
      some (placePoint (roundToDigits number places).digits places,
        (roundToDigits number places).exponent) := by
  rw [scientific?, scientificText, splitOnce?_append (not_mem_placePoint _ _)]
  simp only [Option.bind_eq_bind, Option.bind_some,
    parseInteger?_integerText (natAbs_exponent_lt hmoderate places)]
  rfl

/-! ## Numerals -/

/-- Drops the zeros at the end of a fraction, and the point when none is left, by cutting the
text where they begin. -/
def trimFraction? (digits : List Char) : Option (List Char) :=
  if '.' ∈ digits then slice? 0 (byteLength (trimEnd '.' (trimEnd '0' digits))) digits
  else some digits

def exponential? (number : Magnitude) (precision : Nat) (alternate upper : Bool) :
    Option Numeral := do
  let (digits, exponent) ← scientific? number (min precision exactDigits)
  return {
    digits := if alternate then withPoint digits else digits
    zeros := precision - exactDigits
    exponent := exponentText exponent upper }

/-- The exponent that general notation goes by. -/
def generalExponent? (number : Magnitude) (places : Nat) : Option Int :=
  if number.numerator = 0 then some 0
  else do
    let (_, exponent) ← scientific? number (min places exactDigits)
    return exponent

/-- The places that general notation has in fixed form. -/
def generalPlaces? (places : Nat) (exponent : Int) : Option Nat :=
  if exponent < 0 then some (min (places + exponent.natAbs) Format.maxNumber)
  else sub? places exponent.toNat

def general? (number : Magnitude) (precision : Nat) (alternate upper : Bool) :
    Option Numeral := do
  let significant := max precision 1
  let places ← sub? significant 1
  let exponent ← generalExponent? number places
  if -4 ≤ exponent ∧ (exponent < 0 ∨ exponent.toNat < significant) then
    let fraction ← generalPlaces? places exponent
    let numeral := fixed number fraction alternate
    if alternate then return numeral
    else
      let digits ← trimFraction? numeral.digits
      return { digits }
  else
    let numeral ← exponential? number places alternate upper
    if alternate then return numeral
    else
      let digits ← trimFraction? numeral.digits
      return { numeral with digits, zeros := 0 }

theorem trimEnd_isPrefix (char : Char) (text : List Char) : trimEnd char text <+: text := by
  have hsuffix := List.dropWhile_suffix (l := text.reverse) (· = char)
  have hprefix := List.reverse_prefix.mpr hsuffix
  rwa [List.reverse_reverse] at hprefix

theorem trimFraction?_eq (digits : List Char) :
    trimFraction? digits = some (trimFraction digits) := by
  rw [trimFraction?, trimFraction]
  split
  · obtain ⟨rest, hrest⟩ := (trimEnd_isPrefix '.' _).trans (trimEnd_isPrefix '0' digits)
    have hslice := slice?_append [] (trimEnd '.' (trimEnd '0' digits)) rest
    rwa [List.nil_append, hrest, byteLength_nil, Nat.zero_add] at hslice
  · rfl

theorem exponential?_eq {number : Magnitude} (hmoderate : Moderate number) (precision : Nat)
    (alternate upper : Bool) :
    exponential? number precision alternate upper =
      some (exponential number precision alternate upper) := by
  rw [exponential?, scientific?_eq hmoderate]
  rfl

theorem generalExponent?_eq {number : Magnitude} (hmoderate : Moderate number) (places : Nat) :
    generalExponent? number places =
      some (roundToDigits number (min places exactDigits)).exponent := by
  rw [generalExponent?]
  split
  · next hzero => rw [roundToDigits, if_pos hzero]
  · rw [scientific?_eq hmoderate]
    rfl

/-- The exponent never exceeds the places that it is taken off. -/
theorem generalPlaces?_eq {significant : Nat} {exponent : Int} (hpositive : 1 ≤ significant)
    (hfixed : exponent < significant) :
    generalPlaces? (significant - 1) exponent =
      some (if exponent < 0 then min (significant - 1 + exponent.natAbs) Format.maxNumber
        else significant - 1 - exponent.natAbs) := by
  rw [generalPlaces?]
  split
  · rfl
  · have hle : exponent.toNat ≤ significant - 1 := by omega
    rw [sub?_of_le hle]
    congr 2
    omega

/-- General notation takes no slice out of range and parses no exponent that is not there. -/
theorem general?_eq {number : Magnitude} (hmoderate : Moderate number) (precision : Nat)
    (alternate upper : Bool) :
    general? number precision alternate upper =
      some (general number precision alternate upper) := by
  have hpositive : 1 ≤ max precision 1 := Nat.le_max_right _ _
  simp only [general?, general, sub?_of_le hpositive, generalExponent?_eq hmoderate,
    Option.bind_eq_bind, Option.bind_some]
  generalize (roundToDigits number (min (max precision 1 - 1) exactDigits)).exponent = exponent
  have hcondition : (-4 ≤ exponent ∧ (exponent < 0 ∨ exponent.toNat < max precision 1)) ↔
      (-4 ≤ exponent ∧ exponent < (max precision 1 : Nat)) := by omega
  simp only [hcondition]
  split
  · next hfixed =>
    simp only [generalPlaces?_eq hpositive hfixed.2, trimFraction?_eq, Option.bind_some]
    cases alternate <;> rfl
  · simp only [exponential?_eq hmoderate, trimFraction?_eq, Option.bind_some]
    cases alternate <;> rfl

end LogRelay.Decimal
