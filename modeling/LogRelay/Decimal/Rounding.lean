import LogRelay.Binary64

/-!
# Rounding to decimal places and digits

The exact value of a number is rounded once, to the nearest decimal of the
wanted length and to the even neighbour when two are equally near.
-/

namespace LogRelay.Decimal

/-- The integer nearest to `numerator / denominator`; of two equally near ones the
even one. -/
def roundHalfEven (numerator denominator : Nat) : Nat :=
  let quotient := numerator / denominator
  let remainder := numerator % denominator
  if 2 * remainder < denominator then quotient
  else if denominator < 2 * remainder then quotient + 1
  else quotient + quotient % 2

/-- The multiple of `10 ^ -places` nearest to the number, counted in that unit. -/
def roundToPlaces (number : Magnitude) (places : Nat) : Nat :=
  roundHalfEven (number.numerator * Nat.pow 10 places) number.denominator

/-- The number of decimal digits of a positive natural. -/
def digitCount (number : Nat) : Nat :=
  (Nat.toDigits 10 number).length

/-- The decimal exponent of a positive number: the power of ten of its first
digit. -/
def leadingExponent (number : Magnitude) : Int :=
  if number.denominator ≤ number.numerator then
    (digitCount (number.numerator / number.denominator) : Int) - 1
  else
    -(digitCount ((number.denominator - 1) / number.numerator) : Int)

/-- A number `digits * 10 ^ (exponent - places)` with its first digit at the power
`exponent` of ten. -/
structure Scientific where
  digits : Nat
  exponent : Int
  deriving Repr, DecidableEq

/-- The number rounded to one digit and `places` more.  Rounding up may carry into
a new first digit; zero has exponent zero. -/
def roundToDigits (number : Magnitude) (places : Nat) : Scientific :=
  if number.numerator = 0 then ⟨0, 0⟩
  else
    let exponent := leadingExponent number
    let shift := (places : Int) - exponent
    let digits := roundHalfEven (number.numerator * Nat.pow 10 shift.toNat)
      (number.denominator * Nat.pow 10 (-shift).toNat)
    if digits = Nat.pow 10 (places + 1) then ⟨Nat.pow 10 places, exponent + 1⟩
    else ⟨digits, exponent⟩

end LogRelay.Decimal
