/-!
# Double-precision numbers by their bits

A double is kept as its 64 bits, so that every NaN payload and the sign of zero
survive recording.  A finite one has an exact magnitude, a fraction of two
naturals whose denominator is a power of two; all printing works on that.
-/

namespace LogRelay

/-- A double-precision number, given by its bits. -/
structure Binary64 where
  bits : UInt64
  deriving Repr, DecidableEq

namespace Binary64

/-- True when the sign bit is set, also for negative zero and NaN. -/
def isNegative (number : Binary64) : Bool :=
  Nat.pow 2 63 ≤ number.bits.toNat

def exponentField (number : Binary64) : Nat :=
  number.bits.toNat / Nat.pow 2 52 % Nat.pow 2 11

def fractionField (number : Binary64) : Nat :=
  number.bits.toNat % Nat.pow 2 52

def isFinite (number : Binary64) : Bool :=
  number.exponentField ≠ 2047

def isNaN (number : Binary64) : Bool :=
  number.exponentField = 2047 ∧ number.fractionField ≠ 0

/-- The integer that a finite number multiplies a power of two with; normal
numbers have a hidden leading bit. -/
def significand (number : Binary64) : Nat :=
  if number.exponentField = 0 then number.fractionField
  else Nat.pow 2 52 + number.fractionField

/-- The exponent field that the magnitude is scaled by: subnormal numbers share
the scale of the smallest normal ones. -/
def scaleField (number : Binary64) : Nat :=
  max number.exponentField 1

end Binary64

/-- The non-negative number `numerator / denominator`. -/
structure Magnitude where
  numerator : Nat
  denominator : Nat
  deriving Repr, DecidableEq

/-- The exact absolute value of a finite number. -/
def Binary64.magnitude (number : Binary64) : Magnitude :=
  { numerator := number.significand * Nat.pow 2 (number.scaleField - 1075)
    denominator := Nat.pow 2 (1075 - number.scaleField) }

/-- A single-precision number, given by its bits. -/
structure Binary32 where
  bits : UInt32
  deriving Repr, DecidableEq

/-- The double of the same value.  A NaN keeps its sign and payload and becomes
quiet. -/
def Binary32.widen (number : Binary32) : Binary64 :=
  let bits := number.bits.toNat
  let sign := bits / Nat.pow 2 31
  let exponent := bits / Nat.pow 2 23 % Nat.pow 2 8
  let fraction := bits % Nat.pow 2 23
  let (wideExponent, wideFraction) :=
    if exponent = 255 then
      (2047, if fraction = 0 then 0 else fraction % Nat.pow 2 22 * Nat.pow 2 29 + Nat.pow 2 51)
    else if exponent ≠ 0 then
      (exponent + 896, fraction * Nat.pow 2 29)
    else if fraction = 0 then
      (0, 0)
    else
      (fraction.log2 + 874, (fraction - Nat.pow 2 fraction.log2) * Nat.pow 2 (52 - fraction.log2))
  ⟨UInt64.ofNat (sign * Nat.pow 2 63 + wideExponent * Nat.pow 2 52 + wideFraction)⟩

end LogRelay
