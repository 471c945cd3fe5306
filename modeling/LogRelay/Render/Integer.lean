import LogRelay.Render.Field

/-!
# Integers as text

Integer conversions read as many low bits of their argument as its promoted class
has, and of those as many as the length modifier leaves.
-/

namespace LogRelay.Render

open LogRelay.Format LogRelay.Text

/-- The bits that a conversion prints: `hh` and `h` narrow the promoted class. -/
def printedBits (spec : Spec) : Nat :=
  match spec.length with
  | .char => 8
  | .short => 16
  | _ => 8 * spec.kind.promotedSize

/-- The two's complement value of the printed bits. -/
def signedValue (spec : Spec) (bits : UInt64) : Int :=
  Int.bmod bits.toNat (Nat.pow 2 (printedBits spec))

def unsignedValue (spec : Spec) (bits : UInt64) : Nat :=
  bits.toNat % Nat.pow 2 (printedBits spec)

/-- Upper-case form of the digits beyond nine. -/
def upperDigits (digits : List Char) : List Char :=
  digits.map Char.toUpper

/-- The digits of a number in the base of a conversion. -/
def digitsFor : Conversion → Nat → List Char
  | .o, number => Nat.toDigits 8 number
  | .x, number => Nat.toDigits 16 number
  | .X, number => upperDigits (Nat.toDigits 16 number)
  | _, number => Nat.toDigits 10 number

/-- The digits left once the precision is applied: none for zero at precision
zero. -/
def shownDigits (precision : Option Nat) (number : Nat) (digits : List Char) : List Char :=
  if precision = some 0 ∧ number = 0 then [] else digits

/-- The zeros a precision asks for in front of digits. -/
def leadingZeros (precision : Option Nat) (digits : List Char) : Nat :=
  precision.getD 0 - digits.length

def signedField (spec : Spec) (bits : UInt64) : Field :=
  let value := signedValue spec bits
  let digits := shownDigits spec.precision value.natAbs (digitsFor spec.conversion value.natAbs)
  { lead := signText spec.flags (value < 0)
    body := [.run '0' (leadingZeros spec.precision digits), .chars digits]
    zeroFill := spec.precision.isNone }

/-- The prefix of alternate form: hexadecimal numbers other than zero have one. -/
def basePrefix (spec : Spec) (value : Nat) : List Char :=
  if spec.flags.alternate ∧ value ≠ 0 then
    match spec.conversion with
    | .x => ['0', 'x']
    | .X => ['0', 'X']
    | _ => []
  else []

/-- In alternate form octal digits start with a zero, and one is added unless the
precision or the digits already provide it. -/
def octalDigits (spec : Spec) (digits : List Char) : List Char :=
  if spec.flags.alternate ∧ spec.conversion = .o ∧ leadingZeros spec.precision digits = 0 ∧
      digits.head? ≠ some '0' then
    '0' :: digits
  else digits

def unsignedField (spec : Spec) (bits : UInt64) : Field :=
  let value := unsignedValue spec bits
  let digits := shownDigits spec.precision value (digitsFor spec.conversion value)
  { lead := basePrefix spec value
    body := [.run '0' (leadingZeros spec.precision digits), .chars (octalDigits spec digits)]
    zeroFill := spec.precision.isNone }

end LogRelay.Render
