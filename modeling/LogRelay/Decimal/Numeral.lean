import LogRelay.Decimal.Rounding
import LogRelay.Format.Spec
import LogRelay.Text.Piece

/-!
# Decimal text of numbers

Fixed, exponential and general notation.  A binary fraction has at most 1074
decimal places and 767 significant digits, so no digit past `exactDigits` places
is other than zero; those zeros are kept as a count and not as text.
-/

namespace LogRelay.Decimal

open LogRelay.Text

/-- More places than any double needs to be exact. -/
def exactDigits : Nat := 1100

/-- A numeral: its digits and point, zeros that follow them, and an exponent. -/
structure Numeral where
  digits : List Char
  zeros : Nat := 0
  exponent : List Char := []
  deriving Repr, DecidableEq

def Numeral.pieces (numeral : Numeral) : List Piece :=
  [.chars numeral.digits, .run '0' numeral.zeros, .chars numeral.exponent]

/-- The digits of `number`, at least `places + 1` of them, with a point before the
last `places`; without places there is no point. -/
def placePoint (number places : Nat) : List Char :=
  let digits := (Nat.toDigits 10 number).leftpad (places + 1) '0'
  let whole := digits.take (digits.length - places)
  if places = 0 then whole else whole ++ '.' :: digits.drop (digits.length - places)

/-- An exponent with its letter, its sign and at least two digits. -/
def exponentText (exponent : Int) (upper : Bool) : List Char :=
  (if upper then 'E' else 'e') :: (if exponent < 0 then '-' else '+') ::
    (Nat.toDigits 10 exponent.natAbs).leftpad 2 '0'

/-- Adds the point that alternate form wants even without a fraction. -/
def withPoint (digits : List Char) : List Char :=
  if '.' ∈ digits then digits else digits ++ ['.']

/-- Drops `char` from the end of a text as often as it stands there. -/
def trimEnd (char : Char) (text : List Char) : List Char :=
  (text.reverse.dropWhile (· = char)).reverse

/-- Drops the zeros at the end of a fraction, and the point when none is left. -/
def trimFraction (digits : List Char) : List Char :=
  if '.' ∈ digits then trimEnd '.' (trimEnd '0' digits) else digits

/-- Fixed notation with `precision` places. -/
def fixed (number : Magnitude) (precision : Nat) (alternate : Bool) : Numeral :=
  let places := min precision exactDigits
  let digits := placePoint (roundToPlaces number places) places
  { digits := if alternate then withPoint digits else digits
    zeros := precision - exactDigits }

/-- Exponential notation with `precision` places after the first digit. -/
def exponential (number : Magnitude) (precision : Nat) (alternate upper : Bool) : Numeral :=
  let places := min precision exactDigits
  let rounded := roundToDigits number places
  let digits := placePoint rounded.digits places
  { digits := if alternate then withPoint digits else digits
    zeros := precision - exactDigits
    exponent := exponentText rounded.exponent upper }

/-- General notation with `precision` significant digits, at least one: fixed when
the rounded number's exponent lies between -4 and the precision, exponential
otherwise.  Only alternate form keeps the zeros at the end of the fraction. -/
def general (number : Magnitude) (precision : Nat) (alternate upper : Bool) : Numeral :=
  let significant := max precision 1
  let exponent := (roundToDigits number (min (significant - 1) exactDigits)).exponent
  if -4 ≤ exponent ∧ exponent < significant then
    let places :=
      if exponent < 0 then min (significant - 1 + exponent.natAbs) Format.maxNumber
      else significant - 1 - exponent.natAbs
    let numeral := fixed number places alternate
    if alternate then numeral
    else { digits := trimFraction numeral.digits }
  else
    let numeral := exponential number (significant - 1) alternate upper
    if alternate then numeral
    else { numeral with digits := trimFraction numeral.digits, zeros := 0 }

end LogRelay.Decimal
