import LogRelay.Argument
import LogRelay.Decimal.Numeral
import LogRelay.Render.Integer

/-!
# Values as text

What each conversion makes of a value of its class.  A value of another class, or
no value, is shown by a marker, which no width or flag changes.
-/

namespace LogRelay.Render

open LogRelay.Format LogRelay.Text LogRelay.Decimal

/-- Stands where a value is missing or does not match its conversion. -/
def mismatchMarker : List Char := ['<', '?', '>']

/-- The character with the given code; a replacement character if there is none. -/
def charOfCode (code : Nat) : Char :=
  if code.isValidChar then Char.ofNat code else '\uFFFD'

def charField (bits : UInt64) : Field :=
  { body := [.chars [charOfCode (bits.toNat % Nat.pow 2 32)]] }

/-- The text up to the precision, which counts bytes and never splits a
character. -/
def textField (spec : Spec) (text : String) : Field :=
  let shown :=
    match spec.precision with
    | some limit => fit limit text.toList
    | none => text.toList
  { body := [.chars shown] }

def pointerField (address : UInt64) : Field :=
  if address = 0 then { body := [.chars "(nil)".toList] }
  else { lead := ['0', 'x'], body := [.chars (Nat.toDigits 16 address.toNat)] }

/-- The word for a number that is not finite. -/
def specialText (number : Binary64) (upper : Bool) : List Char :=
  match number.isNaN, upper with
  | true, false => "nan".toList
  | true, true => "NAN".toList
  | false, false => "inf".toList
  | false, true => "INF".toList

def numeralFor (spec : Spec) (number : Magnitude) : Numeral :=
  let precision := spec.precision.getD 6
  let alternate := spec.flags.alternate
  let upper := spec.conversion.isUpper
  match spec.conversion with
  | .f | .F => fixed number precision alternate
  | .e | .E => exponential number precision alternate upper
  | _ => general number precision alternate upper

def realField (spec : Spec) (number : Binary64) : Field :=
  let lead := signText spec.flags number.isNegative
  if number.isFinite then
    { lead, body := (numeralFor spec number.magnitude).pieces, zeroFill := true }
  else
    { lead, body := [.chars (specialText number spec.conversion.isUpper)] }

/-- The field that a conversion makes of a value of its class, if it shows one. -/
def field? (spec : Spec) (value : Value) : Option Field :=
  match spec.conversion, value with
  | .d, .int bits | .i, .int bits => some (signedField spec bits)
  | .o, .int bits | .u, .int bits | .x, .int bits | .X, .int bits =>
    some (unsignedField spec bits)
  | .c, .int bits => some (charField bits)
  | .f, .double number | .F, .double number | .e, .double number | .E, .double number
  | .g, .double number | .G, .double number => some (realField spec number)
  | .s, .str static => some (textField spec static.text)
  | .p, .pointer address => some (pointerField address)
  | _, _ => none

/-- The text of a value under a conversion.  `%n` takes its address and shows
nothing. -/
def renderValue (spec : Spec) (value : Value) : List Piece :=
  match spec.conversion, value with
  | .n, .pointer _ => []
  | _, _ =>
    match field? spec value with
    | some field => field.pad spec
    | none => [.chars mismatchMarker]

end LogRelay.Render
