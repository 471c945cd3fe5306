import LogRelay.Format.Spec
import LogRelay.Text.Piece

/-!
# Fields

A rendered value is a lead (sign or base prefix) and a body.  The width of its
conversion pads it, measured in bytes: with blanks behind it, with zeros between
lead and body, or with blanks before it.
-/

namespace LogRelay.Render

open LogRelay.Format LogRelay.Text

/-- A rendered value before padding. -/
structure Field where
  lead : List Char := []
  body : List Piece
  /-- Whether zeros may fill the width. -/
  zeroFill : Bool := false
  deriving Repr, DecidableEq

def Field.byteLength (field : Field) : Nat :=
  Text.byteLength field.lead + byteLengthAll field.body

/-- The pieces of a field padded to the width of its conversion. -/
def Field.pad (field : Field) (spec : Spec) : List Piece :=
  let fill := spec.width.getD 0 - field.byteLength
  if spec.flags.left then
    .chars field.lead :: field.body ++ [.run ' ' fill]
  else if spec.flags.zero && field.zeroFill then
    .chars field.lead :: .run '0' fill :: field.body
  else
    .run ' ' fill :: .chars field.lead :: field.body

/-- The sign of a number: a minus, or what the flags ask for in its place. -/
def signText (flags : Flags) (negative : Bool) : List Char :=
  if negative then ['-']
  else if flags.plus then ['+']
  else if flags.space then [' ']
  else []

end LogRelay.Render
