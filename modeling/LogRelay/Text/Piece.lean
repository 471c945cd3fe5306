import LogRelay.Text.Fit

/-!
# Text in pieces

A width or precision may ask for up to 2^64 - 1 padding characters.  A piece
names such a run by its character and count, so text is described in full
without being built, and whoever writes it may stop early.
-/

namespace LogRelay.Text

/-- A stretch of text: given characters, or one character a number of times. -/
inductive Piece where
  | chars (text : List Char)
  | run (char : Char) (count : Nat)
  deriving Repr, DecidableEq

namespace Piece

/-- The characters a piece stands for. -/
def expand : Piece → List Char
  | chars text => text
  | run char count => List.replicate count char

/-- The UTF-8 bytes a piece stands for, counted without expanding it. -/
def byteLength : Piece → Nat
  | chars text => Text.byteLength text
  | run char count => count * char.utf8Size

end Piece

def expandAll (pieces : List Piece) : List Char :=
  pieces.flatMap Piece.expand

def byteLengthAll : List Piece → Nat
  | [] => 0
  | piece :: rest => piece.byteLength + byteLengthAll rest

end LogRelay.Text
