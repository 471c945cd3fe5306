import LogRelay.Format.Kind

/-!
# Conversion specifications

The parts of one `%` conversion: flags, width, precision, length modifier and
conversion letter.  Letter and length together choose the storage class of the
argument that the conversion takes.
-/

namespace LogRelay.Format

/-- Numbers in a format saturate here instead of growing without bound. -/
def maxNumber : Nat := Nat.pow 2 64 - 1

/-- Which of the flag characters occur. -/
structure Flags where
  left : Bool := false
  plus : Bool := false
  space : Bool := false
  alternate : Bool := false
  zero : Bool := false
  deriving Repr, DecidableEq

/-- Adds the flag that a character stands for; other characters add nothing. -/
def Flags.insert (flags : Flags) : Char → Flags
  | '-' => { flags with left := true }
  | '+' => { flags with plus := true }
  | ' ' => { flags with space := true }
  | '#' => { flags with alternate := true }
  | '0' => { flags with zero := true }
  | _ => flags

def isFlag (char : Char) : Bool :=
  char ∈ ['-', '+', ' ', '#', '0']

/-- The flags that occur in `chars`, in any order and any number of times. -/
def Flags.ofChars (chars : List Char) : Flags :=
  chars.foldl Flags.insert {}

/-- The set flags as their characters, each once, in a fixed order. -/
def Flags.toChars (flags : Flags) : List Char :=
  [(flags.left, '-'), (flags.plus, '+'), (flags.space, ' '), (flags.alternate, '#'),
    (flags.zero, '0')].filterMap fun (set, char) => if set then some char else none

/-- The length modifier: none, `hh`, `h`, `l`, `ll`, `z`, `t` or `j`. -/
inductive Length where
  | none
  | char
  | short
  | long
  | longLong
  | size
  | ptrDiff
  | intMax
  deriving Repr, DecidableEq

def Length.all : List Length :=
  [none, char, short, long, longLong, size, ptrDiff, intMax]

def Length.name : Length → String
  | none => "None"
  | char => "Char"
  | short => "Short"
  | long => "Long"
  | longLong => "LongLong"
  | size => "Size"
  | ptrDiff => "PtrDiff"
  | intMax => "IntMax"

def Length.ofName? (text : String) : Option Length :=
  all.find? (·.name = text)

/-- The storage class of an integer argument with this length modifier; `char`
and `short` arguments arrive promoted to `int`. -/
def Length.integerKind : Length → Kind
  | .none | .char | .short => .int
  | .long => .long
  | .longLong => .longLong
  | .size => .size
  | .ptrDiff => .ptrDiff
  | .intMax => .intMax

inductive Conversion where
  | d | i | o | u | x | X | c | f | F | e | E | g | G | s | p | n
  deriving Repr, DecidableEq

namespace Conversion

def letter : Conversion → Char
  | d => 'd' | i => 'i' | o => 'o' | u => 'u' | x => 'x' | X => 'X' | c => 'c'
  | f => 'f' | F => 'F' | e => 'e' | E => 'E' | g => 'g' | G => 'G'
  | s => 's' | p => 'p' | n => 'n'

def ofLetter? : Char → Option Conversion
  | 'd' => some d | 'i' => some i | 'o' => some o | 'u' => some u
  | 'x' => some x | 'X' => some X | 'c' => some c
  | 'f' => some f | 'F' => some F | 'e' => some e | 'E' => some E
  | 'g' => some g | 'G' => some G
  | 's' => some s | 'p' => some p | 'n' => some n
  | _ => none

/-- The storage class a conversion takes its argument from. -/
def kind : Conversion → Length → Kind
  | d, length | i, length | o, length | u, length | x, length | X, length =>
    length.integerKind
  | c, _ => .int
  | f, _ | F, _ | e, _ | E, _ | g, _ | G, _ => .double
  | s, _ => .str
  | p, _ | n, _ => .pointer

def isSigned : Conversion → Bool
  | d | i => true
  | _ => false

/-- True for the conversions that print their letters and digits in upper case. -/
def isUpper : Conversion → Bool
  | X | F | E | G => true
  | _ => false

@[simp]
theorem ofLetter?_letter (conversion : Conversion) :
    ofLetter? conversion.letter = some conversion := by
  cases conversion <;> rfl

end Conversion

/-- The storage class that a letter and a length modifier select.  A letter that
is no conversion is taken for an address. -/
def kindOfLetter (letter : Char) (length : Length) : Kind :=
  match Conversion.ofLetter? letter with
  | some conversion => conversion.kind length
  | none => .pointer

structure Spec where
  flags : Flags := {}
  width : Option Nat := none
  precision : Option Nat := none
  length : Length := .none
  conversion : Conversion
  deriving Repr, DecidableEq

def Spec.kind (spec : Spec) : Kind :=
  spec.conversion.kind spec.length

end LogRelay.Format
