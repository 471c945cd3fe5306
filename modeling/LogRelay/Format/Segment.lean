import LogRelay.Format.Spec

/-!
# Segments of a format

A format is read from left to right as literal text, `%%`, conversions, and
specifiers that are not understood, which stand for themselves.  Every part of a
specifier is matched greedily.  What one step reads and what it leaves make up
the text it was given, so segments never lose or reorder a character.
-/

namespace LogRelay.Format

/-- A piece of a format. -/
inductive Segment where
  /-- Text copied as it stands. -/
  | literal (text : List Char)
  /-- `%%` -/
  | percent
  | conversion (spec : Spec)
  /-- A specifier that is not understood, copied as it stands. -/
  | unrecognized (text : List Char)
  deriving Repr, DecidableEq

/-- The value of decimal digits, or `maxNumber` if they denote more. -/
def saturatedValue (digits : List Char) : Nat :=
  digits.foldl (fun value digit => min (10 * value + (digit.toNat - '0'.toNat)) maxNumber) 0

/-- The number that a run of digits stands for; no digits stand for none. -/
def number? (digits : List Char) : Option Nat :=
  if digits.isEmpty then none else some (saturatedValue digits)

/-- The precision at the start of `text`, as its characters, its value and what
follows.  A point without digits asks for precision zero. -/
def splitPrecision (text : List Char) : List Char × Option Nat × List Char :=
  match text with
  | '.' :: rest =>
    let digits := rest.takeWhile Char.isDigit
    ('.' :: digits, some (saturatedValue digits), rest.dropWhile Char.isDigit)
  | _ => ([], none, text)

/-- The longest length modifier at the start of `text`, as its characters, its
meaning and what follows. -/
def splitLength (text : List Char) : List Char × Length × List Char :=
  match text with
  | 'h' :: 'h' :: rest => (['h', 'h'], .char, rest)
  | 'h' :: rest => (['h'], .short, rest)
  | 'l' :: 'l' :: rest => (['l', 'l'], .longLong, rest)
  | 'l' :: rest => (['l'], .long, rest)
  | 'z' :: rest => (['z'], .size, rest)
  | 't' :: rest => (['t'], .ptrDiff, rest)
  | 'j' :: rest => (['j'], .intMax, rest)
  | _ => ([], .none, text)

/-- One step of reading a format. -/
structure Reading where
  segment : Segment
  /-- The characters the segment was read from. -/
  source : List Char
  /-- The characters after them. -/
  rest : List Char
  deriving Repr, DecidableEq

/-- Reads one specifier from the text after its `%`. -/
def readSpecifier (text : List Char) : Reading :=
  let flags := text.takeWhile isFlag
  let afterFlags := text.dropWhile isFlag
  let width := afterFlags.takeWhile Char.isDigit
  let (point, precision, afterPrecision) := splitPrecision (afterFlags.dropWhile Char.isDigit)
  let (modifier, length, afterLength) := splitLength afterPrecision
  let matched := '%' :: flags ++ width ++ point ++ modifier
  match afterLength with
  | [] => ⟨.unrecognized matched, matched, []⟩
  | letter :: rest =>
    let source := matched ++ [letter]
    match Conversion.ofLetter? letter with
    | some conversion =>
      let spec :=
        { flags := Flags.ofChars flags, width := number? width, precision, length, conversion }
      ⟨.conversion spec, source, rest⟩
    | none => ⟨.unrecognized source, source, rest⟩

/-- Reads the first segment of the text `first :: rest`. -/
def readSegment (first : Char) (rest : List Char) : Reading :=
  if first = '%' then
    match rest with
    | '%' :: rest => ⟨.percent, ['%', '%'], rest⟩
    | _ => readSpecifier rest
  else
    let text := first :: rest.takeWhile (· ≠ '%')
    ⟨.literal text, text, rest.dropWhile (· ≠ '%')⟩

theorem splitPrecision_append (text : List Char) :
    (splitPrecision text).1 ++ (splitPrecision text).2.2 = text := by
  unfold splitPrecision
  split <;> simp

theorem splitLength_append (text : List Char) :
    (splitLength text).1 ++ (splitLength text).2.2 = text := by
  unfold splitLength
  split <;> rfl

/-- A specifier's characters and what follows them are the text it was read
from. -/
theorem readSpecifier_append (text : List Char) :
    (readSpecifier text).source ++ (readSpecifier text).rest = '%' :: text := by
  have hflags := List.takeWhile_append_dropWhile (p := isFlag) (l := text)
  have hwidth := List.takeWhile_append_dropWhile (p := Char.isDigit) (l := text.dropWhile isFlag)
  have hpoint := splitPrecision_append ((text.dropWhile isFlag).dropWhile Char.isDigit)
  have hlength := splitLength_append
    (splitPrecision ((text.dropWhile isFlag).dropWhile Char.isDigit)).2.2
  simp only [readSpecifier]
  split
  · next heq =>
    rw [heq] at hlength
    simp_all
  · next letter rest heq =>
    rw [heq] at hlength
    split <;> simp_all

/-- A segment's characters and what follows them are the text it was read
from. -/
theorem readSegment_append (first : Char) (rest : List Char) :
    (readSegment first rest).source ++ (readSegment first rest).rest = first :: rest := by
  unfold readSegment
  split
  · next hpercent =>
    subst hpercent
    split
    · rfl
    · exact readSpecifier_append rest
  · simp

theorem readSpecifier_source_ne_nil (text : List Char) :
    (readSpecifier text).source ≠ [] := by
  simp only [readSpecifier]
  split
  · simp
  · split <;> simp

/-- Every step reads at least one character. -/
theorem readSegment_source_ne_nil (first : Char) (rest : List Char) :
    (readSegment first rest).source ≠ [] := by
  unfold readSegment
  split
  · split
    · simp
    · exact readSpecifier_source_ne_nil rest
  · simp

theorem length_readSegment_rest_lt (first : Char) (rest : List Char) :
    (readSegment first rest).rest.length < (first :: rest).length := by
  have hlength := congrArg List.length (readSegment_append first rest)
  have hpositive := List.length_pos_iff.mpr (readSegment_source_ne_nil first rest)
  rw [List.length_append] at hlength
  omega

/-- The segments of a text in order, each with the characters it was read from. -/
def readAll : List Char → List (Segment × List Char)
  | [] => []
  | first :: rest =>
    have := length_readSegment_rest_lt first rest
    let reading := readSegment first rest
    (reading.segment, reading.source) :: readAll reading.rest
termination_by text => text.length
decreasing_by exact this

def segments (format : String) : List Segment :=
  (readAll format.toList).map Prod.fst

/-- The conversions of a format in order: the segments that take an argument. -/
def conversions (format : String) : List Spec :=
  (segments format).filterMap fun
    | .conversion spec => some spec
    | _ => none

end LogRelay.Format
