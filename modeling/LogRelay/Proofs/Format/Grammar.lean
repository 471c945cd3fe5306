import Mathlib.Data.Bool.Basic
import LogRelay.Proofs.Format.Partition

/-!
# The grammar of specifiers

After its `%` a specifier has flags, a width, a point with digits, a length modifier and a
letter, and every part but the letter may be missing.  Each part goes as far as it can, so
a text has one reading at most.  What is read at a `%` is a conversion exactly when the
grammar has a reading that ends in a conversion letter; otherwise the characters that were
matched stand for themselves, together with the one that no part could take.
-/

namespace LogRelay.Format

open LogRelay.Checked (behindOf matchedOf specOf)

/-! ## Parts -/

def Length.text : Length → List Char
  | .none => []
  | .char => ['h', 'h']
  | .short => ['h']
  | .long => ['l']
  | .longLong => ['l', 'l']
  | .size => ['z']
  | .ptrDiff => ['t']
  | .intMax => ['j']

/-- A specifier up to its letter. -/
structure Parts where
  flags : List Char
  width : List Char
  /-- The digits behind the point, if there is a point. -/
  precision : Option (List Char)
  length : Length

namespace Parts

def point (parts : Parts) : List Char :=
  parts.precision.elim [] ('.' :: ·)

def text (parts : Parts) : List Char :=
  '%' :: parts.flags ++ parts.width ++ parts.point ++ parts.length.text

/-- The number that digits denote, or the greatest one there is room for. -/
def number (digits : List Char) : Nat :=
  min (Nat.ofDigitChars 10 digits 0) (Nat.pow 2 64 - 1)

/-- What a specifier with these parts and this letter means. -/
def spec (parts : Parts) (conversion : Conversion) : Spec where
  flags :=
    { left := '-' ∈ parts.flags
      plus := '+' ∈ parts.flags
      space := ' ' ∈ parts.flags
      alternate := '#' ∈ parts.flags
      zero := '0' ∈ parts.flags }
  width := if parts.width = [] then none else some (number parts.width)
  precision := parts.precision.map number
  length := parts.length
  conversion := conversion

end Parts

/-! ## Greedy matching -/

/-- `run` is all that passes `test` at the start of a text, and `rest` follows it. -/
structure Run (test : Char → Bool) (text run rest : List Char) : Prop where
  append_eq : run ++ rest = text
  passes : ∀ char ∈ run, test char = true
  maximal : ∀ char others, rest = char :: others → test char = false

/-- A point and all digits behind it, wherever there is a point. -/
inductive Point : List Char → Option (List Char) → List Char → Prop where
  | absent {text : List Char} (habsent : ∀ others, text ≠ '.' :: others) : Point text none text
  | present {text digits rest : List Char} (hrun : Run Char.isDigit text digits rest) :
      Point ('.' :: text) (some digits) rest

/-- The longest length modifier at the start of a text. -/
structure Modifier (text : List Char) (length : Length) (rest : List Char) : Prop where
  append_eq : length.text ++ rest = text
  longest : ∀ other : Length, other.text <+: text → other.text.length ≤ length.text.length

/-- `parts` stand at the start of a text, each matched as far as it goes, and `rest` is
what they leave. -/
inductive Matches : List Char → Parts → List Char → Prop where
  | intro {text flags afterFlags width afterWidth : List Char} {precision : Option (List Char)}
      {afterPoint rest : List Char} {length : Length}
      (hflags : Run isFlag text flags afterFlags)
      (hwidth : Run Char.isDigit afterFlags width afterWidth)
      (hpoint : Point afterWidth precision afterPoint)
      (hlength : Modifier afterPoint length rest) :
      Matches ('%' :: text) ⟨flags, width, precision, length⟩ rest

variable {test : Char → Bool} {text run rest : List Char}

theorem run_takeWhile (test : Char → Bool) (text : List Char) :
    Run test text (text.takeWhile test) (text.dropWhile test) where
  append_eq := List.takeWhile_append_dropWhile
  passes := List.all_eq_true.mp List.all_takeWhile
  maximal char others hrest := by
    have hstop := List.head?_dropWhile_not test text
    rwa [hrest] at hstop

/-- A run is determined by the text: it stops at the first character that fails. -/
theorem Run.eq_takeWhile (hrun : Run test text run rest) :
    run = text.takeWhile test ∧ rest = text.dropWhile test := by
  have hstop : rest.takeWhile test = [] ∧ rest.dropWhile test = rest := by
    cases rest with
    | nil => exact ⟨rfl, rfl⟩
    | cons char others => simp [hrun.maximal char others rfl]
  rw [← hrun.append_eq, List.takeWhile_append_of_pos hrun.passes,
    List.dropWhile_append_of_pos hrun.passes, hstop.1, hstop.2, List.append_nil]
  exact ⟨rfl, rfl⟩

theorem Run.unique {other left : List Char} (hrun : Run test text run rest)
    (hother : Run test text other left) : run = other ∧ rest = left := by
  obtain ⟨rfl, rfl⟩ := hrun.eq_takeWhile
  obtain ⟨rfl, rfl⟩ := hother.eq_takeWhile
  exact ⟨rfl, rfl⟩

theorem Point.unique {digits other : Option (List Char)} {left : List Char}
    (hpoint : Point text digits rest) (hother : Point text other left) :
    digits = other ∧ rest = left := by
  cases hpoint with
  | absent habsent =>
    cases hother with
    | absent => exact ⟨rfl, rfl⟩
    | present => exact absurd rfl (habsent _)
  | present hrun =>
    cases hother with
    | absent habsent => exact absurd rfl (habsent _)
    | present hother =>
      obtain ⟨rfl, rfl⟩ := hrun.unique hother
      exact ⟨rfl, rfl⟩

theorem Length.text_injective : Function.Injective Length.text := by
  intro left right heq
  cases left <;> cases right <;> first | rfl | exact absurd heq (by decide)

/-- Of two longest modifiers each is no longer than the other. -/
theorem Modifier.unique {length other : Length} {left : List Char}
    (hmodifier : Modifier text length rest) (hother : Modifier text other left) :
    length = other ∧ rest = left := by
  have hle := hother.longest length ⟨rest, hmodifier.append_eq⟩
  have hge := hmodifier.longest other ⟨left, hother.append_eq⟩
  have happend := hmodifier.append_eq.trans hother.append_eq.symm
  obtain ⟨htext, hrest⟩ := List.append_inj happend (Nat.le_antisymm hle hge)
  exact ⟨Length.text_injective htext, hrest⟩

/-- A text has one reading. -/
theorem Matches.unique {parts other : Parts} {left : List Char} (hmatches : Matches text parts rest)
    (hother : Matches text other left) : parts = other ∧ rest = left := by
  obtain ⟨hflags, hwidth, hpoint, hlength⟩ := hmatches
  obtain ⟨hotherFlags, hotherWidth, hotherPoint, hotherLength⟩ := hother
  obtain ⟨rfl, rfl⟩ := hflags.unique hotherFlags
  obtain ⟨rfl, rfl⟩ := hwidth.unique hotherWidth
  obtain ⟨rfl, rfl⟩ := hpoint.unique hotherPoint
  obtain ⟨rfl, rfl⟩ := hlength.unique hotherLength
  exact ⟨rfl, rfl⟩

theorem Point.append_eq {digits : Option (List Char)} (hpoint : Point text digits rest) :
    digits.elim [] ('.' :: ·) ++ rest = text := by
  cases hpoint with
  | absent => rfl
  | present hrun => exact congrArg ('.' :: ·) hrun.append_eq

theorem Matches.append_eq {parts : Parts} (hmatches : Matches text parts rest) :
    parts.text ++ rest = text := by
  obtain ⟨hflags, hwidth, hpoint, hlength⟩ := hmatches
  rw [← hflags.append_eq, ← hwidth.append_eq, ← hpoint.append_eq, ← hlength.append_eq]
  simp [Parts.text, Parts.point]

/-! ## What reading matches -/

theorem point_splitPrecision (text : List Char) :
    ∃ digits, Point text digits (splitPrecision text).2.2 ∧
      (splitPrecision text).1 = digits.elim [] ('.' :: ·) ∧
      (splitPrecision text).2.1 = digits.map saturatedValue := by
  unfold splitPrecision
  split
  · next rest =>
    exact ⟨some (rest.takeWhile Char.isDigit), .present (run_takeWhile _ _), rfl, rfl⟩
  · next habsent => exact ⟨none, .absent habsent, rfl, rfl⟩

theorem modifier_splitLength (text : List Char) :
    Modifier text (splitLength text).2.1 (splitLength text).2.2 ∧
      (splitLength text).1 = (splitLength text).2.1.text := by
  unfold splitLength
  split
  all_goals
    refine ⟨⟨rfl, fun other hother => ?_⟩, rfl⟩
    obtain ⟨more, hmore⟩ := hother
    cases other <;> grind [Length.text]

/-- Flags may come in any order and more than once. -/
theorem foldl_insert (chars : List Char) (flags : Flags) :
    chars.foldl Flags.insert flags =
      { left := flags.left || '-' ∈ chars
        plus := flags.plus || '+' ∈ chars
        space := flags.space || ' ' ∈ chars
        alternate := flags.alternate || '#' ∈ chars
        zero := flags.zero || '0' ∈ chars } := by
  induction chars generalizing flags with
  | nil => simp
  | cons char rest ih =>
    rw [List.foldl_cons, ih]
    unfold Flags.insert
    split <;> grind

/-- A number that once reached its limit stays there. -/
theorem foldl_saturated (digits : List Char) (value : Nat) :
    digits.foldl (fun value digit => min (10 * value + (digit.toNat - '0'.toNat)) maxNumber)
        (min value maxNumber) =
      min (Nat.ofDigitChars 10 digits value) maxNumber := by
  induction digits generalizing value with
  | nil => rfl
  | cons digit rest ih =>
    have hstep : min (10 * min value maxNumber + (digit.toNat - '0'.toNat)) maxNumber =
        min (10 * value + (digit.toNat - '0'.toNat)) maxNumber := by omega
    rw [List.foldl_cons, hstep, ih, Nat.ofDigitChars_cons]

theorem saturatedValue_eq (digits : List Char) : saturatedValue digits = Parts.number digits := by
  have hvalue := foldl_saturated digits 0
  rwa [Nat.zero_min] at hvalue

theorem number?_eq (digits : List Char) :
    number? digits = if digits = [] then none else some (Parts.number digits) := by
  simp only [number?, List.isEmpty_iff, saturatedValue_eq]

/-- Reading matches the grammar, up to the letter, and takes the parts for what they mean. -/
theorem exists_matches (rest : List Char) :
    ∃ parts, Matches ('%' :: rest) parts (behindOf rest) ∧ parts.text = matchedOf rest ∧
      ∀ conversion, parts.spec conversion = specOf rest conversion := by
  obtain ⟨digits, hpoint, hpointText, hprecision⟩ :=
    point_splitPrecision ((rest.dropWhile isFlag).dropWhile Char.isDigit)
  obtain ⟨hmodifier, hmodifierText⟩ := modifier_splitLength
    (splitPrecision ((rest.dropWhile isFlag).dropWhile Char.isDigit)).2.2
  refine ⟨_, .intro (run_takeWhile isFlag rest) (run_takeWhile Char.isDigit _) hpoint hmodifier,
    ?_, fun conversion => ?_⟩
  · simp only [Parts.text, Parts.point, matchedOf, hpointText, hmodifierText]
  · have hdigits : digits.map Parts.number = digits.map saturatedValue :=
      congrArg (digits.map ·) (funext fun run => (saturatedValue_eq run).symm)
    simp only [Parts.spec, specOf, hprecision, number?_eq, Flags.ofChars, foldl_insert, hdigits,
      Bool.false_or]

/-! ## What is read at a percent sign -/

theorem readSpecifier_of_exhausted {parts : Parts} (hmatches : Matches ('%' :: rest) parts []) :
    readSpecifier rest = ⟨.unrecognized ('%' :: rest), '%' :: rest, []⟩ := by
  obtain ⟨found, hfound, htext, -⟩ := exists_matches rest
  obtain ⟨rfl, hbehind⟩ := hmatches.unique hfound
  have happend := hmatches.append_eq
  rw [List.append_nil, htext] at happend
  rw [Checked.readSpecifier_of_nil hbehind.symm, happend]

theorem readSpecifier_of_accepted {parts : Parts} {conversion : Conversion} {behind : List Char}
    (hmatches : Matches ('%' :: rest) parts (conversion.letter :: behind)) :
    readSpecifier rest =
      ⟨.conversion (parts.spec conversion), parts.text ++ [conversion.letter], behind⟩ := by
  obtain ⟨found, hfound, htext, hspec⟩ := exists_matches rest
  obtain ⟨rfl, hbehind⟩ := hmatches.unique hfound
  rw [Checked.readSpecifier_of_cons hbehind.symm, Conversion.ofLetter?_letter, htext, hspec]

theorem readSpecifier_of_broken {parts : Parts} {letter : Char} {behind : List Char}
    (hmatches : Matches ('%' :: rest) parts (letter :: behind))
    (hletter : Conversion.ofLetter? letter = none) :
    readSpecifier rest =
      ⟨.unrecognized (parts.text ++ [letter]), parts.text ++ [letter], behind⟩ := by
  obtain ⟨found, hfound, htext, -⟩ := exists_matches rest
  obtain ⟨rfl, hbehind⟩ := hmatches.unique hfound
  rw [Checked.readSpecifier_of_cons hbehind.symm, hletter, htext]

/-- A specifier is accepted, broken off by a character, or cut off by the end of the text. -/
theorem readSpecifier_cases (rest : List Char) :
    (∃ parts conversion behind,
      Matches ('%' :: rest) parts (Conversion.letter conversion :: behind) ∧
        readSpecifier rest =
          ⟨.conversion (parts.spec conversion), parts.text ++ [conversion.letter], behind⟩) ∨
    (∃ parts letter behind, Matches ('%' :: rest) parts (letter :: behind) ∧
      readSpecifier rest =
        ⟨.unrecognized (parts.text ++ [letter]), parts.text ++ [letter], behind⟩) ∨
    ∃ parts, Matches ('%' :: rest) parts [] ∧
      readSpecifier rest = ⟨.unrecognized ('%' :: rest), '%' :: rest, []⟩ := by
  obtain ⟨parts, hmatches, -, -⟩ := exists_matches rest
  cases hbehind : behindOf rest with
  | nil =>
    rw [hbehind] at hmatches
    exact .inr (.inr ⟨parts, hmatches, readSpecifier_of_exhausted hmatches⟩)
  | cons letter behind =>
    rw [hbehind] at hmatches
    cases hletter : Conversion.ofLetter? letter with
    | none =>
      exact .inr (.inl ⟨parts, letter, behind, hmatches, readSpecifier_of_broken hmatches hletter⟩)
    | some conversion =>
      obtain rfl := letter_of_ofLetter? hletter
      exact .inl ⟨parts, conversion, behind, hmatches, readSpecifier_of_accepted hmatches⟩

/-! ## Widths -/

theorem le_ofDigitChars (digits : List Char) (value : Nat) :
    value ≤ Nat.ofDigitChars 10 digits value := by
  induction digits generalizing value with
  | nil => exact Nat.le_refl _
  | cons digit rest ih =>
    rw [Nat.ofDigitChars_cons]
    exact Nat.le_trans (by omega) (ih _)

theorem number_pos {first : Char} (hdigit : first.isDigit = true) (hzero : first ≠ '0')
    (others : List Char) : 0 < Parts.number (first :: others) := by
  rw [Char.isDigit, Bool.and_eq_true, decide_eq_true_iff, decide_eq_true_iff] at hdigit
  have hlow : '0'.toNat ≤ first.toNat := hdigit.1
  have hne : first.toNat ≠ '0'.toNat := fun heq => hzero (Char.toNat_inj.mp heq)
  have hvalue := le_ofDigitChars others (10 * 0 + (first.toNat - '0'.toNat))
  rw [Parts.number, Nat.ofDigitChars_cons]
  exact Nat.lt_min.mpr ⟨by omega, by decide⟩

/-- No width is zero: a `0` at its front would be a flag. -/
theorem Matches.width_ne_zero {parts : Parts} (hmatches : Matches text parts rest)
    (conversion : Conversion) : (parts.spec conversion).width ≠ some 0 := by
  obtain @⟨_, _, _, width, _, _, _, _, _, hflags, hwidth, -, -⟩ := hmatches
  cases width with
  | nil => simp [Parts.spec]
  | cons first others =>
    have hdigit := hwidth.passes first List.mem_cons_self
    have hflag := hflags.maximal first _ hwidth.append_eq.symm
    have hzero : first ≠ '0' := by
      rintro rfl
      exact absurd hflag (by decide)
    have hpositive := number_pos hdigit hzero others
    simp only [Parts.spec, reduceCtorEq, if_false, ne_eq, Option.some.injEq]
    omega

/-! ## Grammar and segments -/

/-- What the grammar says of the segment at the start of a text. -/
structure FollowsGrammar (text : List Char) (segment : Segment) (source : List Char) :
    Prop where
  /-- A conversion stands exactly where the grammar has one, and means what its parts say. -/
  conversion_iff : ∀ spec, segment = .conversion spec ↔
    ∃ (parts : Parts) (conversion : Conversion) (behind : List Char),
      Matches text parts (conversion.letter :: behind) ∧ spec = parts.spec conversion
  width_ne_zero : ∀ spec, segment = .conversion spec → spec.width ≠ some 0
  source_eq : ∀ (parts : Parts) (conversion : Conversion) (behind : List Char),
    Matches text parts (conversion.letter :: behind) → source = parts.text ++ [conversion.letter]
  /-- Anything else stands for itself, up to the character that ended the match. -/
  otherwise : (∀ spec, segment ≠ .conversion spec) →
    segment = .unrecognized source ∧
      ((∃ parts letter behind, Matches text parts (letter :: behind) ∧
          source = parts.text ++ [letter]) ∨
        ∃ parts, Matches text parts [] ∧ source = text)

/-- A conversion is read only from what the grammar accepts. -/
theorem accepted_of_conversion {spec : Spec}
    (hsegment : (readSpecifier rest).segment = .conversion spec) :
    ∃ (parts : Parts) (conversion : Conversion) (behind : List Char),
      Matches ('%' :: rest) parts (conversion.letter :: behind) ∧
        spec = parts.spec conversion := by
  obtain ⟨parts, conversion, behind, hmatches, hreading⟩ | ⟨_, _, _, -, hreading⟩ |
    ⟨_, -, hreading⟩ := readSpecifier_cases rest
  · rw [hreading] at hsegment
    exact ⟨parts, conversion, behind, hmatches, (Segment.conversion.inj hsegment).symm⟩
  · rw [hreading] at hsegment
    exact absurd hsegment (by simp)
  · rw [hreading] at hsegment
    exact absurd hsegment (by simp)

theorem followsGrammar_readSpecifier (rest : List Char) :
    FollowsGrammar ('%' :: rest) (readSpecifier rest).segment (readSpecifier rest).source where
  conversion_iff spec := by
    constructor
    · exact accepted_of_conversion
    · rintro ⟨parts, conversion, behind, hmatches, rfl⟩
      rw [readSpecifier_of_accepted hmatches]
  width_ne_zero spec hsegment := by
    obtain ⟨parts, conversion, behind, hmatches, rfl⟩ := accepted_of_conversion hsegment
    exact hmatches.width_ne_zero conversion
  source_eq parts conversion behind hmatches := by rw [readSpecifier_of_accepted hmatches]
  otherwise hother := by
    obtain ⟨parts, conversion, behind, -, hreading⟩ | ⟨parts, letter, behind, hmatches, hreading⟩ |
      ⟨parts, hmatches, hreading⟩ := readSpecifier_cases rest
    · rw [hreading] at hother
      exact absurd rfl (hother (parts.spec conversion))
    · rw [hreading]
      exact ⟨rfl, .inl ⟨parts, letter, behind, hmatches, rfl⟩⟩
    · rw [hreading]
      exact ⟨rfl, .inr ⟨parts, hmatches, rfl⟩⟩

theorem readSegment_percent (hsingle : text.head? ≠ some '%') :
    readSegment '%' text = readSpecifier text := by
  rw [readSegment, if_pos rfl]
  rintro rest rfl
  exact hsingle rfl

/-- Wherever reading a format comes to a `%` that stands alone, the next segment is the one
that the grammar has there, and reading goes on behind it. -/
theorem followsGrammar_of_readAll {format : String} {before after : List (Segment × List Char)}
    {segment : Segment} {source rest : List Char}
    (hread : readAll format.toList = before ++ (segment, source) :: after)
    (htext : format.toList = before.flatMap Prod.snd ++ '%' :: rest)
    (hsingle : rest.head? ≠ some '%') :
    FollowsGrammar ('%' :: rest) segment source ∧
      source ++ after.flatMap Prod.snd = '%' :: rest := by
  obtain ⟨first, others, behind, hparts, hreading, rfl⟩ := reading_of_readAll hread
  rw [htext] at hparts
  obtain ⟨rfl, rfl⟩ := List.cons.inj (List.append_cancel_left hparts)
  have hfollows := followsGrammar_readSpecifier rest
  have happend := readSegment_append '%' rest
  rw [← readSegment_percent hsingle, hreading] at hfollows
  rw [hreading] at happend
  refine ⟨hfollows, ?_⟩
  rw [flatMap_readAll]
  exact happend

/-- Repeated flags, a width behind a zero flag, and the longer of two modifiers. -/
theorem followsGrammar_of_readAll_long :
    let format := "é%%%0-+012.5lld!"
    let before := [(.literal ['é'], ['é']), (.percent, ['%', '%'])]
    let after := [(.literal ['!'], ['!'])]
    let segment := Segment.conversion
      { flags := { left := true, plus := true, zero := true }
        width := some 12
        precision := some 5
        length := .longLong
        conversion := .d }
    let source := "%0-+012.5lld".toList
    let rest := "0-+012.5lld!".toList
    readAll format.toList = before ++ (segment, source) :: after ∧
      format.toList = before.flatMap Prod.snd ++ '%' :: rest ∧ rest.head? ≠ some '%' ∧
      FollowsGrammar ('%' :: rest) segment source ∧
      source ++ after.flatMap Prod.snd = '%' :: rest := by
  intro format before after segment source rest
  have hread : readAll format.toList = before ++ (segment, source) :: after := by decide +kernel
  have htext : format.toList = before.flatMap Prod.snd ++ '%' :: rest := by decide +kernel
  have hsingle : rest.head? ≠ some '%' := by decide
  exact ⟨hread, htext, hsingle, followsGrammar_of_readAll hread htext hsingle⟩

end LogRelay.Format
