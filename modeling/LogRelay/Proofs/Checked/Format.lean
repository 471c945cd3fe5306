import LogRelay.Format.Layout
import LogRelay.Proofs.Checked.Ascii

/-!
# Reading a format byte by byte

A format is scanned by byte positions, and pieces of it are cut out between two of them.
All that the scan looks for is ASCII, whose bytes occur in no other character, so that each
position where a piece begins or ends lies between characters.  What is read that way is
what reading the format by characters gives.
-/

namespace LogRelay.Checked

open LogRelay.Text LogRelay.Format

variable {text rest : List Char} {position start : Nat}

/-! ## Specifiers -/

/-- The number at a position, and the position behind it. -/
def numberAt? (bytes : List Char) (position : Nat) : Option (Option Nat × Nat) := do
  let digits := (bytes.drop position).takeWhile Char.isDigit
  let value ← digits.foldlM (fun value digit => do
    let digit ← sub? digit.toNat '0'.toNat
    return some (min (10 * value.getD 0 + digit) maxNumber)) none
  return (value, position + digits.length)

/-- The precision at a position, and the position behind it. -/
def precisionAt? (bytes : List Char) (position : Nat) : Option (Option Nat × Nat) :=
  if bytes[position]? = some '.' then do
    let (precision, stop) ← numberAt? bytes (position + 1)
    return (some (precision.getD 0), stop)
  else return (none, position)

/-- The length modifier at a position, and the number of its bytes. -/
def lengthAt (bytes : List Char) (position : Nat) : Length × Nat :=
  let first := bytes[position]?
  let second := bytes[position + 1]?
  if first = some 'h' then if second = some 'h' then (.char, 2) else (.short, 1)
  else if first = some 'l' then if second = some 'l' then (.longLong, 2) else (.long, 1)
  else if first = some 'z' then (.size, 1)
  else if first = some 't' then (.ptrDiff, 1)
  else if first = some 'j' then (.intMax, 1)
  else (.none, 0)

/-- The specifier whose `%` is at `start` but for its letter, and the position of that. -/
def prefixAt? (text : List Char) (start : Nat) : Option ((Conversion → Spec) × Nat) := do
  let bytes := ascii text
  let flags := (bytes.drop (start + 1)).takeWhile isFlag
  let (width, afterWidth) ← numberAt? bytes (start + 1 + flags.length)
  let (precision, afterPrecision) ← precisionAt? bytes afterWidth
  let (length, size) := lengthAt bytes afterPrecision
  let spec conversion := { flags := Flags.ofChars flags, width, precision, length, conversion }
  return (spec, afterPrecision + size)

/-- The specifier whose `%` is at `start`, and the position behind it. -/
def specifierAt? (text : List Char) (start : Nat) : Option (Segment × Nat) := do
  let (spec, position) ← prefixAt? text start
  match (ascii text)[position]? with
  | none => return (.unrecognized (← sliceFrom? start text), (ascii text).length)
  | some byte =>
    match Conversion.ofLetter? byte with
    | some conversion => return (.conversion (spec conversion), position + 1)
    | none =>
      -- The character is taken whole, however many bytes it has.
      let behind ← sliceFrom? position text
      let stop := position + (behind.head?.map Char.utf8Size).getD 1
      return (.unrecognized (← slice? start stop text), stop)

theorem onlyAscii_isDigit : OnlyAscii Char.isDigit := by
  intro char hdigit
  rw [Char.isDigit, Bool.and_eq_true, decide_eq_true_iff, decide_eq_true_iff] at hdigit
  exact Nat.lt_of_le_of_lt hdigit.2 (by decide)

theorem onlyAscii_isFlag : OnlyAscii isFlag := by
  intro char hflag
  simp only [isFlag, List.mem_cons, List.not_mem_nil, or_false, decide_eq_true_iff] at hflag
  rcases hflag with rfl | rfl | rfl | rfl | rfl <;> decide

theorem foldlM_digits (digits : List Char) (hdigits : ∀ digit ∈ digits, digit.isDigit = true)
    (value : Option Nat) :
    digits.foldlM (fun value digit => do
      let digit ← sub? digit.toNat '0'.toNat
      return some (min (10 * value.getD 0 + digit) maxNumber)) value =
    some (if digits.isEmpty then value
      else some (digits.foldl
        (fun value digit => min (10 * value + (digit.toNat - '0'.toNat)) maxNumber)
        (value.getD 0))) := by
  induction digits generalizing value with
  | nil => rfl
  | cons digit rest ih =>
    obtain ⟨hdigit, hrest⟩ := List.forall_mem_cons.mp hdigits
    rw [Char.isDigit, Bool.and_eq_true, decide_eq_true_iff, decide_eq_true_iff] at hdigit
    have hzero : '0'.toNat ≤ digit.toNat := hdigit.1
    rw [List.foldlM_cons, sub?_of_le hzero]
    change List.foldlM _ (some _) rest = _
    rw [ih hrest]
    cases rest <;> rfl

/-- The bytes of a number are its digits, and each of them is above that of zero. -/
theorem numberAt?_eq (hat : At text position rest) :
    numberAt? (ascii text) position =
      some (number? (rest.takeWhile Char.isDigit),
        position + (rest.takeWhile Char.isDigit).length) := by
  have hdigits : ∀ digit ∈ rest.takeWhile Char.isDigit, digit.isDigit = true :=
    List.all_eq_true.mp List.all_takeWhile
  rw [numberAt?, hat.takeWhile onlyAscii_isDigit, foldlM_digits _ hdigits]
  rfl

theorem precisionAt?_eq (hat : At text position rest) :
    precisionAt? (ascii text) position =
      some ((splitPrecision rest).2.1, position + (splitPrecision rest).1.length) := by
  have hdot : IsAscii '.' := by decide
  have hpoint := hat.getElem?_eq_some_iff hdot
  by_cases hhead : ∃ others, rest = '.' :: others
  · rw [precisionAt?, if_pos (hpoint.mpr hhead)]
    obtain ⟨others, rfl⟩ := hhead
    have hvalue : (number? (others.takeWhile Char.isDigit)).getD 0 =
        saturatedValue (others.takeWhile Char.isDigit) := by
      rw [number?]
      split
      · next hempty => rw [List.isEmpty_iff.mp hempty]; rfl
      · rfl
    have hlength : position + ('.' :: others.takeWhile Char.isDigit).length =
        position + 1 + (others.takeWhile Char.isDigit).length := by
      rw [List.length_cons, Nat.add_assoc, Nat.add_comm 1]
    rw [numberAt?_eq (hat.skip_one (by decide)), splitPrecision, hlength, ← hvalue]
    rfl
  · rw [precisionAt?, if_neg (mt hpoint.mp hhead), splitPrecision]
    · rfl
    · exact fun others heq => hhead ⟨others, heq⟩

theorem head?_ne {text : List Char} {char : Char}
    (hne : ∀ others, text = char :: others → False) : text.head? ≠ some char := by
  intro heq
  obtain ⟨others, hothers⟩ := List.head?_eq_some_iff.mp heq
  exact hne others hothers

/-- A length modifier is decided by the first two characters. -/
theorem splitLength_eq (text : List Char) :
    ((splitLength text).2.1, (splitLength text).1.length) =
      if text.head? = some 'h' then
        if text.tail.head? = some 'h' then (.char, 2) else (.short, 1)
      else if text.head? = some 'l' then
        if text.tail.head? = some 'l' then (.longLong, 2) else (.long, 1)
      else if text.head? = some 'z' then (.size, 1)
      else if text.head? = some 't' then (.ptrDiff, 1)
      else if text.head? = some 'j' then (.intMax, 1)
      else (.none, 0) := by
  unfold splitLength
  split
  · rfl
  · next hsecond =>
    rw [if_pos List.head?_cons, List.tail_cons, if_neg (head?_ne hsecond)]
    rfl
  · rfl
  · next hsecond =>
    rw [if_neg (by simp), if_pos List.head?_cons, List.tail_cons, if_neg (head?_ne hsecond)]
    rfl
  · rfl
  · rfl
  · rfl
  · next _ hh _ hl hz ht hj =>
    rw [if_neg (head?_ne hh), if_neg (head?_ne hl), if_neg (head?_ne hz), if_neg (head?_ne ht),
      if_neg (head?_ne hj)]
    rfl

theorem lengthAt_eq (hat : At text position rest) :
    lengthAt (ascii text) position = ((splitLength rest).2.1, (splitLength rest).1.length) := by
  have hfirst : ∀ char, IsAscii char →
      ((ascii text)[position]? = some char ↔ rest.head? = some char) := by
    intro char hchar
    rw [hat.getElem?_eq_some_iff hchar, List.head?_eq_some_iff]
  have hsecond : ∀ first, IsAscii first → rest.head? = some first → ∀ char, IsAscii char →
      ((ascii text)[position + 1]? = some char ↔ rest.tail.head? = some char) := by
    intro first hascii hhead char hchar
    obtain ⟨others, rfl⟩ := List.head?_eq_some_iff.mp hhead
    rw [(hat.skip_one hascii).getElem?_eq_some_iff hchar, List.tail_cons, List.head?_eq_some_iff]
  rw [splitLength_eq, lengthAt]
  simp only [hfirst 'h' (by decide), hfirst 'l' (by decide), hfirst 'z' (by decide),
    hfirst 't' (by decide), hfirst 'j' (by decide)]
  split
  · next hhead => simp only [hsecond 'h' (by decide) hhead 'h' (by decide)]
  · split
    · next hhead => simp only [hsecond 'l' (by decide) hhead 'l' (by decide)]
    · rfl

theorem isAscii_of_mem_splitPrecision (text : List Char) :
    ∀ char ∈ (splitPrecision text).1, IsAscii char := by
  unfold splitPrecision
  split
  · next rest =>
    refine List.forall_mem_cons.mpr ⟨by decide, ?_⟩
    exact onlyAscii_isDigit.of_mem_takeWhile rest
  · simp

theorem isAscii_of_mem_splitLength (text : List Char) :
    ∀ char ∈ (splitLength text).1, IsAscii char := by
  unfold splitLength
  split <;> simp [IsAscii]

theorem isAscii_of_ofLetter? {char : Char} {conversion : Conversion}
    (heq : Conversion.ofLetter? char = some conversion) : IsAscii char := by
  unfold Conversion.ofLetter? at heq
  split at heq
  all_goals first | decide | exact absurd heq (by simp)

/-- What a specifier begins with, up to its letter. -/
def matchedOf (rest : List Char) : List Char :=
  let afterWidth := (rest.dropWhile isFlag).dropWhile Char.isDigit
  '%' :: rest.takeWhile isFlag ++ (rest.dropWhile isFlag).takeWhile Char.isDigit ++
    (splitPrecision afterWidth).1 ++ (splitLength (splitPrecision afterWidth).2.2).1

/-- The text from the letter of a specifier on. -/
def behindOf (rest : List Char) : List Char :=
  (splitLength (splitPrecision ((rest.dropWhile isFlag).dropWhile Char.isDigit)).2.2).2.2

/-- What a specifier means but for its letter. -/
def specOf (rest : List Char) (conversion : Conversion) : Spec :=
  let afterWidth := (rest.dropWhile isFlag).dropWhile Char.isDigit
  { flags := Flags.ofChars (rest.takeWhile isFlag)
    width := number? ((rest.dropWhile isFlag).takeWhile Char.isDigit)
    precision := (splitPrecision afterWidth).2.1
    length := (splitLength (splitPrecision afterWidth).2.2).2.1
    conversion }

theorem readSpecifier_of_nil (hbehind : behindOf rest = []) :
    readSpecifier rest = ⟨.unrecognized (matchedOf rest), matchedOf rest, []⟩ := by
  rw [behindOf] at hbehind
  simp only [readSpecifier, hbehind]
  rfl

theorem readSpecifier_of_cons {letter : Char} {others : List Char}
    (hbehind : behindOf rest = letter :: others) :
    readSpecifier rest =
      match Conversion.ofLetter? letter with
      | some conversion =>
        ⟨.conversion (specOf rest conversion), matchedOf rest ++ [letter], others⟩
      | none =>
        ⟨.unrecognized (matchedOf rest ++ [letter]), matchedOf rest ++ [letter], others⟩ := by
  rw [behindOf] at hbehind
  simp only [readSpecifier, hbehind]
  rfl

theorem isAscii_of_mem_matchedOf (rest : List Char) : ∀ char ∈ matchedOf rest, IsAscii char := by
  intro char hchar
  simp only [matchedOf, List.cons_append, List.mem_cons, List.mem_append] at hchar
  rcases hchar with rfl | ((hflag | hdigit) | hpoint) | hmodifier
  · decide
  · exact onlyAscii_isFlag.of_mem_takeWhile _ char hflag
  · exact onlyAscii_isDigit.of_mem_takeWhile _ char hdigit
  · exact isAscii_of_mem_splitPrecision _ char hpoint
  · exact isAscii_of_mem_splitLength _ char hmodifier

theorem matchedOf_append (rest : List Char) : matchedOf rest ++ behindOf rest = '%' :: rest := by
  rw [← readSpecifier_append]
  cases hbehind : behindOf rest with
  | nil => rw [readSpecifier_of_nil hbehind]
  | cons letter others =>
    rw [readSpecifier_of_cons hbehind]
    cases Conversion.ofLetter? letter <;> simp

theorem At.behind (hat : At text start ('%' :: rest)) :
    At text (start + (matchedOf rest).length) (behindOf rest) :=
  hat.skip_of_append (matchedOf_append rest) (isAscii_of_mem_matchedOf rest)

/-- All before the letter of a specifier is ASCII, so its bytes are counted by its characters. -/
theorem prefixAt?_eq (hat : At text start ('%' :: rest)) :
    prefixAt? text start = some (specOf rest, start + (matchedOf rest).length) := by
  have hbegin : At text (start + 1) rest := hat.skip_one (by decide)
  have hafterFlags := hbegin.skipWhile onlyAscii_isFlag
  have hafterWidth := hafterFlags.skipWhile onlyAscii_isDigit
  have hafterPrecision := hafterWidth.skip_of_append (splitPrecision_append _)
    (isAscii_of_mem_splitPrecision _)
  simp only [prefixAt?, hbegin.takeWhile onlyAscii_isFlag, numberAt?_eq hafterFlags,
    precisionAt?_eq hafterWidth, lengthAt_eq hafterPrecision, Option.bind_eq_bind,
    Option.bind_some, matchedOf, List.length_append, List.length_cons]
  congr 2
  omega

/-- The first byte of a character is a conversion letter when the character is. -/
theorem ofLetter?_of_mem_ascii {letter byte : Char} (hbyte : byte ∈ ascii [letter]) :
    Conversion.ofLetter? byte = Conversion.ofLetter? letter := by
  have hnone : ∀ char, ¬IsAscii char → Conversion.ofLetter? char = none := by
    intro char hchar
    cases heq : Conversion.ofLetter? char with
    | none => rfl
    | some conversion => exact absurd (isAscii_of_ofLetter? heq) hchar
  by_cases hletter : IsAscii letter
  · rw [ascii_singleton_of_isAscii hletter, List.mem_singleton] at hbyte
    rw [hbyte]
  · rw [hnone letter hletter, hnone byte (not_isAscii_of_mem_ascii hletter hbyte)]

theorem specifierAt?_eq (hat : At text start ('%' :: rest)) :
    specifierAt? text start =
      some ((readSpecifier rest).segment, start + byteLength (readSpecifier rest).source) := by
  have hmatched := byteLength_of_isAscii (isAscii_of_mem_matchedOf rest)
  have happend := matchedOf_append rest
  have hbehind := hat.behind
  rw [specifierAt?, prefixAt?_eq hat, Option.bind_eq_bind, Option.bind_some]
  cases hletter : behindOf rest with
  | nil =>
    rw [hletter] at happend hbehind
    have hbyte : (ascii text)[start + (matchedOf rest).length]? = none := hbehind.getElem?_ascii
    have hslice : sliceFrom? start text = some (matchedOf rest) := by
      rw [hat.sliceFrom?, ← happend, List.append_nil]
    have hend : (ascii text).length = start + byteLength (matchedOf rest) := by
      obtain ⟨before, rfl, rfl⟩ := hat
      rw [length_ascii, byteLength_append, ← happend, List.append_nil]
    simp only [hbyte, hslice, hend, readSpecifier_of_nil hletter]
    rfl
  | cons letter others =>
    rw [hletter] at happend hbehind
    obtain ⟨byte, bytes, hmem, hbytes⟩ := exists_ascii_cons letter others
    have hbyte : (ascii text)[start + (matchedOf rest).length]? = some byte := by
      rw [hbehind.getElem?_ascii, hbytes, List.head?_cons]
    have hsize : byteLength (matchedOf rest ++ [letter]) =
        (matchedOf rest).length + letter.utf8Size := by
      rw [byteLength_append, hmatched, byteLength_cons, byteLength_nil, Nat.add_zero]
    have hslice : slice? start (start + ((matchedOf rest).length + letter.utf8Size)) text =
        some (matchedOf rest ++ [letter]) := by
      have hwhole : At text start (matchedOf rest ++ [letter] ++ others) := by
        rwa [List.append_assoc, List.singleton_append, happend]
      rw [← hsize]
      exact hwhole.slice?
    simp only [hbyte, ofLetter?_of_mem_ascii hmem, readSpecifier_of_cons hletter]
    cases hconversion : Conversion.ofLetter? letter with
    | some conversion =>
      have hascii := isAscii_of_ofLetter? hconversion
      have hone : letter.utf8Size = 1 :=
        byteLength_of_isAscii (List.forall_mem_singleton.mpr hascii)
      simp only [hsize, hone, Nat.add_assoc]
      rfl
    | none =>
      simp only [hbehind.sliceFrom?, Option.bind_eq_bind, Option.bind_some, List.head?_cons,
        Option.map_some, Option.getD_some, hslice, hsize, Nat.add_assoc]
      rfl

/-! ## Segments -/

/-- The segment at a position within a text, and the position behind it. -/
def segmentAt? (text : List Char) (start : Nat) : Option (Segment × Nat) := do
  let bytes := ascii text
  let first ← bytes[start]?
  if first ≠ '%' then
    let _ ← window? bytes.length start bytes.length
    let stop := start + ((bytes.drop start).takeWhile (· ≠ '%')).length
    return (.literal (← slice? start stop text), stop)
  else if bytes[start + 1]? = some '%' then
    return (.percent, start + 2)
  else
    specifierAt? text start

/-- The segments from a position on.  A segment of no bytes would never end. -/
def segmentsFrom? (text : List Char) (start : Nat) : Option (List Segment) :=
  if byteLength text ≤ start then some []
  else
    match segmentAt? text start with
    | none => none
    | some (segment, stop) =>
      if start < stop then (segmentsFrom? text stop).map (segment :: ·) else none
termination_by byteLength text - start

theorem uniform_ne_percent : Uniform (· ≠ '%') := by
  have htrue : ∀ char, ¬IsAscii char → char ≠ '%' := by
    rintro char hchar rfl
    exact hchar (by decide)
  intro left right hleft hright
  simp [htrue left hleft, htrue right hright]

theorem segmentAt?_eq {first : Char} (hat : At text start (first :: rest)) :
    segmentAt? text start =
      some ((readSegment first rest).segment,
        start + byteLength (readSegment first rest).source) := by
  obtain ⟨byte, bytes, hmem, hbytes⟩ := exists_ascii_cons first rest
  have hbyte : (ascii text)[start]? = some byte := by
    rw [hat.getElem?_ascii, hbytes, List.head?_cons]
  have hpercent : byte ≠ '%' ↔ first ≠ '%' := by
    have hsame : (byte = '%' ↔ first = '%') := by simpa using uniform_ne_percent.eq_of_mem hmem
    exact not_congr hsame
  simp only [segmentAt?, hbyte, Option.bind_eq_bind, Option.bind_some, hpercent]
  by_cases hfirst : first = '%'
  · obtain rfl : first = '%' := hfirst
    have hascii : IsAscii '%' := by decide
    have hsecond := (hat.skip_one hascii).getElem?_eq_some_iff hascii
    rw [if_neg (by simp)]
    by_cases hdouble : ∃ others, rest = '%' :: others
    · rw [if_pos (hsecond.mpr hdouble)]
      obtain ⟨others, rfl⟩ := hdouble
      rfl
    · rw [if_neg (mt hsecond.mp hdouble), specifierAt?_eq hat, readSegment, if_pos rfl]
      exact fun others heq => hdouble ⟨others, heq⟩
  · have htake : (first :: rest).takeWhile (· ≠ '%') = first :: rest.takeWhile (· ≠ '%') :=
      List.takeWhile_cons_of_pos (by simpa using hfirst)
    have hrun := hat.takeWhile_drop uniform_ne_percent
    have hslice := hat.slice?_takeWhile (· ≠ '%')
    rw [htake] at hrun hslice
    have hinside : start ≤ (ascii text).length := by
      rw [length_ascii]
      exact hat.position_le
    have hwindow := window?_of_le hinside (Nat.le_refl _)
    have hread : readSegment first rest = ⟨.literal (first :: rest.takeWhile (· ≠ '%')),
        first :: rest.takeWhile (· ≠ '%'), rest.dropWhile (· ≠ '%')⟩ := if_neg hfirst
    rw [if_pos hfirst, hwindow, Option.bind_some, hrun, length_ascii, hslice, hread]
    rfl

theorem byteLength_source_pos (first : Char) (rest : List Char) :
    0 < byteLength (readSegment first rest).source := by
  cases hsource : (readSegment first rest).source with
  | nil => exact absurd hsource (readSegment_source_ne_nil first rest)
  | cons char others => exact Nat.lt_of_lt_of_le char.utf8Size_pos (Nat.le_add_right _ _)

/-- A whole text is read without going wrong, and in the same segments as by characters. -/
theorem segmentsFrom?_eq (hat : At text start rest) :
    segmentsFrom? text start = some ((readAll rest).map Prod.fst) := by
  revert start
  refine readAll.induct (motive := fun rest => ∀ {start}, At text start rest →
    segmentsFrom? text start = some ((readAll rest).map Prod.fst)) ?_ ?_ rest
  · intro start hat
    obtain ⟨before, rfl, rfl⟩ := hat
    rw [segmentsFrom?, List.append_nil, if_pos (Nat.le_refl _), readAll]
    rfl
  · intro first rest _ reading ih start hat
    have hnext : At text (start + byteLength (readSegment first rest).source)
        (readSegment first rest).rest := by
      apply At.skip
      rwa [readSegment_append]
    have hpositive := byteLength_source_pos first rest
    have hinside := hnext.position_le
    rw [segmentsFrom?, if_neg (by omega), segmentAt?_eq hat, readAll]
    simp only
    rw [if_pos (Nat.lt_add_of_pos_right hpositive), ih hnext]
    rfl

def segments? (format : String) : Option (List Segment) :=
  segmentsFrom? format.toList 0

/-- Reading a format by byte positions gives the segments that reading it by characters does. -/
theorem segments?_eq (format : String) : segments? format = some (segments format) :=
  segmentsFrom?_eq (.begin format.toList)

/-! ## Space for arguments -/

def conversions? (format : String) : Option (List Spec) := do
  let segments ← segments? format
  return segments.filterMap fun
    | .conversion spec => some spec
    | _ => none

def addLayout? (layout : Layout) (kind : Kind) : Option Layout := do
  let count ← add? layout.count 1
  let promotedBytes ← add? layout.promotedBytes kind.promotedSize
  let tagged ← add? layout.encodedBytes Kind.tagSize
  let encodedBytes ← add? tagged kind.storedSize
  return { count, promotedBytes, encodedBytes }

def layout? (format : String) : Option Layout := do
  let specs ← conversions? format
  specs.foldlM (fun layout spec => addLayout? layout spec.kind) {}

theorem conversions?_eq (format : String) : conversions? format = some (conversions format) := by
  rw [conversions?, segments?_eq]
  rfl

/-- Formats below this many bytes cannot ask for more than a word can count. -/
def formatLimit : Nat := Nat.pow 2 59

/-- No argument needs more than a tag and two words. -/
structure Modest (layout : Layout) : Prop where
  promoted_le : layout.promotedBytes ≤ 8 * layout.count
  encoded_le : layout.encodedBytes ≤ 17 * layout.count

theorem Modest.add {layout : Layout} (hmodest : Modest layout) (kind : Kind) :
    Modest (layout.add kind) := by
  obtain ⟨hpromoted, hencoded⟩ := hmodest
  have hsizes : kind.promotedSize ≤ 8 ∧ kind.recordSize ≤ 17 := by cases kind <;> decide
  constructor
  · change layout.promotedBytes + kind.promotedSize ≤ 8 * (layout.count + 1)
    omega
  · change layout.encodedBytes + kind.recordSize ≤ 17 * (layout.count + 1)
    omega

theorem addLayout?_eq {layout : Layout} (hmodest : Modest layout) (kind : Kind)
    (hcount : layout.count + 1 < formatLimit) :
    addLayout? layout kind = some (layout.add kind) := by
  obtain ⟨hpromoted, hencoded⟩ := hmodest.add kind
  have hlimit : wordLimit = 32 * formatLimit := rfl
  change layout.promotedBytes + kind.promotedSize ≤ 8 * (layout.count + 1) at hpromoted
  change layout.encodedBytes + (Kind.tagSize + kind.storedSize) ≤
    17 * (layout.count + 1) at hencoded
  rw [addLayout?, add?_of_lt (by omega), add?_of_lt (by omega), add?_of_lt (by omega)]
  simp only [Option.bind_eq_bind, Option.bind_some]
  rw [add?_of_lt (by omega), Nat.add_assoc]
  rfl

/-- The sizes of a format's arguments are added up without overflow, as each is modest. -/
theorem foldlM_addLayout? (specs : List Spec) {layout : Layout} (hmodest : Modest layout)
    (hcount : layout.count + specs.length < formatLimit) :
    specs.foldlM (fun layout spec => addLayout? layout spec.kind) layout =
        some (specs.foldl (fun layout spec => layout.add spec.kind) layout) ∧
      Modest (specs.foldl (fun layout spec => layout.add spec.kind) layout) ∧
      (specs.foldl (fun layout spec => layout.add spec.kind) layout).count < formatLimit := by
  induction specs generalizing layout with
  | nil => exact ⟨rfl, hmodest, hcount⟩
  | cons spec rest ih =>
    rw [List.length_cons] at hcount
    have hadd := addLayout?_eq hmodest spec.kind (by omega)
    have hnext : (layout.add spec.kind).count + rest.length < formatLimit := by
      change layout.count + 1 + rest.length < formatLimit
      omega
    rw [List.foldlM_cons, hadd]
    exact ih (hmodest.add spec.kind) hnext

/-- Every segment is read from a byte at least. -/
theorem length_readAll_le (text : List Char) : (readAll text).length ≤ byteLength text := by
  refine readAll.induct (motive := fun text => (readAll text).length ≤ byteLength text) ?_ ?_ text
  · simp [readAll]
  · intro first rest _ reading ih
    have hpositive := byteLength_source_pos first rest
    have hlength := byteLength_append (readSegment first rest).source (readSegment first rest).rest
    have hrest : (readAll (readSegment first rest).rest).length ≤
        byteLength (readSegment first rest).rest := ih
    rw [readSegment_append] at hlength
    rw [readAll, List.length_cons, hlength]
    omega

/-- Every conversion takes a byte of the format at least. -/
theorem length_conversions_le (format : String) :
    (conversions format).length ≤ format.utf8ByteSize := by
  calc
    (conversions format).length ≤ (segments format).length := List.length_filterMap_le _ _
    _ = (readAll format.toList).length := List.length_map _
    _ ≤ byteLength format.toList := length_readAll_le _
    _ = format.utf8ByteSize := by rw [← utf8ByteSize_ofList, String.ofList_toList]

/-- The sums of a layout stay within a word. -/
theorem layout?_eq {format : String} (hshort : format.utf8ByteSize < formatLimit) :
    layout? format = some (layout format) ∧
      16 + (layout format).encodedBytes < wordLimit := by
  have hcount : ({} : Layout).count + (conversions format).length < formatLimit := by
    have hle := length_conversions_le format
    change 0 + _ < _
    omega
  obtain ⟨hsum, hmodest, hless⟩ :=
    foldlM_addLayout? (conversions format) ⟨by decide, by decide⟩ hcount
  have hencoded := hmodest.encoded_le
  have hlimit : wordLimit = 32 * formatLimit := rfl
  have hlarge : 16 < formatLimit := by decide
  refine ⟨?_, ?_⟩
  · rw [layout?, conversions?_eq]
    exact hsum
  · rw [layout]
    omega

end LogRelay.Checked
