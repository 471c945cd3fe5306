import Mathlib.Data.Int.ModEq
import LogRelay.Proofs.Record.Recall
import LogRelay.Proofs.Render.Padding
import LogRelay.Proofs.Text.Digits

/-!
# Integers as text

An integer conversion shows what its length modifier leaves of a number: as a two's
complement number for `%d` and `%i`, and as a remainder for the others.  The number that the
argument had before it was promoted settles the text, since promotion keeps more bits than
any conversion of the class prints.
-/

namespace LogRelay

namespace Format

/-- The bits that a conversion with this length modifier prints. -/
def Length.bits : Length → Nat
  | .char => 8
  | .short => 16
  | .none => 32
  | .long | .longLong | .size | .ptrDiff | .intMax => 64

/-- The base that a conversion writes integers in. -/
def Conversion.base : Conversion → Nat
  | .o => 8
  | .x | .X => 16
  | _ => 10

end Format

namespace Render

open LogRelay.Format LogRelay.Record LogRelay.Text

/-- The digits of a number under a precision: none for zero at precision zero, else a numeral
with zeros in front, as many digits as the precision at least. -/
inductive Filled (precision : Option Nat) (base : Nat) (upper : Bool) (number : Nat) :
    List Char → Prop where
  | hidden (hprecision : precision = some 0) (hzero : number = 0) :
      Filled precision base upper number []
  | shown {numeral : List Char} (hshown : ¬ (precision = some 0 ∧ number = 0))
      (hnumeral : IsNumeral base upper numeral number) :
      Filled precision base upper number
        (List.replicate (precision.getD 0 - numeral.length) '0' ++ numeral)

/-- The text of `%d` and `%i` for a number. -/
inductive ShowsSigned (spec : Spec) (number : Int) : List Char → Prop where
  | intro {value : Int} {sign digits text : List Char}
      (hlower : -2 ^ (spec.length.bits - 1) ≤ value)
      (hupper : value < 2 ^ (spec.length.bits - 1))
      (hvalue : value ≡ number [ZMOD 2 ^ spec.length.bits])
      (hsign : IsSign spec.flags (value < 0) sign)
      (hdigits : Filled spec.precision 10 false value.natAbs digits)
      (htext : Justified spec.flags (spec.precision = none) sign digits spec.width text) :
      ShowsSigned spec number text

/-- What alternate form puts in front of the digits of a number. -/
inductive IsPrefix (spec : Spec) (value : Nat) : List Char → Prop where
  | lower (halternate : spec.flags.alternate = true) (hconversion : spec.conversion = .x)
      (hvalue : value ≠ 0) : IsPrefix spec value ['0', 'x']
  | upper (halternate : spec.flags.alternate = true) (hconversion : spec.conversion = .X)
      (hvalue : value ≠ 0) : IsPrefix spec value ['0', 'X']
  | none (hplain : ¬ (spec.flags.alternate = true ∧
        (spec.conversion = .x ∨ spec.conversion = .X) ∧ value ≠ 0)) :
      IsPrefix spec value []

/-- Digits as alternate form has them: in octal they start with a zero. -/
inductive IsMarked (spec : Spec) (digits : List Char) : List Char → Prop where
  | zero (halternate : spec.flags.alternate = true) (hconversion : spec.conversion = .o)
      (hhead : digits.head? ≠ some '0') : IsMarked spec digits ('0' :: digits)
  | plain (hplain : ¬ (spec.flags.alternate = true ∧ spec.conversion = .o ∧
        digits.head? ≠ some '0')) :
      IsMarked spec digits digits

/-- The text of `%o`, `%u`, `%x` and `%X` for a number. -/
inductive ShowsUnsigned (spec : Spec) (number : Int) : List Char → Prop where
  | intro {value : Nat} {lead digits marked text : List Char}
      (hvalue : (value : Int) = number % 2 ^ spec.length.bits)
      (hdigits : Filled spec.precision spec.conversion.base (spec.conversion = .X) value digits)
      (hmarked : IsMarked spec digits marked)
      (hlead : IsPrefix spec value lead)
      (htext : Justified spec.flags (spec.precision = none) lead marked spec.width text) :
      ShowsUnsigned spec number text

variable {spec : Spec} {argument : Argument} {number : Int} {bits : UInt64}

/-! ## The printed number -/

/-- An integer class keeps the low bits of every integer argument. -/
theorem exists_coerce?_integer {kind : Kind} (hinteger : kind.isInteger)
    (hnumber : argument.number? = some number) :
    ∃ bits, argument.coerce? kind = some (.int bits) ∧
      (bits.toNat : Int) = number % 2 ^ (8 * kind.promotedSize) := by
  let bits := UInt64.ofNat (number % 2 ^ (8 * kind.promotedSize)).toNat
  have hbits : (bits.toNat : Int) = number % 2 ^ (8 * kind.promotedSize) := by
    have hsize : (2 : Int) ^ (8 * kind.promotedSize) ≤ UInt64.size := by
      cases kind <;> decide
    have hpos : (0 : Int) < 2 ^ (8 * kind.promotedSize) := by positivity
    have hlt := Int.emod_lt_of_pos number hpos
    have hge := Int.emod_nonneg number hpos.ne'
    rw [UInt64.toNat_ofNat_of_lt' (by omega)]
    omega
  exact ⟨bits, (coerce?_integer_iff hinteger).mpr ⟨number, bits, hnumber, rfl, hbits⟩, hbits⟩

/-- What the length modifier of an integer conversion leaves is a part of what its class
keeps. -/
theorem printedBits_eq (hkind : spec.kind = spec.length.integerKind) :
    spec.kind.isInteger ∧ printedBits spec = spec.length.bits ∧
      (2 : Int) ^ spec.length.bits ∣ 2 ^ (8 * spec.kind.promotedSize) := by
  rw [printedBits, hkind]
  cases spec.length <;> decide

/-- A conversion that takes integers is given bits that agree with the number in all places
it prints. -/
theorem exists_bits (hkind : spec.kind = spec.length.integerKind)
    (hnumber : argument.number? = some number) :
    ∃ bits, argument.coerce? spec.kind = some (.int bits) ∧
      printedBits spec = spec.length.bits ∧
      (bits.toNat : Int) % 2 ^ spec.length.bits = number % 2 ^ spec.length.bits := by
  obtain ⟨hinteger, hprinted, hdvd⟩ := printedBits_eq hkind
  obtain ⟨bits, hcoerce, hbits⟩ := exists_coerce?_integer hinteger hnumber
  exact ⟨bits, hcoerce, hprinted, by rw [hbits, Int.emod_emod_of_dvd number hdvd]⟩

theorem signedValue_bounds (hprinted : printedBits spec = spec.length.bits) (bits : UInt64) :
    -2 ^ (spec.length.bits - 1) ≤ signedValue spec bits ∧
      signedValue spec bits < 2 ^ (spec.length.bits - 1) := by
  have hpositive : 0 < Nat.pow 2 spec.length.bits := Nat.pow_pos (by decide)
  have hlower := Int.le_bmod (x := bits.toNat) hpositive
  have hupper := Int.bmod_lt (x := bits.toNat) hpositive
  rw [signedValue, hprinted]
  revert hlower hupper
  cases spec.length
  all_goals
    simp only [Length.bits, Nat.pow_eq]
    omega

/-! ## Digits -/

theorem isNumeral_digitsFor (conversion : Conversion) (value : Nat) :
    IsNumeral conversion.base (conversion = .X) (digitsFor conversion value) value := by
  cases conversion with
  | X => exact (isNumeral_toDigits (by decide) (by decide) value).toUpper (by decide)
  | _ => exact isNumeral_toDigits (by decide) (by decide) value

theorem filled_shownDigits {base value : Nat} {upper : Bool} {numeral : List Char}
    (hnumeral : IsNumeral base upper numeral value) (precision : Option Nat) :
    let digits := shownDigits precision value numeral
    Filled precision base upper value
      (List.replicate (leadingZeros precision digits) '0' ++ digits) := by
  intro digits
  by_cases hhidden : precision = some 0 ∧ value = 0
  · have hdigits : digits = [] := if_pos hhidden
    rw [hdigits, leadingZeros, hhidden.1]
    exact .hidden rfl hhidden.2
  · have hdigits : digits = numeral := if_neg hhidden
    rw [hdigits]
    exact .shown hhidden hnumeral

theorem expandAll_digits (zeros : Nat) (digits : List Char) :
    expandAll [.run '0' zeros, .chars digits] = List.replicate zeros '0' ++ digits := by
  simp [expandAll, Piece.expand]

/-- Zeros that the precision asks for are marking enough. -/
theorem isMarked_octalDigits (spec : Spec) (digits : List Char) :
    let zeros := List.replicate (leadingZeros spec.precision digits) '0'
    IsMarked spec (zeros ++ digits) (zeros ++ octalDigits spec digits) := by
  intro zeros
  cases hzeros : leadingZeros spec.precision digits with
  | zero =>
    have hnone : zeros = [] := by rw [← List.replicate_zero, ← hzeros]
    rw [hnone, octalDigits, List.nil_append, List.nil_append]
    split
    · next hmarked => exact .zero hmarked.1 hmarked.2.1 hmarked.2.2.2
    · next hplain =>
      exact .plain fun hmarked => hplain ⟨hmarked.1, hmarked.2.1, hzeros, hmarked.2.2⟩
  | succ count =>
    have hsome : zeros = '0' :: List.replicate count '0' := by
      rw [← List.replicate_succ, ← hzeros]
    have hdigits : octalDigits spec digits = digits := if_neg fun hmarked => by
      rw [hzeros] at hmarked
      exact absurd hmarked.2.2.1 (Nat.succ_ne_zero count)
    rw [hdigits, hsome]
    exact .plain fun hmarked => hmarked.2.2 rfl

theorem isPrefix_basePrefix (spec : Spec) (value : Nat) :
    IsPrefix spec value (basePrefix spec value) := by
  rw [basePrefix]
  split
  · next hmarked =>
    split
    · next hconversion => exact .lower hmarked.1 hconversion hmarked.2
    · next hconversion => exact .upper hmarked.1 hconversion hmarked.2
    · next hlower hupper => exact .none fun hother => hother.2.1.elim hlower hupper
  · next hplain => exact .none fun hother => hplain ⟨hother.1, hother.2.2⟩

/-! ## Conversions of integers -/

theorem renderValue_signed (hconversion : spec.conversion = .d ∨ spec.conversion = .i) :
    spec.kind = spec.length.integerKind ∧
      ∀ bits, renderValue spec (.int bits) = (signedField spec bits).pad spec := by
  rcases hconversion with hconversion | hconversion
  all_goals
    simp only [Spec.kind, Conversion.kind, renderValue, field?, hconversion, implies_true, and_self]

theorem renderValue_unsigned (hconversion : spec.conversion ∈ [Conversion.o, .u, .x, .X]) :
    spec.kind = spec.length.integerKind ∧
      ∀ bits, renderValue spec (.int bits) = (unsignedField spec bits).pad spec := by
  simp only [List.mem_cons, List.not_mem_nil, or_false] at hconversion
  rcases hconversion with hconversion | hconversion | hconversion | hconversion
  all_goals
    simp only [Spec.kind, Conversion.kind, renderValue, field?, hconversion, implies_true, and_self]

/-- Every integer argument is shown by `%d` and `%i` as the number that its lowest bits are,
with its sign, its digits and its padding. -/
theorem showsSigned_textOf (hconversion : spec.conversion = .d ∨ spec.conversion = .i)
    (hnumber : argument.number? = some number) :
    ShowsSigned spec number (textOf spec argument) := by
  obtain ⟨hkind, hrendered⟩ := renderValue_signed hconversion
  have hbase : spec.conversion.base = 10 ∧ spec.conversion ≠ .X := by
    rcases hconversion with hconversion | hconversion
    all_goals rw [hconversion]; decide
  obtain ⟨bits, hcoerce, hprinted, hbits⟩ := exists_bits hkind hnumber
  obtain ⟨hlower, hupper⟩ := signedValue_bounds hprinted bits
  have hvalue : signedValue spec bits ≡ number [ZMOD 2 ^ spec.length.bits] := by
    have hbmod := Int.bmod_emod (x := bits.toNat) (m := Nat.pow 2 spec.length.bits)
    rw [Int.ModEq, ← hbits, signedValue, hprinted]
    exact_mod_cast hbmod
  have hnumeral := isNumeral_digitsFor spec.conversion (signedValue spec bits).natAbs
  rw [hbase.1, decide_eq_false hbase.2] at hnumeral
  have hdigits := filled_shownDigits hnumeral spec.precision
  have hsign := isSign_signText spec.flags (decide (signedValue spec bits < 0))
  rw [decide_eq_true_eq] at hsign
  have htext := justified_pad (signedField spec bits) spec
  simp only [signedField, expandAll_digits, Option.isNone_iff_eq_none] at htext
  rw [textOf_eq hcoerce, hrendered]
  exact .intro hlower hupper hvalue hsign hdigits htext

/-- The least number there is, with more digits than it has and a zero flag without effect. -/
theorem showsSigned_textOf_least :
    let spec : Spec :=
      { flags := { plus := true, zero := true }, width := some 24, precision := some 21,
        length := .longLong, conversion := .d }
    let argument := Argument.int (-9223372036854775808)
    (spec.conversion = .d ∨ spec.conversion = .i) ∧
      argument.number? = some (-9223372036854775808) ∧
      ShowsSigned spec (-9223372036854775808) (textOf spec argument) ∧
      formatNow "%+024.21lld" [argument] = "  -009223372036854775808" := by
  intro spec argument
  have hnumber : argument.number? = some (-9223372036854775808) := by decide
  exact ⟨.inl rfl, hnumber, showsSigned_textOf (.inl rfl) hnumber, by decide +kernel⟩

/-- Every integer argument is shown by `%o`, `%u`, `%x` and `%X` as what its lowest bits are
without a sign, and flags for signs make no difference. -/
theorem showsUnsigned_textOf (hconversion : spec.conversion ∈ [Conversion.o, .u, .x, .X])
    (hnumber : argument.number? = some number) :
    ShowsUnsigned spec number (textOf spec argument) ∧
      ∀ plus space, textOf { spec with flags := { spec.flags with plus, space } } argument =
        textOf spec argument := by
  obtain ⟨hkind, hrendered⟩ := renderValue_unsigned hconversion
  obtain ⟨bits, hcoerce, hprinted, hbits⟩ := exists_bits hkind hnumber
  have hvalue : (unsignedValue spec bits : Int) = number % 2 ^ spec.length.bits := by
    rw [← hbits, unsignedValue, hprinted]
    exact_mod_cast rfl
  have hdigits := filled_shownDigits
    (isNumeral_digitsFor spec.conversion (unsignedValue spec bits)) spec.precision
  have htext := justified_pad (unsignedField spec bits) spec
  simp only [unsignedField, expandAll_digits, Option.isNone_iff_eq_none] at htext
  constructor
  · rw [textOf_eq hcoerce, hrendered]
    exact .intro hvalue hdigits (isMarked_octalDigits spec _)
      (isPrefix_basePrefix spec _) htext
  · intro plus space
    let changed : Spec := { spec with flags := { spec.flags with plus, space } }
    have hshown : renderValue changed (.int bits) = (unsignedField changed bits).pad changed :=
      (renderValue_unsigned (show changed.conversion ∈ _ from hconversion)).2 bits
    calc
      textOf changed argument = expandAll (renderValue changed (.int bits)) := textOf_eq hcoerce
      _ = expandAll ((unsignedField changed bits).pad changed) := by rw [hshown]
      _ = expandAll ((unsignedField spec bits).pad spec) := rfl
      _ = textOf spec argument := by rw [textOf_eq hcoerce, hrendered]

/-- Zero without digits, for which alternate form writes its one octal digit, and upper-case
digits of 16 bits of a negative number, with zeros behind their prefix. -/
theorem showsUnsigned_textOf_marked :
    let octal : Spec :=
      { flags := { alternate := true }, width := some 3, precision := some 0, conversion := .o }
    let hex : Spec :=
      { flags := { alternate := true, zero := true }, width := some 8, length := .short,
        conversion := .X }
    (octal.conversion ∈ [Conversion.o, .u, .x, .X] ∧ (Argument.bool false).number? = some 0 ∧
        ShowsUnsigned octal 0 (textOf octal (.bool false)) ∧
        formatNow "%#3.0o" [.bool false] = "  0") ∧
      hex.conversion ∈ [Conversion.o, .u, .x, .X] ∧
        (Argument.int (-21846)).number? = some (-21846) ∧
        ShowsUnsigned hex (-21846) (textOf hex (.int (-21846))) ∧
        formatNow "%#08hX" [.int (-21846)] = "0X00AAAA" := by
  intro octal hex
  have hzero : (Argument.bool false).number? = some 0 := rfl
  have hnegative : (Argument.int (-21846)).number? = some (-21846) := by decide
  have hoctal : octal.conversion ∈ [Conversion.o, .u, .x, .X] := by decide
  have hhex : hex.conversion ∈ [Conversion.o, .u, .x, .X] := by decide
  exact ⟨⟨hoctal, hzero, (showsUnsigned_textOf hoctal hzero).1, by decide +kernel⟩,
    hhex, hnegative, (showsUnsigned_textOf hhex hnegative).1, by decide +kernel⟩

end Render

end LogRelay
