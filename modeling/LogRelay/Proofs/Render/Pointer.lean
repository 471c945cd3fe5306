import LogRelay.Proofs.Render.Integer
import LogRelay.Proofs.Render.Width

/-!
# Pointers

An address is shown as the hexadecimal number it is, with the prefix of alternate form.  Unlike
a number it takes no zeros, neither for a precision nor for a width: the two texts are the same
as long as nothing asks a number for more zeros than it has digits.
-/

namespace LogRelay.Render

open LogRelay.Format LogRelay.Record LogRelay.Text

/-- The conversion `%#lx` with the flags, width and precision of another. -/
def asHexadecimal (spec : Spec) : Spec :=
  { spec with
    flags := { spec.flags with alternate := true }, length := .long, conversion := .x }

/-- The specification without what asks a number for zeros. -/
def withoutZeros (spec : Spec) : Spec :=
  { spec with flags := { spec.flags with zero := false }, precision := none }

def addressDigits (address : UInt64) : List Char :=
  Nat.toDigits 16 address.toNat

/-- The width of a number is filled with zeros. -/
structure FillsWithZeros (spec : Spec) : Prop where
  right : spec.flags.left = false
  zero : spec.flags.zero = true
  precision_eq : spec.precision = none

/-- A text brought to a width with blanks. -/
def spaced (spec : Spec) (text : List Char) : List Char :=
  let fill := spec.width.getD 0 - byteLength text
  if spec.flags.left then text ++ List.replicate fill ' ' else List.replicate fill ' ' ++ text

variable {spec : Spec} {address : UInt64}

theorem count_spaced {text : List Char} (htext : ' ' ∉ text) :
    (spaced spec text).count ' ' = spec.width.getD 0 - byteLength text := by
  have hnone : text.count ' ' = 0 := List.count_eq_zero.mpr htext
  rw [spaced]
  split
  · rw [List.count_append, hnone, List.count_replicate_self, Nat.zero_add]
  · rw [List.count_append, hnone, List.count_replicate_self, Nat.add_zero]

/-- Blanks are told from a text that has none of its own. -/
theorem spaced_inj {left right : List Char} (hleft : ' ' ∉ left) (hright : ' ' ∉ right) :
    spaced spec left = spaced spec right ↔ left = right := by
  refine ⟨fun heq => ?_, congrArg (spaced spec)⟩
  have hfill := congrArg (List.count ' ') heq
  rw [count_spaced hleft, count_spaced hright] at hfill
  rw [spaced, spaced, hfill] at heq
  split at heq
  · exact List.append_cancel_right heq
  · exact List.append_cancel_left heq

/-- A field that no zeros fill. -/
theorem expandAll_pad_of_blank {field : Field}
    (hblank : spec.flags.left = false → (spec.flags.zero && field.zeroFill) = false) :
    expandAll (field.pad spec) = spaced spec (field.lead ++ expandAll field.body) := by
  rw [expandAll_pad, spaced]
  split
  · rfl
  · next hright =>
    rw [Bool.not_eq_true] at hright
    rw [hblank hright]
    simp only [Bool.false_eq_true, if_false, List.append_assoc]

/-! ## Digits in base sixteen -/

theorem spells_addressDigits (address : UInt64) :
    Spells 16 false (addressDigits address) address.toNat :=
  spells_toDigits (by decide) (by decide) address.toNat

theorem byteLength_addressDigits (address : UInt64) :
    byteLength (['0', 'x'] ++ addressDigits address) = 2 + (addressDigits address).length := by
  rw [byteLength_append, (spells_addressDigits address).byteLength_eq (by decide)]
  rfl

theorem blank_not_mem_zeros_append (address : UInt64) (zeros : Nat) :
    ' ' ∉ ['0', 'x'] ++ (List.replicate zeros '0' ++ addressDigits address) := by
  have hspells := (spells_addressDigits address).zeros_append (by decide) zeros
  rw [List.mem_append, not_or]
  exact ⟨by decide, hspells.not_mem (by decide)⟩

theorem blank_not_mem_addressDigits (address : UInt64) :
    ' ' ∉ ['0', 'x'] ++ addressDigits address :=
  blank_not_mem_zeros_append address 0

/-! ## Both texts -/

theorem textOf_ptr (hconversion : spec.conversion = .p) (hne : address ≠ 0) :
    textOf spec (.ptr address) = spaced spec (['0', 'x'] ++ addressDigits address) := by
  have hcoerce : (Argument.ptr address).coerce? spec.kind = some (.pointer address) := by
    rw [Spec.kind, hconversion]
    rfl
  have hfield : field? spec (.pointer address) = some (pointerField address) := by
    simp only [field?, hconversion]
  have hpointer : pointerField address = ⟨['0', 'x'], [.chars (addressDigits address)], false⟩ :=
    if_neg hne
  have hbody : expandAll [.chars (addressDigits address)] = addressDigits address := by
    rw [expandAll, List.flatMap_singleton, Piece.expand]
  rw [textOf_eq hcoerce, renderValue_of_field? hfield, hpointer,
    expandAll_pad_of_blank fun _ => Bool.and_false _, hbody]

/-- A number other than zero has a prefix and digits of its own, in front of which its precision
puts zeros. -/
theorem unsignedField_asHexadecimal (hne : address ≠ 0) :
    unsignedField (asHexadecimal spec) (lowBytes address 8) =
      ⟨['0', 'x'],
        [.run '0' (spec.precision.getD 0 - (addressDigits address).length),
          .chars (addressDigits address)],
        spec.precision.isNone⟩ := by
  have hpositive : address.toNat ≠ 0 := fun hzero => hne (UInt64.toNat_inj.mp hzero)
  have hvalue : unsignedValue (asHexadecimal spec) (lowBytes address 8) = address.toNat := by
    have hlt : address.toNat < 2 ^ 64 := address.toNat_lt
    have hprinted : printedBits (asHexadecimal spec) = 64 := rfl
    rw [unsignedValue, hprinted, toNat_lowBytes, Nat.mod_eq_of_lt hlt, Nat.pow_eq,
      Nat.mod_eq_of_lt hlt]
  have hletter : digitsFor (asHexadecimal spec).conversion address.toNat =
      addressDigits address := rfl
  have hprecision : (asHexadecimal spec).precision = spec.precision := rfl
  have hshown : shownDigits spec.precision address.toNat (addressDigits address) =
      addressDigits address := if_neg fun hhidden => hpositive hhidden.2
  have hlead : basePrefix (asHexadecimal spec) address.toNat = ['0', 'x'] :=
    if_pos ⟨rfl, hpositive⟩
  have hmarked : octalDigits (asHexadecimal spec) (addressDigits address) =
      addressDigits address := if_neg fun hoctal => Conversion.noConfusion hoctal.2.1
  rw [unsignedField]
  simp only [hvalue, hlead, hletter, hprecision, hshown, hmarked, leadingZeros]

theorem textOf_asHexadecimal (hne : address ≠ 0) :
    textOf (asHexadecimal spec) (.uint address) =
      expandAll (Field.pad ⟨['0', 'x'],
        [.run '0' (spec.precision.getD 0 - (addressDigits address).length),
          .chars (addressDigits address)],
        spec.precision.isNone⟩ (asHexadecimal spec)) := by
  have hcoerce : (Argument.uint address).coerce? (asHexadecimal spec).kind =
      some (.int (lowBytes address 8)) := rfl
  have hfield : field? (asHexadecimal spec) (.int (lowBytes address 8)) =
      some (unsignedField (asHexadecimal spec) (lowBytes address 8)) := rfl
  rw [textOf_eq hcoerce, renderValue_of_field? hfield, unsignedField_asHexadecimal hne]

theorem textOf_asHexadecimal_of_not_fills (hne : address ≠ 0) (hblank : ¬ FillsWithZeros spec) :
    textOf (asHexadecimal spec) (.uint address) =
      spaced spec (['0', 'x'] ++
        (List.replicate (spec.precision.getD 0 - (addressDigits address).length) '0' ++
          addressDigits address)) := by
  have hfill (hright : spec.flags.left = false) :
      (spec.flags.zero && spec.precision.isNone) = false := by
    rw [← Bool.not_eq_true, Bool.and_eq_true_iff, Option.isNone_iff_eq_none]
    exact fun hzero => hblank ⟨hright, hzero.1, hzero.2⟩
  rw [textOf_asHexadecimal hne, expandAll_pad_of_blank hfill, expandAll_digits]
  rfl

theorem textOf_asHexadecimal_of_fills (hne : address ≠ 0) (hfills : FillsWithZeros spec) :
    textOf (asHexadecimal spec) (.uint address) =
      ['0', 'x'] ++
        (List.replicate (spec.width.getD 0 - (2 + (addressDigits address).length)) '0' ++
          addressDigits address) := by
  rw [textOf_asHexadecimal hne, expandAll_pad, expandAll_digits, asHexadecimal, hfills.right,
    hfills.zero, hfills.precision_eq]
  simp only [Option.getD_none, Nat.zero_sub, List.replicate_zero, List.nil_append,
    Option.isNone_none, Bool.and_true, if_true, Bool.false_eq_true, if_false,
    byteLength_addressDigits, List.append_assoc]

/-! ## Where they agree -/

/-- A bound that may be absent asks for no more than is there. -/
theorem getD_sub_eq_zero_iff (bound : Option Nat) (length : Nat) :
    bound.getD 0 - length = 0 ↔ ∀ least ∈ bound, least ≤ length := by
  cases bound with
  | none => exact iff_of_true (Nat.zero_sub length) nofun
  | some least =>
    simp only [Option.getD_some, Nat.sub_eq_zero_iff_le, Option.mem_some_iff, forall_eq']

/-- Blanks and zeros that fill the same width differ, unless there are none. -/
theorem spaced_eq_iff_of_fills (hfills : FillsWithZeros spec) :
    spaced spec (['0', 'x'] ++ addressDigits address) =
        ['0', 'x'] ++
          (List.replicate (spec.width.getD 0 - (2 + (addressDigits address).length)) '0' ++
            addressDigits address) ↔
      ∀ width ∈ spec.width, width ≤ 2 + (addressDigits address).length := by
  rw [← getD_sub_eq_zero_iff]
  constructor
  · intro heq
    have hcount := congrArg (List.count ' ') heq
    rwa [count_spaced (blank_not_mem_addressDigits address), byteLength_addressDigits,
      List.count_eq_zero.mpr (blank_not_mem_zeros_append address _)] at hcount
  · intro hnone
    rw [spaced, byteLength_addressDigits, hnone, hfills.right]
    rfl

/-- A pointer other than null is shown as `%#lx` shows its address when neither a precision nor the
zero flag is there, and otherwise when these would add no zeros. -/
theorem textOf_ptr_eq_iff (hconversion : spec.conversion = .p) (hne : address ≠ 0) :
    textOf spec (.ptr address) = textOf (asHexadecimal (withoutZeros spec)) (.uint address) ∧
      (textOf spec (.ptr address) = textOf (asHexadecimal spec) (.uint address) ↔
        (∀ precision ∈ spec.precision, precision ≤ (addressDigits address).length) ∧
          (FillsWithZeros spec →
            ∀ width ∈ spec.width, width ≤ 2 + (addressDigits address).length)) := by
  rw [textOf_ptr hconversion hne]
  constructor
  · have hblank : ¬ FillsWithZeros (withoutZeros spec) :=
      fun hfills => Bool.false_ne_true hfills.zero
    have hnone : (withoutZeros spec).precision.getD 0 - (addressDigits address).length = 0 :=
      Nat.zero_sub _
    rw [textOf_asHexadecimal_of_not_fills hne hblank, hnone]
    rfl
  · by_cases hfills : FillsWithZeros spec
    · rw [textOf_asHexadecimal_of_fills hne hfills, spaced_eq_iff_of_fills hfills,
        hfills.precision_eq]
      constructor
      · exact fun hwidth => ⟨nofun, fun _ => hwidth⟩
      · exact fun hboth => hboth.2 hfills
    · rw [textOf_asHexadecimal_of_not_fills hne hfills,
        spaced_inj (blank_not_mem_addressDigits address) (blank_not_mem_zeros_append address _),
        List.append_cancel_left_eq, List.self_eq_append_left, List.replicate_eq_nil_iff,
        getD_sub_eq_zero_iff]
      exact (and_iff_left fun hother => absurd hother hfills).symm

/-- A precision that the digits reach, in a wide field. -/
theorem textOf_ptr_eq_iff_short :
    let spec : Spec :=
      { flags := { left := true, zero := true }, width := some 10, precision := some 4,
        conversion := .p }
    spec.conversion = .p ∧ (4096 : UInt64) ≠ 0 ∧
      textOf spec (.ptr 4096) = textOf (asHexadecimal (withoutZeros spec)) (.uint 4096) ∧
      textOf spec (.ptr 4096) = textOf (asHexadecimal spec) (.uint 4096) ∧
      formatNow "%-010.4p" [.ptr 4096] = "0x1000    " := by
  intro spec
  have hne : (4096 : UInt64) ≠ 0 := by decide
  have hboth := textOf_ptr_eq_iff (show spec.conversion = .p from rfl) hne
  have hprecision : ∀ precision ∈ spec.precision, precision ≤ (addressDigits 4096).length := by
    decide +kernel
  have hleft : ¬ FillsWithZeros spec := fun hfills => Bool.noConfusion hfills.right
  exact ⟨rfl, hne, hboth.1, hboth.2.mpr ⟨hprecision, fun hfills => absurd hfills hleft⟩,
    by decide +kernel⟩

/-- Zeros that a number has and a pointer has not, from the zero flag and from a precision. -/
theorem formatNow_pointer_without_zeros :
    (formatNow "%020p" [.ptr 4096] = "              0x1000" ∧
        formatNow "%#020lx" [.uint 4096] = "0x000000000000001000") ∧
      formatNow "%.8p" [.ptr 4096] = "0x1000" ∧
        formatNow "%#.8lx" [.uint 4096] = "0x00001000" := by
  refine ⟨⟨?_, ?_⟩, ?_, ?_⟩ <;> decide +kernel

end LogRelay.Render
