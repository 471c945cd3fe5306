import LogRelay.Proofs.Render.Padding
import LogRelay.Proofs.Text.Bounded

/-!
# Widths

A width only pads.  Under every conversion but those of integers, the text of a value with a
width is the text without one, and what fills the field stands behind it, in front of it, or,
where zeros may fill it, behind its sign.
-/

namespace LogRelay.Render

open LogRelay.Format LogRelay.Text

def valueText (spec : Spec) (value : Value) : List Char :=
  expandAll (renderValue spec value)

/-- Values of the class of a conversion, for all conversions that show something other than an
integer. -/
inductive Fits (conversion : Conversion) : Value → Prop where
  | real (hconversion : conversion ∈ [Conversion.f, .F, .e, .E, .g, .G]) (number : Binary64) :
      Fits conversion (.double number)
  | text (hconversion : conversion = .s) (static : StaticText) : Fits conversion (.str static)
  | char (hconversion : conversion = .c) (bits : UInt64) : Fits conversion (.int bits)
  | pointer (hconversion : conversion = .p) (address : UInt64) :
      Fits conversion (.pointer address)

/-- Only finite numbers may be filled up with zeros. -/
def IsFinite (value : Value) : Prop :=
  ∃ number, value = .double number ∧ number.isFinite = true

/-- The text `narrow` of a value brought to a width in bytes. -/
inductive Widened (flags : Flags) (value : Value) (width : Nat) (narrow : List Char) :
    List Char → Prop where
  | left (hleft : flags.left = true) :
      Widened flags value width narrow
        (narrow ++ List.replicate (width - byteLength narrow) ' ')
  | zeros {number : Binary64} {sign body : List Char} (hright : flags.left = false)
      (hzero : flags.zero = true) (hvalue : value = .double number)
      (hfinite : number.isFinite = true)
      (hsign : IsSign flags (number.isNegative = true) sign) (hnarrow : narrow = sign ++ body) :
      Widened flags value width narrow
        (sign ++ List.replicate (width - byteLength narrow) '0' ++ body)
  | right (hright : flags.left = false) (hblank : ¬ (flags.zero = true ∧ IsFinite value)) :
      Widened flags value width narrow
        (List.replicate (width - byteLength narrow) ' ' ++ narrow)

variable {spec : Spec} {value : Value}

theorem Widened.byteLength_eq {flags : Flags} {width : Nat} {narrow text : List Char}
    (hwidened : Widened flags value width narrow text) :
    byteLength text = max width (byteLength narrow) := by
  have hblank : Char.utf8Size ' ' = 1 := by decide
  have hzero : Char.utf8Size '0' = 1 := by decide
  cases hwidened with
  | left =>
    rw [byteLength_append, byteLength_replicate, hblank]
    omega
  | zeros _ _ _ _ _ hnarrow =>
    rw [hnarrow]
    simp only [byteLength_append, byteLength_replicate, hzero]
    omega
  | right =>
    rw [byteLength_append, byteLength_replicate, hblank]
    omega

/-! ## The field of a value -/

theorem renderValue_of_field? {field : Field} (hfield : field? spec value = some field) :
    renderValue spec value = field.pad spec := by
  rw [renderValue, hfield]
  intro address hconversion hvalue
  have hnone : field? spec value = none := by simp only [field?, hconversion, hvalue]
  rw [hnone] at hfield
  contradiction

/-- The same field is padded to every width. -/
theorem valueText_width {field : Field} (hfield : field? spec value = some field)
    (width : Option Nat) :
    valueText { spec with width } value = expandAll (field.pad { spec with width }) := by
  have hsame : field? { spec with width } value = some field := hfield
  rw [valueText, renderValue_of_field? hsame]

theorem lead_realField (spec : Spec) (number : Binary64) :
    (realField spec number).lead = signText spec.flags number.isNegative := by
  rw [realField]
  split <;> rfl

theorem zeroFill_realField (spec : Spec) (number : Binary64) :
    (realField spec number).zeroFill = number.isFinite := by
  rw [realField]
  split
  · next hfinite => exact hfinite.symm
  · next hspecial => exact (Bool.eq_false_of_not_eq_true hspecial).symm

/-- Every value of the class of a conversion has a field.  Zeros may fill it exactly if the value
is a finite number, and then its lead is the sign. -/
theorem Fits.exists_field (hfits : Fits spec.conversion value) :
    ∃ field, field? spec value = some field ∧ (field.zeroFill = true ↔ IsFinite value) ∧
      ∀ number, value = .double number →
        IsSign spec.flags (number.isNegative = true) field.lead := by
  cases hfits with
  | real hconversion number =>
    have hfield : field? spec (.double number) = some (realField spec number) := by
      simp only [List.mem_cons, List.not_mem_nil, or_false] at hconversion
      rcases hconversion with hconversion | hconversion | hconversion | hconversion |
        hconversion | hconversion
      all_goals simp only [field?, hconversion]
    refine ⟨realField spec number, hfield, ?_, ?_⟩
    · rw [zeroFill_realField]
      constructor
      · exact fun hfinite => ⟨number, rfl, hfinite⟩
      · rintro ⟨other, hother, hfinite⟩
        cases hother
        exact hfinite
    · intro other hother
      cases hother
      rw [lead_realField]
      exact isSign_signText spec.flags number.isNegative
  | text hconversion static =>
    refine ⟨textField spec static.text, by simp only [field?, hconversion], ?_, nofun⟩
    exact iff_of_false Bool.false_ne_true nofun
  | char hconversion bits =>
    refine ⟨charField bits, by simp only [field?, hconversion], ?_, nofun⟩
    exact iff_of_false Bool.false_ne_true nofun
  | pointer hconversion address =>
    refine ⟨pointerField address, by simp only [field?, hconversion], ?_, nofun⟩
    rw [pointerField]
    split <;> exact iff_of_false Bool.false_ne_true nofun

/-! ## Padding -/

/-- A field padded to a width is the field without one, and a run that fills it. -/
theorem widened_pad {field : Field} (hzeroFill : field.zeroFill = true ↔ IsFinite value)
    (hsign : ∀ number, value = .double number →
      IsSign spec.flags (number.isNegative = true) field.lead)
    (width : Nat) :
    Widened spec.flags value width (expandAll (field.pad { spec with width := none }))
      (expandAll (field.pad { spec with width := some width })) := by
  have hnarrow : expandAll (field.pad { spec with width := none }) =
      field.lead ++ expandAll field.body :=
    (justified_pad field { spec with width := none }).eq_append
  rw [hnarrow, expandAll_pad]
  simp only [Option.getD_some]
  split
  · next hleft => exact .left hleft
  · next hright =>
    rw [Bool.not_eq_true] at hright
    split
    · next hzero =>
      rw [Bool.and_eq_true_iff] at hzero
      obtain ⟨number, hvalue, hfinite⟩ := hzeroFill.mp hzero.2
      exact .zeros hright hzero.1 hvalue hfinite (hsign number hvalue) rfl
    · next hblank =>
      rw [List.append_assoc]
      refine .right hright fun hzero => hblank ?_
      rw [Bool.and_eq_true_iff]
      exact ⟨hzero.1, hzeroFill.mpr hzero.2⟩

/-- Without a width `%s` shows the text as far as its precision goes. -/
theorem valueText_str (hconversion : spec.conversion = .s) (hwidth : spec.width = none)
    (static : StaticText) :
    (spec.precision = none → String.ofList (valueText spec (.str static)) = static.text) ∧
      ∀ limit ∈ spec.precision,
        IsLongestCut limit static.text (String.ofList (valueText spec (.str static))) := by
  have hfield : field? spec (.str static) = some (textField spec static.text) := by
    simp only [field?, hconversion]
  have hshown : valueText spec (.str static) = expandAll (textField spec static.text).body := by
    have htext := justified_pad (textField spec static.text) spec
    rw [← renderValue_of_field? hfield, hwidth] at htext
    exact htext.eq_append
  rw [hshown, textField, expandAll, List.flatMap_singleton, Piece.expand]
  constructor
  · intro hprecision
    rw [hprecision]
    exact String.ofList_toList
  · intro limit hlimit
    have hcut := isLongestCut_fit limit static.text.toList
    rw [String.ofList_toList] at hcut
    rw [Option.mem_def.mp hlimit]
    exact hcut

/-- Under a conversion of text, characters, pointers or real numbers, a width only pads: the text
has at least so many bytes, and what is not padding in it is the text without a width. -/
theorem widened_valueText (hfits : Fits spec.conversion value) (width : Nat) :
    let narrow := valueText { spec with width := none } value
    let wide := valueText { spec with width := some width } value
    byteLength wide = max width (byteLength narrow) ∧
      Widened spec.flags value width narrow wide ∧
      ∀ static, value = .str static →
        (spec.precision = none → String.ofList narrow = static.text) ∧
          ∀ limit ∈ spec.precision, IsLongestCut limit static.text (String.ofList narrow) := by
  intro narrow wide
  obtain ⟨field, hfield, hzeroFill, hsign⟩ := hfits.exists_field
  have hwidened : Widened spec.flags value width narrow wide := by
    have hpad := widened_pad hzeroFill hsign width
    rwa [← valueText_width hfield, ← valueText_width hfield] at hpad
  refine ⟨hwidened.byteLength_eq, hwidened, ?_⟩
  rintro static rfl
  cases hfits with
  | text hconversion =>
    let unpadded : Spec := { spec with width := none }
    have hunpadded : unpadded.conversion = .s := hconversion
    exact valueText_str hunpadded rfl static

/-- Zeros behind the sign of a finite number, blanks before an infinite one in spite of the zero
flag, and blanks behind a text that is cut before a character of two bytes. -/
theorem widened_valueText_kinds :
    let real : Spec := { flags := { zero := true }, conversion := .F }
    let cut : Spec := { flags := { left := true }, precision := some 2, conversion := .s }
    let number : Value := .double ⟨0xbff8000000000000⟩
    let infinite : Value := .double ⟨0xfff0000000000000⟩
    let static : StaticText := ⟨4096, "néon"⟩
    (Fits real.conversion number ∧
        Widened real.flags number 12 (valueText { real with width := none } number)
          (valueText { real with width := some 12 } number) ∧
        formatNow "%F" [.float ⟨0xbff8000000000000⟩] = "-1.500000" ∧
        formatNow "%012F" [.float ⟨0xbff8000000000000⟩] = "-0001.500000") ∧
      (Fits real.conversion infinite ∧
        Widened real.flags infinite 12 (valueText { real with width := none } infinite)
          (valueText { real with width := some 12 } infinite) ∧
        formatNow "%012F" [.float ⟨0xfff0000000000000⟩] = "        -INF") ∧
      Fits cut.conversion (.str static) ∧
        byteLength (valueText { cut with width := some 4 } (.str static)) = 4 ∧
        IsLongestCut 2 static.text
          (String.ofList (valueText { cut with width := none } (.str static))) ∧
        formatNow "%-4.2s" [.str static] = "n   " := by
  intro real cut number infinite static
  have hnumber : Fits real.conversion number := .real (by decide) _
  have hinfinite : Fits real.conversion infinite := .real (by decide) _
  have hstatic : Fits cut.conversion (.str static) := .text rfl static
  have hlength : byteLength (valueText { cut with width := none } (.str static)) = 1 := by
    decide +kernel
  have hcut := widened_valueText hstatic 4
  refine ⟨⟨hnumber, (widened_valueText hnumber 12).2.1, by decide +kernel, by decide +kernel⟩,
    ⟨hinfinite, (widened_valueText hinfinite 12).2.1, by decide +kernel⟩, hstatic, ?_,
    (hcut.2.2 static rfl).2 2 rfl, by decide +kernel⟩
  rw [hcut.1, hlength]
  rfl

end LogRelay.Render
