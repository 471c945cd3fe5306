import LogRelay.Proofs.Render.Concatenation

/-!
# Signs and padding

A conversion shows a value as a lead and a body, and brings both to the width of its field.
What it fills the field with, and on which side, is here told from the finished text: the
text is lead and body as they are, or it has exactly the width, with one run of blanks or
zeros in one of three places.
-/

namespace LogRelay.Render

open LogRelay.Format LogRelay.Text

/-- The text that a conversion makes of an argument of a call site. -/
def textOf (spec : Spec) (argument : Argument) : List Char :=
  expandAll (renderSegment Source.arguments [argument] (.conversion spec)).1

/-- What stands in front of a number: a minus for a negative one, and for others what the
flags ask for, of which the plus counts first. -/
inductive IsSign (flags : Flags) (negative : Prop) : List Char → Prop where
  | minus (hnegative : negative) : IsSign flags negative ['-']
  | plus (hpositive : ¬ negative) (hplus : flags.plus = true) : IsSign flags negative ['+']
  | space (hpositive : ¬ negative) (hplus : flags.plus = false) (hspace : flags.space = true) :
      IsSign flags negative [' ']
  | none (hpositive : ¬ negative) (hplus : flags.plus = false) (hspace : flags.space = false) :
      IsSign flags negative []

/-- A text of `lead` and `body` in a field of some width, in bytes.  `zeroFill` tells whether
the zero flag has any say. -/
inductive Justified (flags : Flags) (zeroFill : Prop) (lead body : List Char) :
    Option Nat → List Char → Prop where
  | whole {width : Option Nat} (hwidth : ∀ least ∈ width, least ≤ byteLength (lead ++ body)) :
      Justified flags zeroFill lead body width (lead ++ body)
  | left {count : Nat} (hcount : 0 < count) (hleft : flags.left = true) :
      Justified flags zeroFill lead body (some (byteLength (lead ++ body) + count))
        (lead ++ body ++ List.replicate count ' ')
  | zeros {count : Nat} (hcount : 0 < count) (hright : flags.left = false)
      (hzero : flags.zero = true ∧ zeroFill) :
      Justified flags zeroFill lead body (some (byteLength (lead ++ body) + count))
        (lead ++ List.replicate count '0' ++ body)
  | right {count : Nat} (hcount : 0 < count) (hright : flags.left = false)
      (hblank : ¬ (flags.zero = true ∧ zeroFill)) :
      Justified flags zeroFill lead body (some (byteLength (lead ++ body) + count))
        (List.replicate count ' ' ++ lead ++ body)

theorem Justified.eq_append {flags : Flags} {zeroFill : Prop} {lead body text : List Char}
    (htext : Justified flags zeroFill lead body none text) : text = lead ++ body := by
  cases htext
  rfl

theorem textOf_eq {spec : Spec} {argument : Argument} {value : Value}
    (hcoerce : argument.coerce? spec.kind = some value) :
    textOf spec argument = expandAll (renderValue spec value) := by
  rw [textOf, renderSegment_conversion]
  simp only [Source.arguments, hcoerce, shown]

theorem isSign_signText (flags : Flags) (negative : Bool) :
    IsSign flags (negative = true) (signText flags negative) := by
  rw [signText]
  split
  · next hnegative => exact .minus hnegative
  · next hpositive =>
    split
    · next hplus => exact .plus hpositive hplus
    · next hplus =>
      rw [Bool.not_eq_true] at hplus
      split
      · next hspace => exact .space hpositive hplus hspace
      · next hspace => exact .none hpositive hplus (Bool.eq_false_iff.mpr hspace)

/-! ## Fields -/

theorem byteLength_replicate (count : Nat) (char : Char) :
    byteLength (List.replicate count char) = count * char.utf8Size := by
  induction count with
  | zero => rw [List.replicate_zero, byteLength_nil, Nat.zero_mul]
  | succ count ih => rw [List.replicate_succ, byteLength_cons, ih, Nat.succ_mul, Nat.add_comm]

theorem byteLength_expandAll (pieces : List Piece) :
    byteLength (expandAll pieces) = byteLengthAll pieces := by
  induction pieces with
  | nil => rfl
  | cons piece rest ih =>
    have hpiece : byteLength piece.expand = piece.byteLength := by
      cases piece with
      | chars text => rfl
      | run char count => exact byteLength_replicate count char
    rw [expandAll, List.flatMap_cons, byteLength_append, hpiece]
    exact congrArg (piece.byteLength + ·) ih

/-- The text of a padded field, with the run that fills it. -/
theorem expandAll_pad (field : Field) (spec : Spec) :
    expandAll (field.pad spec) =
      let fill := spec.width.getD 0 - byteLength (field.lead ++ expandAll field.body)
      if spec.flags.left then
        field.lead ++ expandAll field.body ++ List.replicate fill ' '
      else if spec.flags.zero && field.zeroFill then
        field.lead ++ List.replicate fill '0' ++ expandAll field.body
      else
        List.replicate fill ' ' ++ field.lead ++ expandAll field.body := by
  have hlength : field.byteLength = byteLength (field.lead ++ expandAll field.body) := by
    rw [byteLength_append, byteLength_expandAll, Field.byteLength]
  simp only [Field.pad, hlength]
  split
  · simp [expandAll, Piece.expand]
  · split
    · simp [expandAll, Piece.expand]
    · simp [expandAll, Piece.expand]

theorem justified_pad (field : Field) (spec : Spec) :
    Justified spec.flags (field.zeroFill = true) field.lead (expandAll field.body) spec.width
      (expandAll (field.pad spec)) := by
  rw [expandAll_pad]
  generalize expandAll field.body = body
  cases hfill : spec.width.getD 0 - byteLength (field.lead ++ body) with
  | zero =>
    have hwhole : ∀ least ∈ spec.width, least ≤ byteLength (field.lead ++ body) := by
      intro least hleast
      rw [Option.mem_def.mp hleast, Option.getD_some] at hfill
      omega
    simp only [List.replicate_zero, List.append_nil, List.nil_append, ite_self]
    exact .whole hwhole
  | succ count =>
    have hwidth : spec.width = some (byteLength (field.lead ++ body) + (count + 1)) := by
      cases hgiven : spec.width with
      | none =>
        rw [hgiven, Option.getD_none, Nat.zero_sub] at hfill
        contradiction
      | some width =>
        rw [hgiven, Option.getD_some] at hfill
        exact congrArg some (by omega)
    rw [hwidth]
    simp only
    split
    · next hleft => exact .left (Nat.succ_pos count) hleft
    · next hright =>
      rw [Bool.not_eq_true] at hright
      split
      · next hzero => exact .zeros (Nat.succ_pos count) hright (Bool.and_eq_true_iff.mp hzero)
      · next hblank =>
        exact .right (Nat.succ_pos count) hright (mt Bool.and_eq_true_iff.mpr hblank)

end LogRelay.Render
