import Mathlib.Data.List.Basic
import Mathlib.Data.List.TakeWhile
import LogRelay.Decimal.Numeral
import LogRelay.Proofs.Text.Digits

/-!
# Decimal notation taken apart

The text of a number is its digits with a point among them and, in exponential notation, an
exponent behind.  What the digits spell does not depend on where the point is, so both
notations are described by the digits on either side of the point and by the one number that
all of them spell.  Zeros at the end of the fraction, streamed or dropped, multiply that number
and its unit against each other.
-/

namespace LogRelay.Decimal

open LogRelay.Text

/-- Digits before and behind a point.  There is one when digits follow it, and in alternate
form. -/
def aroundPoint (alternate : Bool) (whole fraction : List Char) : List Char :=
  if fraction = [] ∧ alternate = false then whole else whole ++ '.' :: fraction

/-- The digits of `number` on either side of a point, with no zero in front that could be left
out. -/
structure IsDecimal (whole fraction : List Char) (number : Nat) : Prop where
  unpadded : Unpadded whole
  spells : Spells 10 false (whole ++ fraction) number

/-- `text` is the letter of an exponent, its sign, and its digits, two of them or as many as
it needs. -/
inductive IsExponent (upper : Bool) (exponent : Int) : List Char → Prop where
  | intro {sign : Char} {digits : List Char}
      (hsign : sign = if exponent < 0 then '-' else '+')
      (hspells : Spells 10 false digits exponent.natAbs)
      (hdigits : digits.length = 2 ∨ 2 < digits.length ∧ Unpadded digits) :
      IsExponent upper exponent ((if upper then 'E' else 'e') :: sign :: digits)

variable {char : Char} {whole fraction text : List Char} {number places : Nat}

theorem aroundPoint_true (whole fraction : List Char) :
    aroundPoint true whole fraction = whole ++ '.' :: fraction :=
  if_neg fun hplain => Bool.noConfusion hplain.2

/-! ## The digits before and behind the point -/

theorem point_not_mem {upper : Bool} (hspells : Spells 10 upper text number) : '.' ∉ text :=
  hspells.not_mem (by cases upper <;> decide)

theorem IsDecimal.point_not_mem (hdecimal : IsDecimal whole fraction number) :
    '.' ∉ whole ∧ '.' ∉ fraction := by
  have hnone := Decimal.point_not_mem hdecimal.spells
  rwa [List.mem_append, not_or] at hnone

theorem IsDecimal.append_zeros (hdecimal : IsDecimal whole fraction number) (count : Nat) :
    IsDecimal whole (fraction ++ List.replicate count '0') (number * 10 ^ count) where
  unpadded := hdecimal.unpadded
  spells := by
    rw [← List.append_assoc]
    exact hdecimal.spells.append_zeros (by decide) count

theorem IsDecimal.of_append_zeros {count : Nat}
    (hdecimal : IsDecimal whole (fraction ++ List.replicate count '0') number) :
    ∃ front, IsDecimal whole fraction front ∧ number = front * 10 ^ count := by
  obtain ⟨hunpadded, hspells⟩ := hdecimal
  rw [← List.append_assoc] at hspells
  obtain ⟨front, hfront, hnumber⟩ := hspells.of_append_zeros (by decide)
  exact ⟨front, ⟨hunpadded, hfront⟩, hnumber⟩

/-- A number with a point before its last digits has at least one digit in front of it. -/
theorem exists_placePoint (number places : Nat) :
    ∃ whole fraction, placePoint number places = aroundPoint false whole fraction ∧
      fraction.length = places ∧ IsDecimal whole fraction number := by
  have hnumeral : IsNumeral 10 false (Nat.toDigits 10 number) number :=
    isNumeral_toDigits (by decide) (by decide) number
  rw [placePoint, List.leftpad]
  generalize Nat.toDigits 10 number = numeral at *
  generalize hdigits : List.replicate (places + 1 - numeral.length) '0' ++ numeral = digits
  have hlength : digits.length = max (places + 1) numeral.length := by
    rw [← hdigits, List.length_append, List.length_replicate]
    omega
  have hspells : Spells 10 false digits number :=
    hdigits ▸ hnumeral.spells.zeros_append (by decide) _
  have hfraction : (digits.drop (digits.length - places)).length = places := by
    rw [List.length_drop]
    omega
  refine ⟨digits.take (digits.length - places), digits.drop (digits.length - places), ?_,
    hfraction, ?_, by rwa [List.take_append_drop]⟩
  · have hpoint : digits.drop (digits.length - places) = [] ↔ places = 0 := by
      rw [← List.length_eq_zero_iff, hfraction]
    simp only [aroundPoint, hpoint, and_true]
  · rcases Nat.lt_or_ge places numeral.length with hlong | hshort
    · have hsame : digits = numeral := by
        rw [← hdigits, Nat.sub_eq_zero_of_le hlong, List.replicate_zero, List.nil_append]
      rw [hsame] at hlength ⊢
      exact hnumeral.toUnpadded.take (by omega)
    · have hone : (digits.take (digits.length - places)).length = 1 := by
        rw [List.length_take]
        omega
      obtain ⟨char, hchar⟩ := List.length_eq_one_iff.mp hone
      rw [hchar]
      exact unpadded_singleton char

/-- A number of one digit more than there are places has a single digit before the point. -/
theorem IsDecimal.exists_first (hdecimal : IsDecimal whole fraction number)
    (hlt : number < 10 ^ (fraction.length + 1)) :
    ∃ first, whole = [first] ∧ (first = '0' ↔ number < 10 ^ fraction.length) := by
  obtain ⟨hunpadded, hspells⟩ := hdecimal
  obtain ⟨first, more, rfl⟩ := List.exists_cons_of_ne_nil hunpadded.ne_nil
  cases more with
  | nil => exact ⟨first, rfl, hspells.head_eq_zero_iff (by decide)⟩
  | cons second rest =>
    have hle : fraction.length + 1 ≤ (second :: rest ++ fraction).length := by
      rw [List.cons_append, List.length_cons, List.length_append]
      omega
    have hfirst : first = '0' :=
      (Spells.head_eq_zero_iff (by decide) hspells).mpr
        (hlt.trans_le (Nat.pow_le_pow_right (by decide) hle))
    exact absurd (hunpadded.eq_zero_of_head (congrArg some hfirst)) (by simp)

/-! ## Exponents -/

theorem isExponent_exponentText (exponent : Int) (upper : Bool) :
    IsExponent upper exponent (exponentText exponent upper) := by
  have hnumeral : IsNumeral 10 false (Nat.toDigits 10 exponent.natAbs) exponent.natAbs :=
    isNumeral_toDigits (by decide) (by decide) exponent.natAbs
  rw [exponentText, List.leftpad]
  refine .intro rfl (hnumeral.spells.zeros_append (by decide) _) ?_
  generalize Nat.toDigits 10 exponent.natAbs = numeral at *
  rcases Nat.lt_or_ge 2 numeral.length with hlong | hshort
  · right
    rw [Nat.sub_eq_zero_of_le hlong.le, List.replicate_zero, List.nil_append]
    exact ⟨hlong, hnumeral.toUnpadded⟩
  · left
    rw [List.length_append, List.length_replicate]
    omega

/-! ## The end of a fraction -/

/-- What is dropped from the end of a text is a run that stood there, and all of it. -/
theorem exists_trimEnd (char : Char) (text : List Char) :
    ∃ count, text = trimEnd char text ++ List.replicate count char ∧
      (trimEnd char text).getLast? ≠ some char := by
  refine ⟨(text.reverse.takeWhile (· = char)).length, ?_, ?_⟩
  · have hrun : text.reverse.takeWhile (· = char) =
        List.replicate (text.reverse.takeWhile (· = char)).length char :=
      List.eq_replicate_of_mem fun other hother =>
        of_decide_eq_true (List.mem_takeWhile_imp (p := (· = char)) hother)
    rw [trimEnd, ← List.reverse_replicate, ← hrun, ← List.reverse_append,
      List.takeWhile_append_dropWhile, List.reverse_reverse]
  · rw [trimEnd, List.getLast?_reverse]
    intro hhead
    have hnot := List.head?_dropWhile_not (fun other => decide (other = char)) text.reverse
    rw [hhead] at hnot
    exact of_decide_eq_false hnot rfl

theorem trimEnd_append_replicate (htext : text.getLast? ≠ some char) (count : Nat) :
    trimEnd char (text ++ List.replicate count char) = text := by
  have hrun : ∀ other ∈ List.replicate count char, decide (other = char) = true :=
    fun other hother => decide_eq_true (List.eq_of_mem_replicate hother)
  have hkept : text.reverse.dropWhile (· = char) = text.reverse := by
    cases hreverse : text.reverse with
    | nil => rfl
    | cons last rest =>
      rw [← List.head?_reverse, hreverse, List.head?_cons] at htext
      exact List.dropWhile_cons_of_neg fun heq =>
        htext (congrArg some (of_decide_eq_true heq))
  rw [trimEnd, List.reverse_append, List.reverse_replicate, List.dropWhile_append_of_pos hrun,
    hkept, List.reverse_reverse]

theorem trimEnd_of_getLast?_ne (htext : text.getLast? ≠ some char) : trimEnd char text = text := by
  simpa using trimEnd_append_replicate htext 0

/-- Trimmed decimal notation has neither a zero at the end of its fraction nor a point without
one. -/
theorem exists_trimFraction (hwhole : '.' ∉ whole) (hfraction : '.' ∉ fraction) :
    ∃ kept count, fraction = kept ++ List.replicate count '0' ∧ kept.getLast? ≠ some '0' ∧
      trimFraction (aroundPoint false whole fraction) = aroundPoint false whole kept := by
  by_cases hnone : fraction = []
  · refine ⟨[], 0, hnone, by simp, ?_⟩
    rw [hnone, aroundPoint, if_pos ⟨rfl, rfl⟩]
    exact if_neg hwhole
  · obtain ⟨count, hcount, hlast⟩ := exists_trimEnd '0' fraction
    generalize trimEnd '0' fraction = kept at hcount hlast
    refine ⟨kept, count, hcount, hlast, ?_⟩
    have hpoint : '.' ∈ whole ++ '.' :: fraction := by simp
    rw [aroundPoint, if_neg (mt And.left hnone), trimFraction, if_pos hpoint, hcount,
      List.append_cons]
    by_cases hkept : kept = []
    · have hwholeLast : whole.getLast? ≠ some '.' := fun hmem =>
        hwhole (List.mem_of_getLast? hmem)
      rw [hkept, List.nil_append, trimEnd_append_replicate (by simp), aroundPoint,
        if_pos ⟨rfl, rfl⟩]
      exact trimEnd_append_replicate hwholeLast 1
    · have hsame : (whole ++ ['.'] ++ kept).getLast? = kept.getLast? := by
        rw [List.getLast?_append_of_ne_nil _ hkept]
      have hkeptLast : kept.getLast? ≠ some '.' := fun hmem =>
        hfraction (hcount ▸ List.mem_append_left _ (List.mem_of_getLast? hmem))
      rw [← List.append_assoc, trimEnd_append_replicate (hsame ▸ hlast),
        trimEnd_of_getLast?_ne (hsame ▸ hkeptLast), aroundPoint, if_neg (mt And.left hkept),
        ← List.append_cons]

/-- Alternate form has a point, with a fraction or without. -/
theorem withPoint_aroundPoint (hwhole : '.' ∉ whole) :
    withPoint (aroundPoint false whole fraction) = aroundPoint true whole fraction := by
  rw [aroundPoint_true]
  by_cases hnone : fraction = []
  · rw [hnone, aroundPoint, if_pos ⟨rfl, rfl⟩]
    exact if_neg hwhole
  · have hpoint : '.' ∈ whole ++ '.' :: fraction := by simp
    rw [aroundPoint, if_neg (mt And.left hnone)]
    exact if_pos hpoint

/-! ## Zeros that are counted and zeros that are dropped -/

/-- Aside from the zeros past the limit of exact digits, which follow as a count, all places
are written. -/
theorem exists_padded (number precision : Nat) (alternate : Bool) :
    let digits := placePoint number (min precision exactDigits)
    ∃ whole fraction,
      (if alternate then withPoint digits else digits) ++
          List.replicate (precision - exactDigits) '0' = aroundPoint alternate whole fraction ∧
        fraction.length = precision ∧
        IsDecimal whole fraction (number * 10 ^ (precision - exactDigits)) := by
  intro digits
  obtain ⟨whole, fraction, hdigits, hlength, hdecimal⟩ :=
    exists_placePoint number (min precision exactDigits)
  have hpoint : (if alternate then withPoint digits else digits) =
      aroundPoint alternate whole fraction := by
    cases alternate with
    | false => exact hdigits
    | true =>
      exact (congrArg withPoint hdigits).trans (withPoint_aroundPoint hdecimal.point_not_mem.1)
  refine ⟨whole, fraction ++ List.replicate (precision - exactDigits) '0', ?_, ?_,
    hdecimal.append_zeros _⟩
  · rw [hpoint]
    rcases Nat.le_total precision exactDigits with hfew | hmany
    · rw [Nat.sub_eq_zero_of_le hfew, List.replicate_zero, List.append_nil, List.append_nil]
    · have hsome : fraction ≠ [] := by
        rw [← List.length_pos_iff, hlength, Nat.min_eq_right hmany]
        decide
      have hmore : fraction ++ List.replicate (precision - exactDigits) '0' ≠ [] :=
        List.append_ne_nil_of_left_ne_nil hsome _
      rw [aroundPoint, aroundPoint, if_neg (mt And.left hsome), if_neg (mt And.left hmore),
        List.append_assoc, List.cons_append]
  · rw [List.length_append, List.length_replicate, hlength]
    omega

theorem exists_trimmed (number places : Nat) :
    ∃ whole fraction front count,
      trimFraction (placePoint number places) = aroundPoint false whole fraction ∧
        fraction.getLast? ≠ some '0' ∧ places = fraction.length + count ∧
        IsDecimal whole fraction front ∧ number = front * 10 ^ count := by
  obtain ⟨whole, fraction, hdigits, rfl, hdecimal⟩ := exists_placePoint number places
  obtain ⟨hwhole, hfraction⟩ := hdecimal.point_not_mem
  obtain ⟨kept, count, rfl, hlast, htrimmed⟩ := exists_trimFraction hwhole hfraction
  obtain ⟨front, hfront, hnumber⟩ := hdecimal.of_append_zeros
  rw [← hdigits] at htrimmed
  exact ⟨whole, kept, front, count, htrimmed, hlast,
    by rw [List.length_append, List.length_replicate], hfront, hnumber⟩

end LogRelay.Decimal
