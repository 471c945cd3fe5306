import LogRelay.Proofs.Decimal.Written

/-!
# The number that a text denotes

A reader of decimal text, for plain and exponential notation alike.  It finds in a number's text
the very number that the text was rounded to, so that equal texts are texts of numbers that
round to the same.
-/

namespace LogRelay.Decimal

open LogRelay.Text

/-- The number that digits with a point among them denote. -/
def placedValue (text : List Char) : ℚ :=
  let fraction := (text.dropWhile (· ≠ '.')).tail
  (Nat.ofDigitChars 10 (text.takeWhile (· ≠ '.') ++ fraction) 0 : ℕ) * 10 ^ (-fraction.length : ℤ)

/-- The integer that digits behind a sign denote. -/
def signedDigits : List Char → ℤ
  | [] => 0
  | sign :: digits =>
    if sign = '-' then -(Nat.ofDigitChars 10 digits 0 : ℕ) else (Nat.ofDigitChars 10 digits 0 : ℕ)

def exponentLetter (upper : Bool) : Char :=
  if upper then 'E' else 'e'

/-- The number that a text without a sign denotes, with an exponent or without. -/
def denoted (upper : Bool) (text : List Char) : ℚ :=
  let mantissa := text.takeWhile (· ≠ exponentLetter upper)
  let suffix := text.dropWhile (· ≠ exponentLetter upper)
  placedValue mantissa * 10 ^ signedDigits suffix.tail

variable {exact : ℚ} {whole fraction text suffix : List Char} {number precision significant : ℕ}
  {exponent : ℤ} {alternate upper : Bool}

/-! ## Digits -/

theorem ofDigitChars_of_spells (hspells : Spells 10 false text number) :
    Nat.ofDigitChars 10 text 0 = number := by
  have hvalue : ∀ digit < 10, (digitChar false digit).toNat - '0'.toNat = digit := by decide
  induction hspells with
  | nil => rfl
  | @concat text number digit _ hdigit ih =>
    rw [Nat.ofDigitChars_append, ih, Nat.ofDigitChars_cons, Nat.ofDigitChars_nil,
      hvalue digit hdigit, Nat.mul_comm]

theorem ne_sign_of_spells (hspells : Spells 10 false text number) : text.head? ≠ some '-' := by
  have hnone : '-' ∉ text := hspells.not_mem (by decide)
  exact fun hhead => hnone (List.mem_of_head? hhead)

theorem letter_not_mem (hspells : Spells 10 false text number) : exponentLetter upper ∉ text :=
  hspells.not_mem (by cases upper <;> decide)

/-! ## Points and exponents -/

/-- A text is taken apart in front of a character that occurs nowhere before. -/
theorem takeWhile_append_cons {char : Char} {before : List Char} (hbefore : char ∉ before)
    (behind : List Char) :
    (before ++ char :: behind).takeWhile (· ≠ char) = before ∧
      (before ++ char :: behind).dropWhile (· ≠ char) = char :: behind := by
  have hdiffer : ∀ other ∈ before, decide (other ≠ char) = true := fun other hother =>
    decide_eq_true (ne_of_mem_of_not_mem hother hbefore)
  rw [List.takeWhile_append_of_pos hdiffer, List.dropWhile_append_of_pos hdiffer,
    List.takeWhile_cons_of_neg (by simp), List.dropWhile_cons_of_neg (by simp), List.append_nil]
  exact ⟨rfl, rfl⟩

theorem takeWhile_of_not_mem {char : Char} (htext : char ∉ text) :
    text.takeWhile (· ≠ char) = text ∧ text.dropWhile (· ≠ char) = [] := by
  have hdiffer : ∀ other ∈ text, decide (other ≠ char) = true := fun other hother =>
    decide_eq_true (ne_of_mem_of_not_mem hother htext)
  exact ⟨List.takeWhile_eq_self_iff.mpr hdiffer, List.dropWhile_eq_nil_iff.mpr hdiffer⟩

theorem mem_aroundPoint {char : Char} (hmem : char ∈ aroundPoint alternate whole fraction) :
    char = '.' ∨ char ∈ whole ++ fraction := by
  rw [aroundPoint] at hmem
  split at hmem
  · exact .inr (List.mem_append_left _ hmem)
  · rw [List.mem_append, List.mem_cons] at hmem
    rw [List.mem_append]
    tauto

theorem placedValue_aroundPoint (hspells : Spells 10 false (whole ++ fraction) number) :
    placedValue (aroundPoint alternate whole fraction) = number * 10 ^ (-fraction.length : ℤ) := by
  have hpoint := point_not_mem hspells
  rw [List.mem_append, not_or] at hpoint
  have hvalue := ofDigitChars_of_spells hspells
  rw [placedValue, aroundPoint]
  split
  · next hnone =>
    obtain ⟨htake, hdrop⟩ := takeWhile_of_not_mem hpoint.1
    rw [hnone.1] at hvalue ⊢
    simp only [htake, hdrop, List.tail_nil, hvalue]
  · obtain ⟨htake, hdrop⟩ := takeWhile_append_cons hpoint.1 fraction
    simp only [htake, hdrop, List.tail_cons, hvalue]

theorem signedDigits_of_isExponent (hexponent : IsExponent upper exponent suffix) :
    ∃ digits, suffix = exponentLetter upper :: digits ∧ signedDigits digits = exponent := by
  obtain ⟨hsign, hspells, -⟩ := hexponent
  refine ⟨_, rfl, ?_⟩
  rw [signedDigits, ofDigitChars_of_spells hspells, hsign]
  by_cases hnegative : exponent < 0
  · rw [if_pos hnegative, if_pos rfl]
    omega
  · rw [if_neg hnegative, if_neg (by decide)]
    omega

theorem letter_not_mem_aroundPoint (hspells : Spells 10 false (whole ++ fraction) number) :
    exponentLetter upper ∉ aroundPoint alternate whole fraction := by
  intro hmem
  rcases mem_aroundPoint hmem with hpoint | hdigit
  · revert hpoint
    cases upper <;> decide
  · exact letter_not_mem hspells hdigit

/-- Digits around a point denote what they spell, with the point where it is. -/
theorem denoted_aroundPoint (hspells : Spells 10 false (whole ++ fraction) number) :
    denoted upper (aroundPoint alternate whole fraction) =
      number * 10 ^ (-fraction.length : ℤ) := by
  have hletter : exponentLetter upper ∉ aroundPoint alternate whole fraction :=
    letter_not_mem_aroundPoint hspells
  obtain ⟨htake, hdrop⟩ := takeWhile_of_not_mem hletter
  rw [denoted, htake, hdrop, placedValue_aroundPoint hspells, List.tail_nil, signedDigits,
    zpow_zero, mul_one]

/-- An exponent behind them moves the point. -/
theorem denoted_aroundPoint_append (hspells : Spells 10 false (whole ++ fraction) number)
    (hexponent : IsExponent upper exponent suffix) :
    denoted upper (aroundPoint alternate whole fraction ++ suffix) =
      number * 10 ^ (exponent - fraction.length) := by
  obtain ⟨digits, rfl, hdigits⟩ := signedDigits_of_isExponent hexponent
  have hletter : exponentLetter upper ∉ aroundPoint alternate whole fraction :=
    letter_not_mem_aroundPoint hspells
  obtain ⟨htake, hdrop⟩ := takeWhile_append_cons hletter digits
  rw [denoted, htake, hdrop, placedValue_aroundPoint hspells, List.tail_cons, hdigits, mul_assoc,
    ← zpow_add₀ (by norm_num), neg_add_eq_sub]

/-! ## Written numbers read back -/

theorem WritesExponential.isNearest_denoted
    (hwrites : WritesExponential exact precision alternate upper text) :
    IsNearest exact (digitUnit exact (precision + 1)) (denoted upper text) := by
  obtain ⟨hspells, hlength, -, -, hnearest, hexponent⟩ := hwrites
  rwa [denoted_aroundPoint_append hspells hexponent, hlength]

theorem WritesGeneral.isNearest_denoted (hwrites : WritesGeneral exact significant upper text) :
    IsNearest exact (digitUnit exact significant) (denoted upper text) := by
  cases hwrites with
  | plain hnearest _ hdecimal hvalue _ => rwa [denoted_aroundPoint hdecimal.spells, ← hvalue]
  | exponential hnearest _ hspells _ hvalue _ hexponent =>
    rwa [denoted_aroundPoint_append hspells hexponent, ← hvalue]

/-! ## Signs in front -/

theorem head?_aroundPoint_ne (hspells : Spells 10 false (whole ++ fraction) number)
    (hwhole : whole ≠ []) (suffix : List Char) :
    (aroundPoint alternate whole fraction ++ suffix).head? ≠ some '-' := by
  obtain ⟨first, rest, rfl⟩ := List.exists_cons_of_ne_nil hwhole
  have hhead := ne_sign_of_spells hspells
  rw [aroundPoint]
  split
  · exact hhead
  · exact hhead

theorem WritesExponential.head?_ne
    (hwrites : WritesExponential exact precision alternate upper text) :
    text.head? ≠ some '-' := by
  obtain ⟨hspells, -⟩ := hwrites
  exact head?_aroundPoint_ne hspells (List.cons_ne_nil _ _) _

theorem WritesGeneral.head?_ne (hwrites : WritesGeneral exact significant upper text) :
    text.head? ≠ some '-' := by
  cases hwrites with
  | plain _ _ hdecimal =>
    rw [← List.append_nil (aroundPoint false _ _)]
    exact head?_aroundPoint_ne hdecimal.spells hdecimal.unpadded.ne_nil []
  | exponential _ _ hspells => exact head?_aroundPoint_ne hspells (List.cons_ne_nil _ _) _

end LogRelay.Decimal
