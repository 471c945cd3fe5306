import LogRelay.Proofs.Decimal.Denoted
import LogRelay.Proofs.Decimal.Spacing
import LogRelay.Proofs.Render.Real

/-!
# Significant digits of real numbers

Seventeen significant digits are enough to tell every two doubles apart, in exponential and in
general notation: what is read back from a text is the sign of the number and its size rounded
to these digits, and no two doubles agree in both.
-/

namespace LogRelay.Render

open LogRelay.Format LogRelay.Text LogRelay.Decimal

variable {spec : Spec} {left right : Binary64} {text : List Char}

/-! ## Texts that agree -/

/-- Unless flags ask for more, only negative numbers have anything in front. -/
theorem IsSign.eq_minus_or_nil {flags : Flags} {negative : Bool} {sign : List Char}
    (hsign : IsSign flags (negative = true) sign) (hplus : flags.plus = false)
    (hspace : flags.space = false) : sign = if negative then ['-'] else [] := by
  cases hsign with
  | minus hnegative => rw [if_pos hnegative]
  | plus _ hset => exact absurd hset (by rw [hplus]; decide)
  | space _ _ hset => exact absurd hset (by rw [hspace]; decide)
  | none hpositive => rw [if_neg hpositive]

/-- Numbers with the same text have the same sign and the same body. -/
theorem ShowsFinite.exists_body {leftWrites rightWrites : List Char → Prop}
    (hleft : ShowsFinite spec left leftWrites text)
    (hright : ShowsFinite spec right rightWrites text) (hwidth : spec.width = none)
    (hplus : spec.flags.plus = false) (hspace : spec.flags.space = false)
    (hleftHead : ∀ body, leftWrites body → body.head? ≠ some '-')
    (hrightHead : ∀ body, rightWrites body → body.head? ≠ some '-') :
    left.isNegative = right.isNegative ∧ ∃ body, leftWrites body ∧ rightWrites body := by
  cases hleft with
  | @intro sign body _ hsign hbody _ hwhole =>
    cases hright with
    | @intro otherSign other _ hotherSign hother _ hotherWhole =>
      have hhead := hleftHead body hbody
      have hotherHead := hrightHead other hother
      have hsame : sign ++ body = otherSign ++ other :=
        (hwhole hwidth).symm.trans (hotherWhole hwidth)
      rw [hsign.eq_minus_or_nil hplus hspace, hotherSign.eq_minus_or_nil hplus hspace] at hsame
      cases hnegative : left.isNegative <;> cases hotherNegative : right.isNegative
      all_goals rw [hnegative, hotherNegative] at hsame
      · have heq : body = other := hsame
        exact ⟨rfl, body, hbody, heq ▸ hother⟩
      · exact absurd (congrArg List.head? hsame) hhead
      · exact absurd (congrArg List.head? hsame).symm hotherHead
      · have heq : body = other := List.cons_injective hsame
        exact ⟨rfl, body, hbody, heq ▸ hother⟩

/-! ## Seventeen digits -/

theorem numeralFor_general (hconversion : spec.conversion ∈ [Conversion.g, .G])
    (number : Magnitude) :
    numeralFor spec number = general number (spec.precision.getD 6) spec.flags.alternate
      (spec.conversion = .G) := by
  simp only [List.mem_cons, List.not_mem_nil, or_false] at hconversion
  rcases hconversion with hconversion | hconversion
  all_goals
    simp only [numeralFor, hconversion]
    rfl

theorem WritesExactly.exponential_of_mem {exact : ℚ} {body : List Char}
    (hwrites : WritesExactly spec exact body) (hconversion : spec.conversion ∈ [Conversion.e, .E]) :
    WritesExponential exact (spec.precision.getD 6) spec.flags.alternate (spec.conversion = .E)
      body := by
  cases hwrites with
  | exponential _ hbody => exact hbody
  | fixed hfixed _ =>
    rcases hfixed with hfixed | hfixed
    all_goals
      rw [hfixed] at hconversion
      exact absurd hconversion (by decide)

/-- In exponential notation sixteen places behind the first digit identify a double. -/
theorem eq_of_textOf_exponential (hconversion : spec.conversion ∈ [Conversion.e, .E])
    (hdigits : 16 ≤ spec.precision.getD 6) (hwidth : spec.width = none)
    (hplus : spec.flags.plus = false) (hspace : spec.flags.space = false)
    (hleft : left.isFinite = true) (hright : right.isFinite = true)
    (hsame : textOf spec (.float left) = textOf spec (.float right)) : left = right := by
  have hexact : spec.conversion ∈ [Conversion.f, .F, .e, .E] :=
    List.mem_append_right [Conversion.f, .F] hconversion
  have hreal : spec.conversion ∈ [Conversion.f, .F, .e, .E, .g, .G] :=
    List.mem_append_left [Conversion.g, .G] hexact
  have hshows (number : Binary64) (hfinite : number.isFinite = true) :
      ShowsFinite spec number
        (WritesExponential number.absValue (spec.precision.getD 6) spec.flags.alternate
          (spec.conversion = .E)) (textOf spec (.float number)) :=
    showsFinite_textOf hreal hfinite
      ((writesExactly_numeralFor hexact number).exponential_of_mem hconversion)
  have hother := hshows right hright
  rw [← hsame] at hother
  obtain ⟨hsign, body, hbody, hotherBody⟩ := (hshows left hleft).exists_body hother hwidth hplus
    hspace (fun _ => WritesExponential.head?_ne) (fun _ => WritesExponential.head?_ne)
  exact eq_of_absValue_eq hsign (absValue_eq_of_isNearest (Nat.succ_le_succ hdigits)
    hbody.isNearest_denoted hotherBody.isNearest_denoted)

/-- In general notation seventeen digits identify a double, dropped zeros or not. -/
theorem eq_of_textOf_general (hconversion : spec.conversion ∈ [Conversion.g, .G])
    (hdigits : 17 ≤ spec.precision.getD 6) (halternate : spec.flags.alternate = false)
    (hwidth : spec.width = none) (hplus : spec.flags.plus = false)
    (hspace : spec.flags.space = false)
    (hleft : left.isFinite = true) (hright : right.isFinite = true)
    (hsame : textOf spec (.float left) = textOf spec (.float right)) : left = right := by
  have hreal : spec.conversion ∈ [Conversion.f, .F, .e, .E, .g, .G] :=
    List.mem_append_right [Conversion.f, .F, .e, .E] hconversion
  have hshows (number : Binary64) (hfinite : number.isFinite = true) :
      ShowsFinite spec number
        (WritesGeneral number.absValue (max (spec.precision.getD 6) 1) (spec.conversion = .G))
        (textOf spec (.float number)) := by
    refine showsFinite_textOf hreal hfinite ?_
    rw [numeralFor_general hconversion, halternate]
    exact writesGeneral_general number _ _
  have hother := hshows right hright
  rw [← hsame] at hother
  obtain ⟨hsign, body, hbody, hotherBody⟩ := (hshows left hleft).exists_body hother hwidth hplus
    hspace (fun _ => WritesGeneral.head?_ne) (fun _ => WritesGeneral.head?_ne)
  exact eq_of_absValue_eq hsign (absValue_eq_of_isNearest (hdigits.trans (Nat.le_max_left _ _))
    hbody.isNearest_denoted hotherBody.isNearest_denoted)

theorem formatNow_conversion {format : String} (hsegments : segments format = [.conversion spec])
    (argument : Argument) : formatNow format [argument] = String.ofList (textOf spec argument) := by
  simp only [formatNow, render, hsegments, renderSegments, List.append_nil]
  rfl

/-- No two finite doubles have the same text under `%.16e`, or under `%.17g`, which tell zero from
negative zero, too. -/
theorem formatNow_ne_of_ne (hleft : left.isFinite = true) (hright : right.isFinite = true)
    (hne : left ≠ right) :
    formatNow "%.16e" [.float left] ≠ formatNow "%.16e" [.float right] ∧
      formatNow "%.17g" [.float left] ≠ formatNow "%.17g" [.float right] := by
  constructor
  · let spec : Spec := { precision := some 16, conversion := .e }
    have hsegments : segments "%.16e" = [.conversion spec] := by decide +kernel
    have hconversion : spec.conversion ∈ [Conversion.e, .E] := by decide
    rw [formatNow_conversion hsegments, formatNow_conversion hsegments]
    intro hsame
    exact hne (eq_of_textOf_exponential hconversion (by decide) rfl rfl rfl hleft hright
      (String.ofList_injective hsame))
  · let spec : Spec := { precision := some 17, conversion := .g }
    have hsegments : segments "%.17g" = [.conversion spec] := by decide +kernel
    have hconversion : spec.conversion ∈ [Conversion.g, .G] := by decide
    rw [formatNow_conversion hsegments, formatNow_conversion hsegments]
    intro hsame
    exact hne (eq_of_textOf_general hconversion (by decide) rfl rfl rfl rfl hleft hright
      (String.ofList_injective hsame))

/-- One and the number above it, which sixteen digits do not tell apart, and the two zeros. -/
theorem formatNow_ne_of_ne_neighbours :
    let one : Binary64 := ⟨0x3ff0000000000000⟩
    let above : Binary64 := ⟨0x3ff0000000000001⟩
    let zero : Binary64 := ⟨0⟩
    let negativeZero : Binary64 := ⟨0x8000000000000000⟩
    (one.isFinite = true ∧ above.isFinite = true ∧ one ≠ above ∧
        (formatNow "%.16e" [.float one] ≠ formatNow "%.16e" [.float above] ∧
          formatNow "%.17g" [.float one] ≠ formatNow "%.17g" [.float above]) ∧
        formatNow "%.16g" [.float one] = formatNow "%.16g" [.float above]) ∧
      zero.isFinite = true ∧ negativeZero.isFinite = true ∧ zero ≠ negativeZero ∧
        formatNow "%.16e" [.float zero] ≠ formatNow "%.16e" [.float negativeZero] ∧
        formatNow "%.17g" [.float zero] ≠ formatNow "%.17g" [.float negativeZero] := by
  intro one above zero negativeZero
  have hone : one.isFinite = true := by decide +kernel
  have habove : above.isFinite = true := by decide +kernel
  have hzero : zero.isFinite = true := by decide +kernel
  have hnegativeZero : negativeZero.isFinite = true := by decide +kernel
  have hne : one ≠ above := by decide
  have hzeros : zero ≠ negativeZero := by decide
  exact ⟨⟨hone, habove, hne, formatNow_ne_of_ne hone habove hne, by decide +kernel⟩,
    hzero, hnegativeZero, hzeros, formatNow_ne_of_ne hzero hnegativeZero hzeros⟩

end LogRelay.Render
