import LogRelay.Proofs.Decimal.Alternate
import LogRelay.Proofs.Render.Significant

/-!
# Real numbers in alternate form

In alternate form `%g` and `%G` show every digit asked for that their count of places reaches.
The count saturates, so only at the three greatest precisions does the text of a number below a
tenth end up to three zeros early.
-/

namespace LogRelay.Render

open LogRelay.Format LogRelay.Text LogRelay.Decimal

variable {spec : Spec} {number : Binary64}

/-- In alternate form `%g` and `%G` show a finite number rounded half to even to as many digits as
asked for, with a point, and with all these digits that can be reached. -/
theorem showsFinite_textOf_alternate (hconversion : spec.conversion ∈ [Conversion.g, .G])
    (halternate : spec.flags.alternate = true) (hfinite : number.isFinite = true) :
    ShowsFinite spec number
      (WritesAlternate number.absValue (max (spec.precision.getD 6) 1) (spec.conversion = .G))
      (textOf spec (.float number)) := by
  have hreal : spec.conversion ∈ [Conversion.f, .F, .e, .E, .g, .G] :=
    List.mem_append_right [Conversion.f, .F, .e, .E] hconversion
  refine showsFinite_textOf hreal hfinite ?_
  rw [numeralFor_general hconversion, halternate]
  exact writesAlternate_general number _ _

/-- A number that carries into a new first digit, and one with zeros behind the point at the
greatest precision there is. -/
theorem showsFinite_textOf_alternate_carry :
    let six : Spec := { flags := { alternate := true }, conversion := .g }
    let greatest : Spec :=
      { flags := { alternate := true }, precision := some maxNumber, conversion := .G }
    let large : Binary64 := ⟨0x412e847f00000000⟩
    let small : Binary64 := ⟨0x3f847ae147ae147b⟩
    (six.conversion ∈ [Conversion.g, .G] ∧ six.flags.alternate = true ∧ large.isFinite = true ∧
        ShowsFinite six large (WritesAlternate large.absValue (max 6 1) false)
          (textOf six (.float large)) ∧
        formatNow "%#g" [.float large] = "1.00000e+06") ∧
      greatest.conversion ∈ [Conversion.g, .G] ∧ greatest.flags.alternate = true ∧
        small.isFinite = true ∧
        ShowsFinite greatest small (WritesAlternate small.absValue (max maxNumber 1) true)
          (textOf greatest (.float small)) := by
  intro six greatest large small
  have hsix : six.conversion ∈ [Conversion.g, .G] := by decide
  have hgreatest : greatest.conversion ∈ [Conversion.g, .G] := by decide
  have hlarge : large.isFinite = true := by decide +kernel
  have hsmall : small.isFinite = true := by decide +kernel
  exact ⟨⟨hsix, rfl, hlarge, showsFinite_textOf_alternate hsix rfl hlarge, by decide +kernel⟩,
    hgreatest, rfl, hsmall, showsFinite_textOf_alternate hgreatest rfl hsmall⟩

/-- At the greatest precision a ten-thousandth is short of three digits: its first one stands at
the fourth place, and the places are as many as the digits asked for. -/
theorem textOf_alternate_short :
    let greatest : Spec :=
      { flags := { alternate := true }, precision := some maxNumber, conversion := .g }
    let small : Binary64 := ⟨0x3f1a36e2eb1c432d⟩
    small.isFinite = true ∧
      ∃ whole fraction digits, textOf greatest (.float small) = whole ++ '.' :: fraction ∧
        IsDecimal whole fraction digits ∧
        ((whole ++ fraction).dropWhile (· = '0')).length = maxNumber - 3 ∧
        ¬ HasDigits small.absValue maxNumber (whole ++ fraction) := by
  intro greatest small
  have hfinite : small.isFinite = true := by decide +kernel
  have hnegative : small.isNegative = false := by decide +kernel
  have hexponent :
      (roundToDigits small.magnitude (min (maxNumber - 1) exactDigits)).exponent = -4 := by
    decide +kernel
  have hpositive : 1 ≤ maxNumber := by decide
  have hunreached {rounded : ℚ} (hlog : Int.log 10 rounded = -4) :
      unreached rounded maxNumber = 3 := by
    rw [unreached, hlog]
    decide +kernel
  have hwrites := writesAlternate_general small maxNumber false
  rw [max_eq_left hpositive] at hwrites
  have hshows : ShowsFinite greatest small (WritesAlternate small.absValue maxNumber false)
      (textOf greatest (.float small)) :=
    showsFinite_textOf (by decide) hfinite hwrites
  obtain ⟨hsign, hbody, -, hwhole⟩ := hshows
  have hnone := hsign.eq_minus_or_nil rfl rfl
  rw [hnegative, if_neg Bool.false_ne_true] at hnone
  rw [hwhole rfl, hnone, List.nil_append]
  refine ⟨hfinite, ?_⟩
  cases hbody with
  | @plain rounded whole fraction digits hnearest hplain hdecimal hvalue hdigits =>
    have hlog := (hnearest.log_eq hpositive).trans hexponent
    rw [hunreached hlog] at hdigits
    have hne : small.absValue ≠ 0 := by
      intro hzero
      rw [hzero] at hnearest
      rw [hnearest.eq_zero (digitUnit_pos _ _), Int.log_zero_right] at hlog
      exact absurd hlog (by decide)
    have hcount := hdigits.of_ne_zero hne
    refine ⟨whole, fraction, digits, rfl, hdecimal, hcount, fun hall => ?_⟩
    have hfull := hall.of_ne_zero hne
    omega
  | exponential hnearest hplain =>
    have hlog := (hnearest.log_eq hpositive).trans hexponent
    exact absurd ⟨hlog.ge, hlog.trans_lt (by decide)⟩ hplain

end LogRelay.Render
