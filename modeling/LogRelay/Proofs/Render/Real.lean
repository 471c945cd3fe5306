import LogRelay.Proofs.Decimal.Written
import LogRelay.Proofs.Render.Padding

/-!
# Real numbers as text

A finite double is shown by its sign and by its absolute value in the notation of the
conversion.  Fixed and exponential notation are exact at every precision, general notation
writes the one number that its precision rounds to.
-/

namespace LogRelay.Render

open LogRelay.Format LogRelay.Text LogRelay.Decimal

/-- The text of a finite number: its sign and a body that `writes` its absolute value.  Without
a width that is all, and any zeros that fill a width stand between the two. -/
inductive ShowsFinite (spec : Spec) (number : Binary64) (writes : List Char → Prop) :
    List Char → Prop where
  | intro {sign body text : List Char}
      (hsign : IsSign spec.flags (number.isNegative = true) sign)
      (hbody : writes body)
      (htext : Justified spec.flags True sign body spec.width text)
      (hwhole : spec.width = none → text = sign ++ body) :
      ShowsFinite spec number writes text

/-- The body of `%f` and `%F`, and of `%e` and `%E`, with six places unless the precision is
given. -/
inductive WritesExactly (spec : Spec) (exact : ℚ) : List Char → Prop where
  | fixed {body : List Char} (hconversion : spec.conversion = .f ∨ spec.conversion = .F)
      (hbody : WritesFixed exact (spec.precision.getD 6) spec.flags.alternate body) :
      WritesExactly spec exact body
  | exponential {body : List Char} (hconversion : spec.conversion = .e ∨ spec.conversion = .E)
      (hbody : WritesExponential exact (spec.precision.getD 6) spec.flags.alternate
        (spec.conversion = .E) body) :
      WritesExactly spec exact body

variable {spec : Spec} {number : Binary64}

theorem renderValue_double (hconversion : spec.conversion ∈ [Conversion.f, .F, .e, .E, .g, .G])
    (number : Binary64) :
    spec.kind = .double ∧
      renderValue spec (.double number) = (realField spec number).pad spec := by
  simp only [List.mem_cons, List.not_mem_nil, or_false] at hconversion
  rcases hconversion with hconversion | hconversion | hconversion | hconversion |
    hconversion | hconversion
  all_goals simp only [Spec.kind, Conversion.kind, renderValue, field?, hconversion, and_self]

/-- What the body of a finite number writes, the text of the number shows. -/
theorem showsFinite_textOf {writes : List Char → Prop}
    (hconversion : spec.conversion ∈ [Conversion.f, .F, .e, .E, .g, .G])
    (hfinite : number.isFinite = true)
    (hbody : writes (expandAll (numeralFor spec number.magnitude).pieces)) :
    ShowsFinite spec number writes (textOf spec (.float number)) := by
  obtain ⟨hkind, hrendered⟩ := renderValue_double hconversion number
  have hcoerce : (Argument.float number).coerce? spec.kind = some (.double number) := by
    rw [hkind]
    rfl
  have htext := justified_pad (realField spec number) spec
  rw [← hrendered, ← textOf_eq hcoerce] at htext
  simp only [realField, if_pos hfinite] at htext
  refine .intro (isSign_signText spec.flags number.isNegative) hbody htext fun hwidth => ?_
  rw [hwidth] at htext
  exact htext.eq_append

theorem writesExactly_numeralFor (hconversion : spec.conversion ∈ [Conversion.f, .F, .e, .E])
    (number : Binary64) :
    WritesExactly spec number.absValue
      (expandAll (numeralFor spec number.magnitude).pieces) := by
  simp only [List.mem_cons, List.not_mem_nil, or_false] at hconversion
  rw [← or_assoc] at hconversion
  rcases hconversion with hfixed | hexponential
  · have hnumeral : numeralFor spec number.magnitude =
        fixed number.magnitude (spec.precision.getD 6) spec.flags.alternate := by
      rcases hfixed with hconversion | hconversion
      all_goals simp only [numeralFor, hconversion]
    rw [hnumeral]
    exact .fixed hfixed (writesFixed_fixed number _ _)
  · have hnumeral : numeralFor spec number.magnitude =
        exponential number.magnitude (spec.precision.getD 6) spec.flags.alternate
          (spec.conversion = .E) := by
      rcases hexponential with hconversion | hconversion
      all_goals
        simp only [numeralFor, hconversion]
        rfl
    rw [hnumeral]
    exact .exponential hexponential (writesExponential_exponential number _ _ _)

/-- At every precision `%f`, `%F`, `%e` and `%E` show the exact value of a finite number rounded
half to even, with all the digits asked for. -/
theorem showsFinite_textOf_exact (hconversion : spec.conversion ∈ [Conversion.f, .F, .e, .E])
    (hfinite : number.isFinite = true) :
    ShowsFinite spec number (WritesExactly spec number.absValue)
      (textOf spec (.float number)) :=
  showsFinite_textOf (List.mem_append_left [Conversion.g, .G] hconversion) hfinite
    (writesExactly_numeralFor hconversion number)

/-- A tenth with more digits than any double has, and a number halfway between two of one digit
that carries into the next place. -/
theorem showsFinite_textOf_exact_long :
    let long : Spec := { precision := some 1102, conversion := .f }
    let tenth : Binary64 := ⟨0x3fb999999999999a⟩
    let short : Spec :=
      { flags := { alternate := true }, precision := some 0, conversion := .E }
    let halfway : Binary64 := ⟨0xc023000000000000⟩
    (long.conversion ∈ [Conversion.f, .F, .e, .E] ∧ tenth.isFinite = true ∧
        ShowsFinite long tenth (WritesExactly long tenth.absValue) (textOf long (.float tenth)) ∧
        textOf long (.float tenth) =
          "0.1000000000000000055511151231257827021181583404541015625".toList ++
            List.replicate 1047 '0') ∧
      short.conversion ∈ [Conversion.f, .F, .e, .E] ∧ halfway.isFinite = true ∧
        ShowsFinite short halfway (WritesExactly short halfway.absValue)
          (textOf short (.float halfway)) ∧
        formatNow "%#.0E" [.float halfway] = "-1.E+01" := by
  intro long tenth short halfway
  have hlong : long.conversion ∈ [Conversion.f, .F, .e, .E] := by decide
  have hshort : short.conversion ∈ [Conversion.f, .F, .e, .E] := by decide
  have htenth : tenth.isFinite = true := by decide +kernel
  have hhalfway : halfway.isFinite = true := by decide +kernel
  exact ⟨⟨hlong, htenth, showsFinite_textOf_exact hlong htenth, by decide +kernel⟩,
    hshort, hhalfway, showsFinite_textOf_exact hshort hhalfway, by decide +kernel⟩

/-- Without alternate form `%g` and `%G` show a finite number rounded half to even to as many
digits as asked for, and no zeros behind them. -/
theorem showsFinite_textOf_general (hconversion : spec.conversion ∈ [Conversion.g, .G])
    (hflags : spec.flags.alternate = false) (hfinite : number.isFinite = true) :
    ShowsFinite spec number
      (WritesGeneral number.absValue (max (spec.precision.getD 6) 1) (spec.conversion = .G))
      (textOf spec (.float number)) := by
  have hgeneral : numeralFor spec number.magnitude =
      general number.magnitude (spec.precision.getD 6) false (spec.conversion = .G) := by
    simp only [List.mem_cons, List.not_mem_nil, or_false] at hconversion
    rcases hconversion with hconversion | hconversion
    all_goals
      simp only [numeralFor, hconversion, hflags]
      rfl
  refine showsFinite_textOf (List.mem_append_right [Conversion.f, .F, .e, .E] hconversion)
    hfinite ?_
  rw [hgeneral]
  exact writesGeneral_general number _ _

/-- A number with one digit more than are shown, which carries into an exponent, and one that
carries into its last place before the point. -/
theorem showsFinite_textOf_general_carry :
    let spec : Spec := { conversion := .g }
    let large : Binary64 := ⟨0x412e847f00000000⟩
    let small : Binary64 := ⟨0x4023ffffef39085f⟩
    spec.conversion ∈ [Conversion.g, .G] ∧ spec.flags.alternate = false ∧
      (large.isFinite = true ∧
        ShowsFinite spec large (WritesGeneral large.absValue 6 false)
          (textOf spec (.float large)) ∧
        formatNow "%g" [.float large] = "1e+06") ∧
      small.isFinite = true ∧
        ShowsFinite spec small (WritesGeneral small.absValue 6 false)
          (textOf spec (.float small)) ∧
        formatNow "%g" [.float small] = "10" := by
  intro spec large small
  have hspec : spec.conversion ∈ [Conversion.g, .G] := by decide
  have hlarge : large.isFinite = true := by decide +kernel
  have hsmall : small.isFinite = true := by decide +kernel
  exact ⟨hspec, rfl,
    ⟨hlarge, showsFinite_textOf_general hspec rfl hlarge, by decide +kernel⟩,
    hsmall, showsFinite_textOf_general hspec rfl hsmall, by decide +kernel⟩

end LogRelay.Render
