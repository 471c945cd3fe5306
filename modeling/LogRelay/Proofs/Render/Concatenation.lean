import LogRelay.Proofs.Format.Concatenation
import LogRelay.Proofs.Record.Faults
import LogRelay.Proofs.Render.Replay

/-!
# Text and records of formats one behind the other

A conversion takes one argument from its source whether it can show it or not, so the
arguments of a first format are used up exactly when its text is complete, and those that
are left belong to the second.  Text and records of two formats are therefore those of each
in turn.
-/

namespace LogRelay.Render

open LogRelay.Format LogRelay.Record LogRelay.Text

variable {σ : Type}

theorem expandAll_append (left right : List Piece) :
    expandAll (left ++ right) = expandAll left ++ expandAll right :=
  List.flatMap_append

/-- What the first segments leave of the source is what the second begin with. -/
theorem expandAll_of_joins {left right whole : List Segment} (hjoins : Joins left right whole)
    (source : Source σ) (state : σ) :
    expandAll (renderSegments source state whole).1 =
      expandAll (renderSegments source state left).1 ++
        expandAll (renderSegments source (renderSegments source state left).2 right).1 := by
  induction hjoins generalizing state with
  | nil => rfl
  | merge =>
    simp only [renderSegments, renderSegment, expandAll, Piece.expand, List.cons_append,
      List.nil_append, List.flatMap_cons, List.flatMap_nil, List.append_nil, List.append_assoc]
  | cons _ ih => simp only [renderSegments, expandAll_append, ih, List.append_assoc]

/-- A segment takes an argument exactly when it is a conversion. -/
theorem renderSegment_arguments_append {segment : Segment} {rest : List Segment}
    {given : List Argument} (hcount : given.length = (specsOf (segment :: rest)).length)
    (others : List Argument) :
    renderSegment Source.arguments (given ++ others) segment =
        ((renderSegment Source.arguments given segment).1,
          (renderSegment Source.arguments given segment).2 ++ others) ∧
      (renderSegment Source.arguments given segment).2.length = (specsOf rest).length := by
  cases segment with
  | literal text => exact ⟨rfl, hcount⟩
  | percent => exact ⟨rfl, hcount⟩
  | unrecognized text => exact ⟨rfl, hcount⟩
  | conversion spec =>
    obtain ⟨argument, left, rfl⟩ := List.exists_cons_of_length_eq_add_one hcount
    rw [renderSegment_conversion, renderSegment_conversion]
    exact ⟨rfl, Nat.succ.inj hcount⟩

/-- Segments use up one argument for each of their conversions. -/
theorem renderSegments_arguments_append {segments : List Segment} {given : List Argument}
    (hcount : given.length = (specsOf segments).length) (others : List Argument) :
    renderSegments Source.arguments (given ++ others) segments =
      ((renderSegments Source.arguments given segments).1, others) := by
  induction segments generalizing given with
  | nil =>
    obtain rfl : given = [] := List.length_eq_zero_iff.mp hcount
    rfl
  | cons segment rest ih =>
    obtain ⟨hsegment, hleft⟩ := renderSegment_arguments_append hcount others
    simp only [renderSegments, hsegment, ih hleft]

variable {left right : String}

theorem formatNow_append (hfinished : ¬EndsUnfinished left.toList) (right : String)
    {given : List Argument} (hcount : given.length = (conversions left).length)
    (others : List Argument) :
    formatNow (left ++ right) (given ++ others) =
      formatNow left given ++ formatNow right others := by
  have hjoins : Joins (segments left) (segments right) (segments (left ++ right)) := by
    rw [segments, segments, segments, String.toList_append]
    exact joins_readAll hfinished right.toList
  have hspecs : given.length = (specsOf (segments left)).length := hcount
  have hgiven := renderSegments_arguments_append hspecs others
  rw [formatNow, formatNow, formatNow, render, render, render, expandAll_of_joins hjoins, hgiven,
    String.ofList_append]

theorem capture_append (hfinished : ¬EndsUnfinished left.toList) {given others : List Argument}
    {available behind room : Nat} {first second : List UInt8}
    (hleft : capture left given available = { bytes := first, fault := none })
    (hright : capture right others behind = { bytes := second, fault := none })
    (hroom : (layout left).encodedBytes + (layout right).encodedBytes ≤ room) :
    capture (left ++ right) (given ++ others) room =
      { bytes := first ++ second, fault := none } := by
  obtain ⟨records, hgiven, hfirst, -⟩ := feeds_of_capture (congrArg Transcript.fault hleft)
  obtain ⟨more, hothers, hsecond, -⟩ := feeds_of_capture (congrArg Transcript.fault hright)
  rw [hleft] at hfirst
  rw [hright] at hsecond
  have hasked : asked (left ++ right) = asked left ++ asked right := by
    rw [asked, conversions_append hfinished, List.map_append]
    rfl
  have hfeeds : Feeds (asked (left ++ right)) (given ++ others) (records ++ more) := by
    rw [hasked]
    exact hgiven.append hothers
  have hneeds : (layout (left ++ right)).encodedBytes ≤ room := by
    rw [layout_append hfinished]
    exact hroom
  rw [capture_of_feeds hfeeds hneeds, encodeAll, List.flatMap_append]
  exact congrArg₂ (fun first second => Transcript.mk (first ++ second) none) hfirst.symm
    hsecond.symm

/-- A format that does not end within a specifier and one that follows it have their
conversions, their needs, their text and their records one behind the other. -/
theorem composes_append (hfinished : ¬EndsUnfinished left.toList) (right : String) :
    conversions (left ++ right) = conversions left ++ conversions right ∧
      layout (left ++ right) = layout left + layout right ∧
      (∀ given others : List Argument, given.length = (conversions left).length →
        formatNow (left ++ right) (given ++ others) =
          formatNow left given ++ formatNow right others) ∧
      ∀ (given others : List Argument) (available behind room : Nat)
        (first second : List UInt8),
        capture left given available = { bytes := first, fault := none } →
        capture right others behind = { bytes := second, fault := none } →
        (layout left).encodedBytes + (layout right).encodedBytes ≤ room →
        capture (left ++ right) (given ++ others) room =
          { bytes := first ++ second, fault := none } := by
  refine ⟨conversions_append hfinished right, layout_append hfinished right, ?_, ?_⟩
  · intro given others hcount
    exact formatNow_append hfinished right hcount others
  · intro given others available behind room first second hleft hright hroom
    exact capture_append hfinished hleft hright hroom

/-- Behind a specifier that was broken off by its last character. -/
theorem composes_append_broken :
    let left := "n=%d%q"
    let right := "x%d"
    let given := [Argument.int 7]
    let others := [Argument.bool true]
    let first : List UInt8 := [1, 7, 0, 0, 0]
    let second : List UInt8 := [1, 1, 0, 0, 0]
    ¬EndsUnfinished left.toList ∧ given.length = (conversions left).length ∧
      capture left given 5 = { bytes := first, fault := none } ∧
      capture right others 8 = { bytes := second, fault := none } ∧
      formatNow (left ++ right) (given ++ others) =
        formatNow left given ++ formatNow right others ∧
      capture (left ++ right) (given ++ others) 12 =
        { bytes := first ++ second, fault := none } := by
  intro left right given others first second
  have hfinished : ¬EndsUnfinished left.toList := by
    rintro ⟨before, parts, hsegments, hmatches⟩
    have hlast := congrArg List.getLast? hsegments
    have hread :
        ((readAll left.toList).map Prod.fst).getLast? = some (.unrecognized ['%', 'q']) := by
      decide +kernel
    rw [hread, List.getLast?_concat] at hlast
    have htext : parts.text = ['%', 'q'] := (Segment.unrecognized.inj (Option.some.inj hlast)).symm
    obtain ⟨found, hfound, -, -⟩ := exists_matches ['q']
    rw [htext] at hmatches
    exact absurd (hmatches.unique hfound).2 (by decide)
  have hcount : given.length = (conversions left).length := by decide +kernel
  have hleft : capture left given 5 = { bytes := first, fault := none } := by decide +kernel
  have hright : capture right others 8 = { bytes := second, fault := none } := by decide +kernel
  obtain ⟨-, -, htext, hrecords⟩ := composes_append hfinished right
  exact ⟨hfinished, hcount, hleft, hright, htext given others hcount,
    hrecords given others 5 8 12 first second hleft hright (by decide +kernel)⟩

end LogRelay.Render
