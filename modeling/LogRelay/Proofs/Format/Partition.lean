import LogRelay.Proofs.Checked.Format

/-!
# Segments partition their format

Reading goes through a format piece by piece.  A piece begins where the one before it
ended, between two characters, and none is empty, so there are no more pieces than bytes
and together they make up the format.  What a piece looks like is decided by the segment
that it is read as; text that stands for itself is never cut in two.
-/

namespace LogRelay.Format

open LogRelay.Text
open LogRelay.Checked (At IsAscii)

variable {text : List Char} {before after : List (Segment × List Char)} {segment : Segment}
  {source : List Char}

/-! ## Pieces -/

/-- What the characters of a segment look like. -/
def IsPiece : Segment → List Char → Prop
  | .literal text, source => source = text ∧ '%' ∉ source
  | .percent, source => source = ['%', '%']
  | .conversion spec, source =>
    (∀ char ∈ source, IsAscii char) ∧ source.head? = some '%' ∧
      source.getLast? = some spec.conversion.letter
  | .unrecognized text, source => source = text ∧ source.head? = some '%'

theorem letter_of_ofLetter? {char : Char} {conversion : Conversion}
    (heq : Conversion.ofLetter? char = some conversion) : conversion.letter = char := by
  unfold Conversion.ofLetter? at heq
  split at heq
  all_goals first
    | (obtain rfl := Option.some.inj heq; rfl)
    | exact absurd heq (by simp)

theorem isPiece_readSpecifier (rest : List Char) :
    IsPiece (readSpecifier rest).segment (readSpecifier rest).source := by
  have hhead : ∀ more, (Checked.matchedOf rest ++ more).head? = some '%' := fun more => rfl
  cases hbehind : Checked.behindOf rest with
  | nil =>
    rw [Checked.readSpecifier_of_nil hbehind]
    exact ⟨rfl, rfl⟩
  | cons letter others =>
    rw [Checked.readSpecifier_of_cons hbehind]
    cases hletter : Conversion.ofLetter? letter with
    | none => exact ⟨rfl, hhead [letter]⟩
    | some conversion =>
      refine ⟨?_, hhead [letter], ?_⟩
      · intro char hchar
        rcases List.mem_append.mp hchar with hmatched | hlast
        · exact Checked.isAscii_of_mem_matchedOf rest char hmatched
        · rw [List.mem_singleton.mp hlast]
          exact Checked.isAscii_of_ofLetter? hletter
      · rw [List.getLast?_concat]
        exact congrArg some (letter_of_ofLetter? hletter).symm

theorem isPiece_readSegment (first : Char) (rest : List Char) :
    IsPiece (readSegment first rest).segment (readSegment first rest).source := by
  unfold readSegment
  split
  · split
    · rfl
    · exact isPiece_readSpecifier rest
  · next hfirst =>
    refine ⟨rfl, fun hpercent => ?_⟩
    rcases List.mem_cons.mp hpercent with heq | hrun
    · exact hfirst heq.symm
    · have htest := List.all_eq_true.mp List.all_takeWhile '%' hrun
      exact absurd htest (by decide)

/-! ## Steps -/

/-- Every piece of a text is read where the pieces before it end. -/
theorem reading_of_readAll (hread : readAll text = before ++ (segment, source) :: after) :
    ∃ first rest behind, text = before.flatMap Prod.snd ++ first :: rest ∧
      readSegment first rest = ⟨segment, source, behind⟩ ∧ readAll behind = after := by
  induction before generalizing text with
  | nil =>
    cases text with
    | nil => exact absurd hread (by simp [readAll])
    | cons first rest =>
      rw [readAll, List.nil_append] at hread
      obtain ⟨hpiece, hafter⟩ := List.cons.inj hread
      obtain ⟨rfl, rfl⟩ := Prod.mk.inj hpiece
      exact ⟨first, rest, (readSegment first rest).rest, rfl, rfl, hafter⟩
  | cons piece before ih =>
    cases text with
    | nil => exact absurd hread (by simp [readAll])
    | cons first rest =>
      rw [readAll, List.cons_append] at hread
      obtain ⟨rfl, hothers⟩ := List.cons.inj hread
      obtain ⟨next, others, behind, htext, hreading, hafter⟩ := ih hothers
      refine ⟨next, others, behind, ?_, hreading, hafter⟩
      rw [List.flatMap_cons, List.append_assoc, ← htext, readSegment_append]

/-- The pieces of a text, one after the other, are the text. -/
theorem flatMap_readAll (text : List Char) : (readAll text).flatMap Prod.snd = text := by
  refine readAll.induct (motive := fun text => (readAll text).flatMap Prod.snd = text) ?_ ?_ text
  · rw [readAll, List.flatMap_nil]
  · intro first rest _ reading ih
    have hrest : (readAll (readSegment first rest).rest).flatMap Prod.snd =
        (readSegment first rest).rest := ih
    rw [readAll, List.flatMap_cons, hrest, readSegment_append]

theorem readSegment_of_ne_percent {first : Char} (hfirst : first ≠ '%') (rest : List Char) :
    readSegment first rest = ⟨.literal (first :: rest.takeWhile (· ≠ '%')),
      first :: rest.takeWhile (· ≠ '%'), rest.dropWhile (· ≠ '%')⟩ :=
  if_neg hfirst

/-- A literal has no `%` in it, so it does not begin with one. -/
theorem ne_percent_of_literal {first : Char} {rest behind : List Char}
    (hreading : readSegment first rest = ⟨.literal text, source, behind⟩) : first ≠ '%' := by
  have hpiece := isPiece_readSegment first rest
  have hsource := readSegment_source_ne_nil first rest
  have happend := readSegment_append first rest
  rw [hreading] at hpiece hsource happend
  obtain ⟨char, others, rfl⟩ := List.exists_cons_of_ne_nil hsource
  rintro rfl
  exact hpiece.2 ((List.cons.inj happend).1 ▸ List.mem_cons_self)

/-- After a literal the text ends, or a segment of another kind begins. -/
theorem not_literal_after_literal {first next : Char} {rest others : List Char}
    (hreading : readSegment first rest = ⟨.literal text, source, next :: others⟩)
    (more : List Char) : (readSegment next others).segment ≠ .literal more := by
  have hbehind : rest.dropWhile (· ≠ '%') = next :: others := by
    rw [readSegment_of_ne_percent (ne_percent_of_literal hreading)] at hreading
    exact congrArg Reading.rest hreading
  have hstop := List.head?_dropWhile_not (· ≠ '%') rest
  rw [hbehind] at hstop
  have hpercent : next = '%' := by simpa using hstop
  intro hliteral
  have hnext : readSegment next others =
      ⟨.literal more, (readSegment next others).source, (readSegment next others).rest⟩ := by
    rw [← hliteral]
  exact ne_percent_of_literal hnext hpercent

/-- One step of reading goes from one boundary between characters on to another. -/
structure IsStep (format : String) (start : Nat) (segment : Segment) (source : List Char) :
    Prop where
  source_ne_nil : source ≠ []
  /-- By its bytes the text is read in the same steps. -/
  reads : Checked.segmentAt? format.toList start = some (segment, start + byteLength source)
  start_isValid : String.Pos.Raw.IsValid format ⟨start⟩
  stop_isValid : String.Pos.Raw.IsValid format ⟨start + byteLength source⟩
  slice_eq :
    Checked.slice? start (start + byteLength source) format.toList = some source

theorem isValid_of_append {format : String} {before behind : List Char}
    (happend : format.toList = before ++ behind) :
    String.Pos.Raw.IsValid format ⟨byteLength before⟩ := by
  apply String.Pos.Raw.isValid_iff_exists_append.mpr
  refine ⟨String.ofList before, String.ofList behind, ?_, ?_⟩
  · rw [← String.ofList_append, ← happend, String.ofList_toList]
  · rw [← utf8ByteSize_ofList]
    rfl

theorem isStep_of_readAll {format : String}
    (hread : readAll format.toList = before ++ (segment, source) :: after) :
    IsStep format (byteLength (before.flatMap Prod.snd)) segment source := by
  obtain ⟨first, rest, behind, htext, hreading, -⟩ := reading_of_readAll hread
  have happend := readSegment_append first rest
  rw [hreading] at happend
  have hat : At format.toList (byteLength (before.flatMap Prod.snd)) (first :: rest) :=
    ⟨before.flatMap Prod.snd, htext, rfl⟩
  have hparts : At format.toList (byteLength (before.flatMap Prod.snd)) (source ++ behind) := by
    rwa [happend]
  constructor
  · have hsource := readSegment_source_ne_nil first rest
    rwa [hreading] at hsource
  · rw [Checked.segmentAt?_eq hat, hreading]
  · exact isValid_of_append htext
  · have hthrough : format.toList = before.flatMap Prod.snd ++ source ++ behind := by
      rw [htext, List.append_assoc, happend]
    rw [← byteLength_append]
    exact isValid_of_append hthrough
  · exact hparts.slice?

/-! ## The whole format -/

/-- The pieces of a format, each with the segment it is read as. -/
structure Partitions (format : String) (pieces : List (Segment × List Char)) : Prop where
  segments_eq : pieces.map Prod.fst = segments format
  length_le : pieces.length ≤ format.utf8ByteSize
  text_eq : String.ofList (pieces.flatMap Prod.snd) = format
  isStep : ∀ before segment source after, pieces = before ++ (segment, source) :: after →
    IsStep format (byteLength (before.flatMap Prod.snd)) segment source
  isPiece : ∀ segment source, (segment, source) ∈ pieces → IsPiece segment source
  /-- No two literals meet. -/
  maximal : ∀ before left right after leftText rightText,
    pieces ≠ before ++ (.literal leftText, left) :: (.literal rightText, right) :: after

/-- Every format is read to its end, and nothing of it is lost, repeated or reordered. -/
theorem partitions_readAll (format : String) : Partitions format (readAll format.toList) where
  segments_eq := rfl
  length_le := by
    have hlength := Checked.length_readAll_le format.toList
    rwa [← utf8ByteSize_ofList, String.ofList_toList] at hlength
  text_eq := by rw [flatMap_readAll, String.ofList_toList]
  isStep before segment source after hread := isStep_of_readAll hread
  isPiece segment source hmem := by
    obtain ⟨before, after, hread⟩ := List.append_of_mem hmem
    obtain ⟨first, rest, behind, -, hreading, -⟩ := reading_of_readAll hread
    have hpiece := isPiece_readSegment first rest
    rwa [hreading] at hpiece
  maximal before left right after leftText rightText hread := by
    obtain ⟨first, rest, behind, -, hreading, hafter⟩ := reading_of_readAll hread
    obtain ⟨next, others, last, hbehind, hnext, -⟩ :=
      reading_of_readAll (hafter.trans (List.nil_append _).symm)
    rw [List.flatMap_nil, List.nil_append] at hbehind
    subst hbehind
    exact not_literal_after_literal hreading rightText (congrArg Reading.segment hnext)

end LogRelay.Format
