import LogRelay.Proofs.Format.Grammar

/-!
# Formats one behind the other

What follows a segment that is complete has no part in how it was read.  So the segments of
two formats in a row are those of the first and then those of the second, as long as the
first does not end within a specifier; where text meets text the two literals run together.
-/

namespace LogRelay.Format

variable {test : Char → Bool} {text run rest more : List Char} {parts : Parts}

/-! ## Matches in a longer text -/

theorem Run.append_right (hrun : Run test text run rest) (hrest : rest ≠ []) (more : List Char) :
    Run test (text ++ more) run (rest ++ more) where
  append_eq := by rw [← List.append_assoc, hrun.append_eq]
  passes := hrun.passes
  maximal char others heq := by
    obtain ⟨next, left, rfl⟩ := List.exists_cons_of_ne_nil hrest
    rw [← (List.cons.inj heq).1]
    exact hrun.maximal next left rfl

theorem Point.append_right {digits : Option (List Char)} (hpoint : Point text digits rest)
    (hrest : rest ≠ []) (more : List Char) : Point (text ++ more) digits (rest ++ more) := by
  cases hpoint with
  | absent habsent =>
    obtain ⟨next, left, rfl⟩ := List.exists_cons_of_ne_nil hrest
    refine .absent fun others heq => habsent left ?_
    rw [(List.cons.inj heq).1]
  | present hrun => exact .present (hrun.append_right hrest more)

/-- What a modifier begins with is a modifier. -/
theorem Length.exists_text_of_prefix {other : Length} (hbegins : text <+: other.text) :
    ∃ length : Length, length.text = text := by
  suffices hmem : text ∈ Length.all.map Length.text by
    obtain ⟨length, -, heq⟩ := List.mem_map.mp hmem
    exact ⟨length, heq⟩
  cases other <;> simp [Length.all, Length.text, List.prefix_cons_iff] at hbegins ⊢ <;> grind

/-- The character behind a modifier shows that it goes no further. -/
theorem Modifier.append_right {length : Length} (hmodifier : Modifier text length rest)
    (hrest : rest ≠ []) (more : List Char) : Modifier (text ++ more) length (rest ++ more) where
  append_eq := by rw [← List.append_assoc, hmodifier.append_eq]
  longest other hother := by
    rcases Nat.le_total other.text.length text.length with hshort | hlong
    · exact hmodifier.longest other
        (List.prefix_of_prefix_length_le hother (List.prefix_append text more) hshort)
    · -- A modifier that outgrew the text would make all of the text one.
      obtain ⟨whole, hwhole⟩ := Length.exists_text_of_prefix
        (List.prefix_of_prefix_length_le (List.prefix_append text more) hother hlong)
      have hsize := hmodifier.longest whole (hwhole ▸ List.prefix_rfl)
      have hpositive := List.length_pos_iff.mpr hrest
      rw [hwhole, ← hmodifier.append_eq, List.length_append] at hsize
      omega

/-- A specifier that ends in a text is matched alike whatever follows the text. -/
theorem Matches.append_right (hmatches : Matches text parts rest) (hrest : rest ≠ [])
    (more : List Char) : Matches (text ++ more) parts (rest ++ more) := by
  obtain @⟨_, _, afterFlags, _, afterWidth, _, afterPoint, _, _, hflags, hwidth, hpoint, hlength⟩ :=
    hmatches
  have hafterPoint : afterPoint ≠ [] := by
    rw [← hlength.append_eq]
    exact List.append_ne_nil_of_right_ne_nil _ hrest
  have hafterWidth : afterWidth ≠ [] := by
    rw [← hpoint.append_eq]
    exact List.append_ne_nil_of_right_ne_nil _ hafterPoint
  have hafterFlags : afterFlags ≠ [] := by
    rw [← hwidth.append_eq]
    exact List.append_ne_nil_of_right_ne_nil _ hafterWidth
  exact .intro (hflags.append_right hafterFlags more) (hwidth.append_right hafterWidth more)
    (hpoint.append_right hafterPoint more) (hlength.append_right hrest more)

/-! ## Segments in a longer text -/

/-- The text ends within a specifier: the last segment is all matched, and no character is
left to complete the specifier or to break it off. -/
def EndsUnfinished (text : List Char) : Prop :=
  ∃ (before : List Segment) (parts : Parts),
    (readAll text).map Prod.fst = before ++ [.unrecognized parts.text] ∧
      Matches parts.text parts []

theorem readSpecifier_append_right {letter : Char} {behind : List Char}
    (hmatches : Matches ('%' :: rest) parts (letter :: behind)) (more : List Char) :
    readSpecifier (rest ++ more) =
      { readSpecifier rest with rest := (readSpecifier rest).rest ++ more } := by
  have hlonger : Matches ('%' :: (rest ++ more)) parts (letter :: (behind ++ more)) :=
    hmatches.append_right (List.cons_ne_nil letter behind) more
  cases hletter : Conversion.ofLetter? letter with
  | none => rw [readSpecifier_of_broken hmatches hletter, readSpecifier_of_broken hlonger hletter]
  | some conversion =>
    obtain rfl := letter_of_ofLetter? hletter
    rw [readSpecifier_of_accepted hmatches, readSpecifier_of_accepted hlonger]

/-- The first segment of a text is read alike in a longer text, or it is a literal that goes
on up to the end, or an unfinished specifier. -/
theorem readSegment_append_right (first : Char) (rest more : List Char) :
    readSegment first (rest ++ more) =
        { readSegment first rest with rest := (readSegment first rest).rest ++ more } ∨
      (first ≠ '%' ∧ ∀ char ∈ rest, char ≠ '%') ∨
      (first = '%' ∧ rest.head? ≠ some '%' ∧ ∃ parts, Matches ('%' :: rest) parts []) := by
  by_cases hfirst : first = '%'
  · subst hfirst
    by_cases hsingle : rest.head? = some '%'
    · obtain ⟨others, rfl⟩ := List.head?_eq_some_iff.mp hsingle
      exact .inl rfl
    · obtain ⟨parts, hmatches, -, -⟩ := exists_matches rest
      cases hbehind : Checked.behindOf rest with
      | nil =>
        rw [hbehind] at hmatches
        exact .inr (.inr ⟨rfl, hsingle, parts, hmatches⟩)
      | cons letter behind =>
        rw [hbehind] at hmatches
        have hlonger : (rest ++ more).head? ≠ some '%' := by
          cases rest with
          | nil => exact absurd hbehind (List.cons_ne_nil letter behind).symm
          | cons next others => exact hsingle
        rw [readSegment_percent hsingle, readSegment_percent hlonger]
        exact .inl (readSpecifier_append_right hmatches more)
  · have hrun := run_takeWhile (· ≠ '%') rest
    by_cases hend : rest.dropWhile (· ≠ '%') = []
    · refine .inr (.inl ⟨hfirst, fun char hchar => ?_⟩)
      have hpasses := hrun.passes char
      rw [← List.append_nil (rest.takeWhile _), ← hend, hrun.append_eq] at hpasses
      simpa using hpasses hchar
    · obtain ⟨htake, hdrop⟩ := (hrun.append_right hend more).eq_takeWhile
      rw [readSegment_of_ne_percent hfirst, readSegment_of_ne_percent hfirst, ← htake, ← hdrop]
      exact .inl rfl

/-! ## Two formats -/

/-- The segments of one format and then those of another, with no literal cut in two. -/
inductive Joins : List Segment → List Segment → List Segment → Prop where
  | nil {right : List Segment} : Joins [] right right
  | merge {text more : List Char} {after : List Segment} :
      Joins [.literal text] (.literal more :: after) (.literal (text ++ more) :: after)
  | cons {segment : Segment} {left right whole : List Segment} (rest : Joins left right whole) :
      Joins (segment :: left) right (segment :: whole)

theorem map_fst_readAll_cons (first : Char) (rest : List Char) :
    (readAll (first :: rest)).map Prod.fst = (readSegment first rest).segment ::
      (readAll (readSegment first rest).rest).map Prod.fst := by
  rw [readAll, List.map_cons]

theorem map_fst_readAll_literal {first : Char} (hfirst : first ≠ '%') (rest : List Char) :
    (readAll (first :: rest)).map Prod.fst = .literal (first :: rest.takeWhile (· ≠ '%')) ::
      (readAll (rest.dropWhile (· ≠ '%'))).map Prod.fst := by
  rw [map_fst_readAll_cons, readSegment_of_ne_percent hfirst]

/-- Text at the end of a format runs on into the text that follows. -/
theorem joins_literal {first : Char} (hfirst : first ≠ '%') (hrest : ∀ char ∈ rest, char ≠ '%')
    (more : List Char) :
    Joins ((readAll (first :: rest)).map Prod.fst) ((readAll more).map Prod.fst)
      ((readAll (first :: (rest ++ more))).map Prod.fst) := by
  have hpasses : ∀ char ∈ rest, decide (char ≠ '%') = true := by simpa using hrest
  have hrun : Run (· ≠ '%') rest rest [] :=
    ⟨List.append_nil rest, hpasses, fun _ _ heq => absurd heq (by simp)⟩
  obtain ⟨htake, hdrop⟩ := hrun.eq_takeWhile
  have hnil : (readAll []).map Prod.fst = [] := by rw [readAll, List.map_nil]
  rw [map_fst_readAll_literal hfirst, map_fst_readAll_literal hfirst,
    List.takeWhile_append_of_pos hpasses, List.dropWhile_append_of_pos hpasses, ← htake, ← hdrop,
    hnil]
  cases more with
  | nil =>
    rw [List.takeWhile_nil, List.dropWhile_nil, List.append_nil]
    exact .cons .nil
  | cons next others =>
    by_cases hnext : next = '%'
    · subst hnext
      rw [List.takeWhile_cons_of_neg (by decide), List.dropWhile_cons_of_neg (by decide),
        List.append_nil]
      exact .cons .nil
    · have htest : decide (next ≠ '%') = true := by simpa using hnext
      rw [List.takeWhile_cons_of_pos (p := (· ≠ '%')) htest,
        List.dropWhile_cons_of_pos (p := (· ≠ '%')) htest, map_fst_readAll_literal hnext]
      exact .merge

/-- The segments of a format that is complete stay as they are in front of another. -/
theorem joins_readAll (hfinished : ¬EndsUnfinished text) (more : List Char) :
    Joins ((readAll text).map Prod.fst) ((readAll more).map Prod.fst)
      ((readAll (text ++ more)).map Prod.fst) := by
  revert hfinished
  refine readAll.induct (motive := fun text => ¬EndsUnfinished text →
    Joins ((readAll text).map Prod.fst) ((readAll more).map Prod.fst)
      ((readAll (text ++ more)).map Prod.fst)) ?_ ?_ text
  · intro _
    rw [readAll]
    exact .nil
  · intro first rest _ reading ih hfinished
    obtain hsame | ⟨hfirst, hrest⟩ | ⟨rfl, hsingle, parts, hmatches⟩ :=
      readSegment_append_right first rest more
    · have hothers : ¬EndsUnfinished (readSegment first rest).rest := by
        rintro ⟨before, parts, hsegments, hmatches⟩
        refine hfinished ⟨(readSegment first rest).segment :: before, parts, ?_, hmatches⟩
        rw [map_fst_readAll_cons, hsegments, List.cons_append]
      rw [List.cons_append, map_fst_readAll_cons, map_fst_readAll_cons, hsame]
      exact .cons (ih hothers)
    · exact joins_literal hfirst hrest more
    · have htext := hmatches.append_eq
      rw [List.append_nil] at htext
      refine absurd ⟨[], parts, ?_, htext ▸ hmatches⟩ hfinished
      rw [map_fst_readAll_cons, readSegment_percent hsingle, readSpecifier_of_exhausted hmatches,
        htext, readAll]
      rfl

/-- Apart from literals, what is picked from two formats in a row is picked from each. -/
theorem Joins.filterMap {α : Type} {left right whole : List Segment}
    (hjoins : Joins left right whole) (pick : Segment → Option α)
    (hliteral : ∀ text, pick (.literal text) = none) :
    whole.filterMap pick = left.filterMap pick ++ right.filterMap pick := by
  induction hjoins with
  | nil => rfl
  | merge => simp [hliteral]
  | @cons segment _ _ _ _ ih => cases hpick : pick segment <;> simp [hpick, ih]

theorem conversions_append {left : String} (hfinished : ¬EndsUnfinished left.toList)
    (right : String) : conversions (left ++ right) = conversions left ++ conversions right := by
  have hjoins := joins_readAll hfinished right.toList
  rw [← String.toList_append] at hjoins
  exact hjoins.filterMap _ fun _ => rfl

/-- Two lists of arguments need as much as both of them. -/
instance : Add Layout where
  add left right :=
    { count := left.count + right.count
      promotedBytes := left.promotedBytes + right.promotedBytes
      encodedBytes := left.encodedBytes + right.encodedBytes }

theorem layout_add_assoc (first second third : Layout) :
    first + second + third = first + (second + third) := by
  simp only [HAdd.hAdd, Add.add, Layout.mk.injEq]
  exact ⟨Nat.add_assoc _ _ _, Nat.add_assoc _ _ _, Nat.add_assoc _ _ _⟩

theorem add_eq_add (layout : Layout) (kind : Kind) :
    layout.add kind = layout + Layout.add {} kind := by
  cases kind <;> rfl

theorem foldl_add (specs : List Spec) (start : Layout) :
    specs.foldl (fun layout spec => layout.add spec.kind) start =
      start + specs.foldl (fun layout spec => layout.add spec.kind) {} := by
  induction specs generalizing start with
  | nil => rfl
  | cons spec rest ih =>
    rw [List.foldl_cons, List.foldl_cons, ih, ih (Layout.add {} spec.kind), add_eq_add,
      layout_add_assoc]

theorem layout_append {left : String} (hfinished : ¬EndsUnfinished left.toList)
    (right : String) : layout (left ++ right) = layout left + layout right := by
  rw [layout, conversions_append hfinished, List.foldl_append, foldl_add]
  rfl

end LogRelay.Format
