import LogRelay.Proofs.Record.Recall
import LogRelay.Proofs.Render.Bounded
import LogRelay.Proofs.Render.Concatenation
import LogRelay.Proofs.Render.Replay

/-!
# Replaying against another format

A format may ask for other classes than those on record, and for more or fewer values.
Each of its conversions uses up one whole record, of whatever class and size, so the next
conversion meets the next record.  What a conversion shows depends on nothing but itself
and the argument of its own number.
-/

namespace LogRelay.Render

open LogRelay.Format LogRelay.Record LogRelay.Text

variable {texts : StaticTexts} {kinds : List Kind} {arguments : List Argument}
  {records : List (Kind × Value)} {format other : String} {available : Nat}

/-- What the conversion of this number shows of arguments that are on record as values of
the given classes. -/
def shownAt (kinds : List Kind) (arguments : List Argument) (number : Nat) (spec : Spec) :
    List Char :=
  match kinds[number]?, arguments[number]? with
  | some kind, some argument =>
    if kind = spec.kind then expandAll (shown spec (argument.coerce? kind)) else mismatchMarker
  | _, _ => mismatchMarker

/-- The text of segments with the given text for every conversion.  Conversions are counted
from `number`. -/
def fillFrom (text : Nat → Spec → List Char) (number : Nat) : List Segment → List Char
  | [] => []
  | .literal chars :: rest | .unrecognized chars :: rest => chars ++ fillFrom text number rest
  | .percent :: rest => '%' :: fillFrom text number rest
  | .conversion spec :: rest => text number spec ++ fillFrom text (number + 1) rest

/-! ## Text with gaps -/

theorem fillFrom_succ (text : Nat → Spec → List Char) (number : Nat) (segments : List Segment) :
    fillFrom text (number + 1) segments =
      fillFrom (fun place => text (place + 1)) number segments := by
  induction segments generalizing number with
  | nil => rfl
  | cons segment rest ih => cases segment <;> simp only [fillFrom, ih]

/-- Conversions before the first segment leave no trace. -/
theorem fillFrom_congr {text changed : Nat → Spec → List Char} {number : Nat}
    (heq : ∀ place, number ≤ place → changed place = text place) (segments : List Segment) :
    fillFrom changed number segments = fillFrom text number segments := by
  induction segments generalizing number with
  | nil => rfl
  | cons segment rest ih =>
    have hbehind := ih fun place hplace => heq place (Nat.le_of_succ_le hplace)
    cases segment with
    | literal | unrecognized | percent => simp only [fillFrom, ih heq]
    | conversion spec => simp only [fillFrom, hbehind, heq number (Nat.le_refl _)]

/-- What stands before and behind a conversion is not of its making. -/
theorem fillFrom_split (text : Nat → Spec → List Char) (start number : Nat)
    (segments : List Segment) :
    ∃ before behind, ∀ changed : Nat → Spec → List Char,
      (∀ place, place ≠ start + number → changed place = text place) →
      fillFrom changed start segments =
        before ++ ((specsOf segments)[number]?.elim [] (changed (start + number)) ++ behind) := by
  induction segments generalizing start number with
  | nil => exact ⟨[], [], fun _ _ => rfl⟩
  | cons segment rest ih =>
    cases segment with
    | literal chars | unrecognized chars =>
      obtain ⟨before, behind, hsplit⟩ := ih start number
      refine ⟨chars ++ before, behind, fun changed heq => ?_⟩
      rw [fillFrom, hsplit changed heq, List.append_assoc]
      rfl
    | percent =>
      obtain ⟨before, behind, hsplit⟩ := ih start number
      refine ⟨'%' :: before, behind, fun changed heq => ?_⟩
      rw [fillFrom, hsplit changed heq, List.cons_append]
      rfl
    | conversion spec =>
      cases number with
      | zero =>
        refine ⟨[], fillFrom text (start + 1) rest, fun changed heq => ?_⟩
        rw [fillFrom, fillFrom_congr fun place hplace => heq place (by omega)]
        rfl
      | succ number =>
        obtain ⟨before, behind, hsplit⟩ := ih (start + 1) number
        refine ⟨text start spec ++ before, behind, fun changed heq => ?_⟩
        have hplace : start + 1 + number = start + (number + 1) := by omega
        rw [hplace] at hsplit
        rw [fillFrom, hsplit changed heq, heq start (by omega), List.append_assoc]
        rfl

/-! ## Records one by one -/

theorem expandAll_marker : expandAll [.chars mismatchMarker] = mismatchMarker := rfl

theorem shownAt_succ (kinds : List Kind) (arguments : List Argument) (number : Nat) :
    shownAt kinds arguments (number + 1) = shownAt kinds.tail arguments.tail number := by
  funext spec
  rw [shownAt, shownAt, List.getElem?_tail, List.getElem?_tail]

/-- A conversion uses up a whole record, whether it can show it or not. -/
theorem renderSegment_encodeAll (hfeeds : Feeds kinds arguments records)
    (hstatic : ∀ argument ∈ arguments, argument.IsStatic texts) (spec : Spec) :
    let rendered := renderSegment (Source.records texts) (encodeAll records) (.conversion spec)
    expandAll rendered.1 = shownAt kinds arguments 0 spec ∧
      rendered.2 = encodeAll records.tail := by
  intro rendered
  have hrendered : rendered = _ := renderSegment_conversion _ _ _
  rw [hrendered]
  cases hfeeds with
  | nil => exact ⟨rfl, rfl⟩
  | @cons kind kinds argument arguments value records value_eq rest =>
    have hrecordable := recordable_of_coerce? (hstatic argument List.mem_cons_self) value_eq
    have htaken := takeRecord_encode hrecordable (encodeAll records)
    by_cases hkind : kind = spec.kind
    · simp only [Source.records, encodeAll_cons, htaken, if_pos hkind, shownAt,
        List.getElem?_cons_zero, value_eq, List.tail_cons, and_self]
    · simp only [Source.records, encodeAll_cons, htaken, if_neg hkind, shownAt,
        List.getElem?_cons_zero, List.tail_cons, shown, expandAll_marker, and_self]

theorem expandAll_renderSegments_encodeAll (hfeeds : Feeds kinds arguments records)
    (hstatic : ∀ argument ∈ arguments, argument.IsStatic texts) (segments : List Segment) :
    expandAll (renderSegments (Source.records texts) (encodeAll records) segments).1 =
      fillFrom (shownAt kinds arguments) 0 segments := by
  induction segments generalizing kinds arguments records with
  | nil => rfl
  | cons segment rest ih =>
    cases segment with
    | literal text => exact congrArg (text ++ ·) (ih hfeeds hstatic)
    | unrecognized text => exact congrArg (text ++ ·) (ih hfeeds hstatic)
    | percent => exact congrArg ('%' :: ·) (ih hfeeds hstatic)
    | conversion spec =>
      -- Shown or not, the first record is gone, and the others are those of the tails.
      obtain ⟨hshown, hleft⟩ := renderSegment_encodeAll hfeeds hstatic spec
      have hothers : ∀ argument ∈ arguments.tail, argument.IsStatic texts :=
        fun argument hargument => hstatic argument (List.mem_of_mem_tail hargument)
      rw [renderSegments_cons, expandAll_append, hshown, hleft, ih hfeeds.tail hothers, fillFrom,
        fillFrom_succ]
      simp only [shownAt_succ]

theorem replay_eq_fillFrom (hstatic : ∀ argument ∈ arguments, argument.IsStatic texts)
    (hfault : (capture format arguments available).fault = none) (other : String) :
    replay texts (capture format arguments available).bytes other =
      String.ofList (fillFrom (shownAt (asked format) arguments) 0 (segments other)) := by
  obtain ⟨records, hfeeds, hbytes, -⟩ := feeds_of_capture hfault
  rw [replay, render, hbytes, expandAll_renderSegments_encodeAll hfeeds hstatic]
  rfl

/-- What replaying captured arguments against another format shows. -/
structure StaysInStep (texts : StaticTexts) (format : String) (arguments : List Argument)
    (available : Nat) (other : String) : Prop where
  text_eq : replay texts (capture format arguments available).bytes other =
    String.ofList (fillFrom (shownAt (asked format) arguments) 0 (segments other))
  matched : ∀ (number : Nat) (spec : Spec), (asked format)[number]? = some spec.kind →
    ∃ argument value, arguments[number]? = some argument ∧
      argument.coerce? spec.kind = some value ∧
      shownAt (asked format) arguments number spec = expandAll (renderValue spec value)
  marked : ∀ (number : Nat) (spec : Spec), (asked format)[number]? ≠ some spec.kind →
    shownAt (asked format) arguments number spec = ['<', '?', '>']
  /-- Another argument in one place, of any class or missing, changes nothing around the
  conversion of that place. -/
  isolated : ∀ number, ∃ before behind, ∀ (changed : String) (given : List Argument) (room : Nat),
    (∀ argument ∈ given, argument.IsStatic texts) → (capture changed given room).fault = none →
    (∀ place, place ≠ number →
      (asked changed)[place]? = (asked format)[place]? ∧ given[place]? = arguments[place]?) →
    replay texts (capture changed given room).bytes other =
      String.ofList (before ++
        ((conversions other)[number]?.elim [] (shownAt (asked changed) given number) ++ behind))

/-- Captured arguments stay in step with the conversions of every format they are replayed
against. -/
theorem staysInStep_of_capture (hstatic : ∀ argument ∈ arguments, argument.IsStatic texts)
    (hfault : (capture format arguments available).fault = none) (other : String) :
    StaysInStep texts format arguments available other where
  text_eq := replay_eq_fillFrom hstatic hfault other
  matched number spec hkind := by
    obtain ⟨records, hfeeds, -⟩ := feeds_of_capture hfault
    obtain ⟨argument, value, hargument, -, hcoerce⟩ := Feeds.getElem? hfeeds hkind
    refine ⟨argument, value, hargument, hcoerce, ?_⟩
    rw [shownAt, hkind, hargument]
    simp only [if_true, hcoerce, shown]
  marked number spec hkind := by
    rw [shownAt]
    split
    · next kind argument hrecorded _ =>
      have hother : kind ≠ spec.kind := by
        rintro rfl
        exact hkind hrecorded
      rw [if_neg hother, mismatchMarker]
    · rfl
  isolated number := by
    obtain ⟨before, behind, hsplit⟩ :=
      fillFrom_split (shownAt (asked format) arguments) 0 number (segments other)
    refine ⟨before, behind, fun changed given room hgiven hcaptured hagree => ?_⟩
    rw [replay_eq_fillFrom hgiven hcaptured, hsplit, Nat.zero_add, specsOf_segments]
    intro place hplace
    obtain ⟨hkinds, harguments⟩ := hagree place (by omega)
    funext spec
    rw [shownAt, shownAt, hkinds, harguments]

/-- A text where a number is asked for, and one conversion more than there are records. -/
theorem staysInStep_of_capture_mismatched :
    let texts : StaticTexts := [⟨4096, "disk"⟩]
    let arguments : List Argument := [.str ⟨4096, "disk"⟩, .int 7, .float ⟨0x3fe0000000000000⟩]
    (∀ argument ∈ arguments, argument.IsStatic texts) ∧
      (capture "%s %d %f" arguments 64).fault = none ∧
      StaysInStep texts "%s %d %f" arguments 64 "%5d|%5i|%g|%x" ∧
      replay texts (capture "%s %d %f" arguments 64).bytes "%5d|%5i|%g|%x" =
        "<?>|    7|0.5|<?>" := by
  intro texts arguments
  have hstatic : ∀ argument ∈ arguments, argument.IsStatic texts := by
    simp [arguments, texts, Argument.IsStatic, StaticTexts.find?]
  have hfault : (capture "%s %d %f" arguments 64).fault = none := by decide +kernel
  exact ⟨hstatic, hfault, staysInStep_of_capture hstatic hfault "%5d|%5i|%g|%x", by decide +kernel⟩

end LogRelay.Render
