import LogRelay.Proofs.Record.RoundTrip
import LogRelay.Render.Replay

/-!
# Replaying gives the text of the call site

Rendering meets its values only through a source, so two sources that answer every
request alike give one text.  Records of arguments and the arguments themselves do so
for every format that asks for the classes that were recorded.
-/

namespace LogRelay.Render

open LogRelay.Format LogRelay.Record

/-- The conversions among segments, in order. -/
def specsOf (segments : List Segment) : List Spec :=
  segments.filterMap fun
    | .conversion spec => some spec
    | _ => none

theorem specsOf_segments (format : String) : specsOf (segments format) = conversions format := rfl

/-- What a conversion shows for the answer to its request. -/
def shown (spec : Spec) : Option Value → List Text.Piece
  | some value => renderValue spec value
  | none => [.chars mismatchMarker]

variable {σ τ : Type}

theorem renderSegment_conversion (source : Source σ) (state : σ) (spec : Spec) :
    renderSegment source state (.conversion spec) =
      (shown spec (source.next spec.kind state).1, (source.next spec.kind state).2) := by
  rw [renderSegment]
  cases heq : source.next spec.kind state with
  | mk answer next => cases answer <;> rfl

/-- Two sources give one text when their answers to the requests still to come are
the same.  `related` may depend on the conversions that are left. -/
theorem renderSegments_congr (source : Source σ) (target : Source τ)
    (related : List Spec → σ → τ → Prop)
    (hnext : ∀ spec specs state other, related (spec :: specs) state other →
      (source.next spec.kind state).1 = (target.next spec.kind other).1 ∧
        related specs (source.next spec.kind state).2 (target.next spec.kind other).2)
    {segments : List Segment} {state : σ} {other : τ}
    (hrelated : related (specsOf segments) state other) :
    (renderSegments source state segments).1 = (renderSegments target other segments).1 := by
  induction segments generalizing state other with
  | nil => rfl
  | cons segment rest ih =>
    cases segment with
    | literal text => exact congrArg ([Text.Piece.chars text] ++ ·) (ih hrelated)
    | unrecognized text => exact congrArg ([Text.Piece.chars text] ++ ·) (ih hrelated)
    | percent => exact congrArg ([Text.Piece.chars ['%']] ++ ·) (ih hrelated)
    | conversion spec =>
      obtain ⟨hvalue, hstates⟩ := hnext spec (specsOf rest) state other hrelated
      simp only [renderSegments, renderSegment_conversion]
      rw [hvalue, ih hstates]

/-- What is left of the records matches what is left of the arguments, and the
conversions to come ask for the classes on record. -/
def InStep (texts : StaticTexts) (specs : List Spec) (bytes : List UInt8)
    (arguments : List Argument) : Prop :=
  ∃ kinds records, Feeds kinds arguments records ∧ bytes = encodeAll records ∧
    (∀ argument ∈ arguments, argument.IsStatic texts) ∧
    ∀ pair ∈ kinds.zip (specs.map Spec.kind), pair.1 = pair.2

theorem next_records_eq_next_arguments {texts : StaticTexts} {spec : Spec} {specs : List Spec}
    {bytes : List UInt8} {arguments : List Argument}
    (hstep : InStep texts (spec :: specs) bytes arguments) :
    ((Source.records texts).next spec.kind bytes).1 =
        (Source.arguments.next spec.kind arguments).1 ∧
      InStep texts specs ((Source.records texts).next spec.kind bytes).2
        (Source.arguments.next spec.kind arguments).2 := by
  obtain ⟨kinds, records, hfeeds, rfl, hstatic, hkinds⟩ := hstep
  cases hfeeds with
  | nil => exact ⟨rfl, [], [], Feeds.nil, rfl, List.forall_mem_nil _, List.forall_mem_nil _⟩
  | @cons kind kinds argument arguments value records value_eq rest =>
    rw [List.map_cons, List.zip_cons_cons, List.forall_mem_cons] at hkinds
    obtain ⟨hkind, hothers⟩ := hkinds
    change kind = spec.kind at hkind
    obtain ⟨hfirst, hrest⟩ := List.forall_mem_cons.mp hstatic
    have htaken := takeRecord_encode (recordable_of_coerce? hfirst value_eq) (encodeAll records)
    subst hkind
    simp only [Source.records, Source.arguments, encodeAll_cons, htaken, value_eq, if_true]
    exact ⟨trivial, kinds, records, rest, rfl, hrest, hothers⟩

/-- Segments give the same text over the records of arguments as over the arguments. -/
theorem renderSegments_encodeAll {texts : StaticTexts} {kinds : List Kind}
    {arguments : List Argument} {records : List (Kind × Value)} {segments : List Segment}
    (hfeeds : Feeds kinds arguments records)
    (hstatic : ∀ argument ∈ arguments, argument.IsStatic texts)
    (hkinds : ∀ pair ∈ kinds.zip ((specsOf segments).map Spec.kind), pair.1 = pair.2) :
    (renderSegments (Source.records texts) (encodeAll records) segments).1 =
      (renderSegments Source.arguments arguments segments).1 :=
  renderSegments_congr (Source.records texts) Source.arguments (InStep texts)
    (fun _ _ _ _ => next_records_eq_next_arguments) ⟨kinds, records, hfeeds, rfl, hstatic, hkinds⟩

/-- Captured arguments replayed against a format give the text that the arguments
themselves would have given it, as long as the format asks for the classes on record.
It may have more conversions than were recorded, or fewer. -/
theorem replay_eq_formatNow {texts : StaticTexts} {format other : String}
    {arguments : List Argument} {available : Nat}
    (hstatic : ∀ argument ∈ arguments, argument.IsStatic texts)
    (hfault : (capture format arguments available).fault = none)
    (hkinds : ∀ pair ∈ (conversions format).zip (conversions other), pair.1.kind = pair.2.kind) :
    replay texts (capture format arguments available).bytes other = formatNow other arguments := by
  obtain ⟨records, hfeeds, hbytes, -⟩ := feeds_of_capture hfault
  have hzip : ∀ pair ∈ ((conversions format).map Spec.kind).zip
      ((specsOf (segments other)).map Spec.kind), pair.1 = pair.2 := by
    rw [specsOf_segments, List.zip_map]
    intro pair hpair
    obtain ⟨specs, hspecs, rfl⟩ := List.mem_map.mp hpair
    exact hkinds specs hspecs
  rw [replay, formatNow, render, render, hbytes, renderSegments_encodeAll hfeeds hstatic hzip]

/-- Replayed against a format of its own flags and with one conversion more. -/
theorem replay_eq_formatNow_longer :
    let texts : StaticTexts := [⟨4096, "ready"⟩]
    let arguments : List Argument := [.int 7, .str ⟨4096, "ready"⟩]
    let records := (capture "%d: %s" arguments 64).bytes
    replay texts records "%03i <%.2s> %x" = "007 <re> <?>" ∧
      formatNow "%03i <%.2s> %x" arguments = "007 <re> <?>" := by
  intro texts arguments records
  have hstatic : ∀ argument ∈ arguments, argument.IsStatic texts := by
    simp [arguments, texts, Argument.IsStatic, StaticTexts.find?]
  have hreplay : replay texts records "%03i <%.2s> %x" = formatNow "%03i <%.2s> %x" arguments :=
    replay_eq_formatNow hstatic (by decide +kernel) (by decide +kernel)
  have hnow : formatNow "%03i <%.2s> %x" arguments = "007 <re> <?>" := by decide +kernel
  exact ⟨hreplay.trans hnow, hnow⟩

end LogRelay.Render
