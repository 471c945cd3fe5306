import LogRelay.Proofs.Checked.Buffer
import LogRelay.Proofs.Checked.Decimal
import LogRelay.Proofs.Checked.Record

/-!
# Replaying into a buffer

A format is read, its records are taken, each value is made into text, and the text is
written into the buffer: with the checked form of every part, and to the same effect whatever
the format, the records and the buffer are.
-/

namespace LogRelay.Render

open LogRelay.Checked LogRelay.Decimal LogRelay.Format LogRelay.Record LogRelay.Text

/-! ## Values as text -/

/-- Sign extension shifts an integer up and down again by the bits that its class leaves. -/
def signedField? (spec : Spec) (bits : UInt64) : Option Field := do
  let shift ← sub? 64 (8 * min (max spec.kind.promotedSize 1) 8)
  let _ ← shiftLeft? bits.toNat shift
  return signedField spec bits

def unsignedField? (spec : Spec) (bits : UInt64) : Option Field := do
  let _ ← lowBytes? bits spec.kind.promotedSize
  return unsignedField spec bits

def charField? (bits : UInt64) : Option Field := do
  let _ ← Buffer.encodeChar? (charOfCode (bits.toNat % Nat.pow 2 32))
  return charField bits

def textField? (spec : Spec) (text : String) : Option Field := do
  let shown ←
    match spec.precision with
    | some limit => truncate? limit text.toList
    | none => some text.toList
  return { body := [.chars shown] }

def numeralFor? (spec : Spec) (number : Magnitude) : Option Numeral :=
  let precision := spec.precision.getD 6
  let alternate := spec.flags.alternate
  let upper := spec.conversion.isUpper
  match spec.conversion with
  | .f | .F => some (fixed number precision alternate)
  | .e | .E => exponential? number precision alternate upper
  | _ => general? number precision alternate upper

def realField? (spec : Spec) (number : Binary64) : Option Field := do
  let lead := signText spec.flags number.isNegative
  if number.isFinite then
    let numeral ← numeralFor? spec number.magnitude
    return { lead, body := numeral.pieces, zeroFill := true }
  else
    return { lead, body := [.chars (specialText number spec.conversion.isUpper)] }

def shownField? (spec : Spec) (value : Value) : Option (Option Field) :=
  match spec.conversion, value with
  | .d, .int bits | .i, .int bits => some <$> signedField? spec bits
  | .o, .int bits | .u, .int bits | .x, .int bits | .X, .int bits =>
    some <$> unsignedField? spec bits
  | .c, .int bits => some <$> charField? bits
  | .f, .double number | .F, .double number | .e, .double number | .E, .double number
  | .g, .double number | .G, .double number => some <$> realField? spec number
  | .s, .str static => some <$> textField? spec static.text
  | .p, .pointer address => some (some (pointerField address))
  | _, _ => some none

def renderValue? (spec : Spec) (value : Value) : Option (List Piece) :=
  match spec.conversion, value with
  | .n, .pointer _ => some []
  | _, _ => do
    match ← shownField? spec value with
    | some field => return field.pad spec
    | none => return [.chars mismatchMarker]

theorem signedField?_eq (spec : Spec) (bits : UInt64) :
    signedField? spec bits = some (signedField spec bits) := by
  have hsize : 1 ≤ spec.kind.promotedSize := by cases spec.kind <;> decide
  rw [signedField?, sub?_of_le (by omega)]
  simp only [Option.bind_eq_bind, Option.bind_some]
  rw [shiftLeft?_of_lt (by omega)]
  rfl

theorem unsignedField?_eq (spec : Spec) (bits : UInt64) :
    unsignedField? spec bits = some (unsignedField spec bits) := by
  rw [unsignedField?, lowBytes?_eq]
  rfl

theorem charField?_eq (bits : UInt64) : charField? bits = some (charField bits) := by
  rw [charField?, Buffer.encodeChar?_eq]
  rfl

theorem textField?_eq (spec : Spec) (text : String) :
    textField? spec text = some (textField spec text) := by
  rw [textField?, textField]
  cases spec.precision with
  | none => rfl
  | some limit =>
    simp only [truncate?_eq]
    rfl

theorem numeralFor?_eq (spec : Spec) {number : Magnitude} (hmoderate : Moderate number) :
    numeralFor? spec number = some (numeralFor spec number) := by
  simp only [numeralFor?, numeralFor, exponential?_eq hmoderate, general?_eq hmoderate]
  cases spec.conversion <;> rfl

theorem realField?_eq (spec : Spec) (number : Binary64) :
    realField? spec number = some (realField spec number) := by
  rw [realField?, realField]
  split
  · rw [numeralFor?_eq spec (moderate_magnitude number)]
    rfl
  · rfl

/-- No value of any class makes a conversion go wrong. -/
theorem shownField?_eq (spec : Spec) (value : Value) :
    shownField? spec value = some (field? spec value) := by
  obtain ⟨flags, width, precision, length, conversion⟩ := spec
  cases conversion <;> cases value <;>
    simp only [shownField?, field?, signedField?_eq, unsignedField?_eq, charField?_eq,
      realField?_eq, textField?_eq] <;> rfl

theorem renderValue?_eq (spec : Spec) (value : Value) :
    renderValue? spec value = some (renderValue spec value) := by
  simp only [renderValue?, renderValue, shownField?_eq, Option.bind_eq_bind, Option.bind_some]
  generalize field? spec value = field
  cases field <;> cases spec.conversion <;> cases value <;> rfl

/-! ## Formats as text -/

variable {σ : Type}

/-- A source of values that may go wrong. -/
abbrev CheckedSource (σ : Type) := Kind → σ → Option (Option Value × σ)

/-- The checked source never goes wrong and answers like the plain one. -/
def CheckedSource.Follows (checked : CheckedSource σ) (source : Source σ) : Prop :=
  ∀ kind state, checked kind state = some (source.next kind state)

/-- Records in order, each answering only a request for its own class. -/
def recordsChecked (texts : StaticTexts) : CheckedSource (List UInt8) := fun kind bytes => do
  match ← takeRecordInto? texts bytes with
  | (some (found, value), rest) => return (if found = kind then some value else none, rest)
  | (none, rest) => return (none, rest)

def renderSegment? (source : CheckedSource σ) (state : σ) : Segment → Option (List Piece × σ)
  | .literal text | .unrecognized text => some ([.chars text], state)
  | .percent => some ([.chars ['%']], state)
  | .conversion spec => do
    match ← source spec.kind state with
    | (some value, next) =>
      let pieces ← renderValue? spec value
      return (pieces, next)
    | (none, next) => return ([.chars mismatchMarker], next)

def renderSegmentsInto? (source : CheckedSource σ) (state : σ) (buffer : Buffer) :
    List Segment → Option (Outcome σ)
  | [] => some ⟨buffer, true, state⟩
  | segment :: rest => do
    let (pieces, next) ← renderSegment? source state segment
    match ← buffer.writePieces? pieces with
    | (filled, true) => renderSegmentsInto? source next filled rest
    | (filled, false) => return ⟨filled, false, next⟩

def replayInto? (texts : StaticTexts) (records : List UInt8) (buffer : Buffer)
    (format : String) : Option (Outcome (List UInt8)) := do
  let segments ← segments? format
  renderSegmentsInto? (recordsChecked texts) records buffer segments

theorem follows_records (texts : StaticTexts) :
    (recordsChecked texts).Follows (Source.records texts) := by
  intro kind bytes
  simp only [recordsChecked, takeRecordInto?_eq, Source.records, Option.bind_eq_bind,
    Option.bind_some]
  cases takeRecord texts bytes with
  | mk record rest => cases record <;> rfl

variable {checked : CheckedSource σ} {source : Source σ} {buffer : Buffer}

theorem renderSegment?_eq (hfollows : checked.Follows source) (state : σ) (segment : Segment) :
    renderSegment? checked state segment = some (renderSegment source state segment) := by
  cases segment with
  | literal text | unrecognized text => rfl
  | percent => rfl
  | conversion spec =>
    simp only [renderSegment?, renderSegment, hfollows spec.kind state, Option.bind_eq_bind,
      Option.bind_some]
    cases source.next spec.kind state with
    | mk answer next =>
      cases answer with
      | none => rfl
      | some value =>
        simp only [renderValue?_eq]
        rfl

/-- Rendering over a source that never goes wrong never does, and leaves the buffer sound. -/
theorem renderSegmentsInto?_eq (hfollows : checked.Follows source) (state : σ)
    (hsound : buffer.Sound) (segments : List Segment) :
    renderSegmentsInto? checked state buffer segments =
        some (renderSegmentsInto source state buffer segments) ∧
      (renderSegmentsInto source state buffer segments).buffer.Sound := by
  induction segments generalizing state buffer with
  | nil => exact ⟨rfl, hsound⟩
  | cons segment rest ih =>
    have hwritten := hsound.writePieces (renderSegment source state segment).1
    simp only [renderSegmentsInto?, renderSegmentsInto, renderSegment?_eq hfollows,
      hsound.writePieces?_eq, Option.bind_eq_bind, Option.bind_some]
    cases hpieces : buffer.writePieces (renderSegment source state segment).1 with
    | mk filled complete =>
      rw [hpieces] at hwritten
      cases complete with
      | true => exact ih _ hwritten
      | false => exact ⟨rfl, hwritten⟩

/-- Whatever format is replayed over whatever bytes, nothing goes wrong. -/
theorem replayInto?_eq (texts : StaticTexts) (records : List UInt8) (capacity : Nat)
    (memory : Memory) (format : String) :
    replayInto? texts records ⟨capacity, memory, 0⟩ format =
        some (replayInto texts records ⟨capacity, memory, 0⟩ format) ∧
      (replayInto texts records ⟨capacity, memory, 0⟩ format).buffer.Sound := by
  obtain ⟨hrender, hsound⟩ := renderSegmentsInto?_eq (follows_records texts) records
    (Buffer.sound_new capacity memory) (segments format)
  refine ⟨?_, hsound⟩
  rw [replayInto?, segments?_eq]
  exact hrender

end LogRelay.Render
