import LogRelay.Format.Segment
import LogRelay.Render.Conversion
import LogRelay.Render.Source
import LogRelay.Text.Buffer

/-!
# Formats as text

A format is rendered segment by segment over a source of values, in full or into
a bounded buffer.  Into a buffer rendering stops at the first piece that does not
fit, and asks the source for nothing more.
-/

namespace LogRelay.Render

open LogRelay.Format LogRelay.Text

variable {σ : Type}

/-- The text of one segment, and the source's state after it. -/
def renderSegment (source : Source σ) (state : σ) : Segment → List Piece × σ
  | .literal text | .unrecognized text => ([.chars text], state)
  | .percent => ([.chars ['%']], state)
  | .conversion spec =>
    match source.next spec.kind state with
    | (some value, next) => (renderValue spec value, next)
    | (none, next) => ([.chars mismatchMarker], next)

def renderSegments (source : Source σ) (state : σ) : List Segment → List Piece × σ
  | [] => ([], state)
  | segment :: rest =>
    let (pieces, next) := renderSegment source state segment
    let (others, last) := renderSegments source next rest
    (pieces ++ others, last)

/-- What rendering into a buffer leaves behind. -/
structure Outcome (σ : Type) where
  buffer : Buffer
  /-- Whether the whole text fitted. -/
  complete : Bool
  state : σ

/-- Renders segments into a buffer, up to the first piece that does not fit. -/
def renderSegmentsInto (source : Source σ) (state : σ) (buffer : Buffer) :
    List Segment → Outcome σ
  | [] => ⟨buffer, true, state⟩
  | segment :: rest =>
    let (pieces, next) := renderSegment source state segment
    match buffer.writePieces pieces with
    | (filled, true) => renderSegmentsInto source next filled rest
    | (filled, false) => ⟨filled, false, next⟩

def render (source : Source σ) (state : σ) (format : String) : String :=
  String.ofList (expandAll (renderSegments source state (segments format)).1)

/-- The text of a format over a source, as far as it fits into a buffer. -/
def renderInto (source : Source σ) (state : σ) (buffer : Buffer) (format : String) : Outcome σ :=
  renderSegmentsInto source state buffer (segments format)

/-- The text of a format with the arguments of a call site. -/
def formatNow (format : String) (arguments : List Argument) : String :=
  render Source.arguments arguments format

end LogRelay.Render
