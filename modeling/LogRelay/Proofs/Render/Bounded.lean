import LogRelay.Proofs.Text.Bounded
import LogRelay.Render.Format

/-!
# Rendering into a buffer

Rendering stops at the first piece that does not fit.  Whatever the source answers,
what the buffer then holds is the longest cut of the text that rendering in full gives.
-/

namespace LogRelay.Render

open LogRelay.Format LogRelay.Text

variable {σ : Type}

theorem renderSegments_cons (source : Source σ) (state : σ) (segment : Segment)
    (rest : List Segment) :
    (renderSegments source state (segment :: rest)).1 =
      (renderSegment source state segment).1 ++
        (renderSegments source (renderSegment source state segment).2 rest).1 := rfl

/-- Into a buffer with some text go the segments behind it. -/
theorem takes_renderSegmentsInto (source : Source σ) (state : σ) {buffer : Buffer}
    {capacity : Nat} {text : List Char} (hshows : buffer.Shows capacity text)
    (segments : List Segment) :
    Buffer.Takes
      ((renderSegmentsInto source state buffer segments).buffer,
        (renderSegmentsInto source state buffer segments).complete)
      capacity (text ++ expandAll (renderSegments source state segments).1) := by
  induction segments generalizing state buffer text with
  | nil => exact hshows.writePieces []
  | cons segment rest ih =>
    have htakes := hshows.writePieces (renderSegment source state segment).1
    rw [renderSegments_cons, expandAll, List.flatMap_append, ← List.append_assoc]
    simp only [renderSegmentsInto]
    cases hpieces : buffer.writePieces (renderSegment source state segment).1 with
    | mk filled complete =>
      rw [hpieces] at htakes
      cases complete with
      | true => exact ih _ (htakes.shows rfl)
      | false => exact htakes.append_of_incomplete rfl _

/-- Rendering into an empty buffer leaves the longest cut of the whole text, and is
complete exactly when the whole text fits. -/
theorem isLongestCut_renderInto (source : Source σ) (state : σ) (capacity : Nat)
    (memory : Memory) (format : String) :
    IsLongestCut capacity (render source state format)
        (renderInto source state ⟨capacity, memory, 0⟩ format).buffer.text ∧
      ((renderInto source state ⟨capacity, memory, 0⟩ format).complete = true ↔
        (render source state format).utf8ByteSize ≤ capacity) := by
  have htakes := takes_renderSegmentsInto source state (Buffer.shows_nil capacity memory)
    (segments format)
  rw [List.nil_append] at htakes
  obtain ⟨hshows, hcomplete⟩ := htakes
  rw [render, utf8ByteSize_ofList]
  refine ⟨?_, hcomplete⟩
  have htext := hshows.text_eq
  rw [renderInto, htext]
  exact isLongestCut_fit capacity _

theorem extends_renderSegmentsInto (source : Source σ) (state : σ) (buffer : Buffer)
    (segments : List Segment) :
    buffer.Extends (renderSegmentsInto source state buffer segments).buffer := by
  induction segments generalizing state buffer with
  | nil => exact .refl buffer
  | cons segment rest ih =>
    have hpieces := buffer.extends_writePieces (renderSegment source state segment).1
    simp only [renderSegmentsInto]
    cases hfilled : buffer.writePieces (renderSegment source state segment).1 with
    | mk filled complete =>
      rw [hfilled] at hpieces
      cases complete with
      | true => exact hpieces.trans (ih _ filled)
      | false => exact hpieces

/-- What rendering `whole` leaves in memory that `capacity` bytes of were to be filled:
`shown` and nothing else. -/
structure Outcome.Leaves (outcome : Outcome σ) (capacity : Nat) (memory : Memory)
    (whole shown : String) : Prop where
  isLongestCut : IsLongestCut capacity whole shown
  written_eq : outcome.buffer.written = shown.utf8ByteSize
  bytes_eq : outcome.buffer.memory.read 0 shown.utf8ByteSize = utf8 shown.toList
  untouched : ∀ position, outcome.buffer.written ≤ position →
    outcome.buffer.memory.byteAt position = memory.byteAt position
  complete_iff : outcome.complete = true ↔ whole.utf8ByteSize ≤ capacity

/-- Rendering into memory of any capacity leaves the longest cut of the whole text at its
beginning, and every byte behind that as it was. -/
theorem leaves_renderInto (source : Source σ) (state : σ) (capacity : Nat) (memory : Memory)
    (format : String) :
    ∃ shown, (renderInto source state ⟨capacity, memory, 0⟩ format).Leaves capacity memory
      (render source state format) shown := by
  obtain ⟨hcut, hcomplete⟩ := isLongestCut_renderInto source state capacity memory format
  obtain ⟨hshows, -⟩ := takes_renderSegmentsInto source state (Buffer.shows_nil capacity memory)
    (segments format)
  have hextends := extends_renderSegmentsInto source state ⟨capacity, memory, 0⟩ (segments format)
  have htext := hshows.text_eq
  refine ⟨_, hcut, ?_, ?_, hextends.untouched, hcomplete⟩
  · rw [renderInto, htext, utf8ByteSize_ofList]
    exact hshows.written_eq
  · rw [renderInto, htext, utf8ByteSize_ofList, String.toList_ofList]
    exact hshows.bytes_eq

end LogRelay.Render
