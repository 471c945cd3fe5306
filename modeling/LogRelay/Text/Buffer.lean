import LogRelay.Memory
import LogRelay.Text.Piece

/-!
# Bounded text buffers

A buffer takes text until its capacity is reached.  A write that does not fit
keeps the longest whole-character prefix that does and reports failure; a
shorter write may still succeed after that.  Bytes past the written ones are
never touched.
-/

namespace LogRelay.Text

/-- `written` bytes of text at the start of `capacity` bytes of memory. -/
structure Buffer where
  capacity : Nat
  memory : Memory
  written : Nat := 0

namespace Buffer

def room (buffer : Buffer) : Nat :=
  buffer.capacity - buffer.written

/-- Appends characters that are known to fit. -/
def append (buffer : Buffer) (text : List Char) : Buffer :=
  let bytes := utf8 text
  { buffer with
    memory := buffer.memory.write buffer.written bytes
    written := buffer.written + bytes.length }

/-- Appends as much of `text` as fits; true when that is all of it. -/
def write (buffer : Buffer) (text : List Char) : Buffer × Bool :=
  let kept := fit buffer.room text
  (buffer.append kept, kept.length = text.length)

/-- Appends `char` up to `count` times, as often as it fits; true when that is
`count` times. -/
def writeRun (buffer : Buffer) (char : Char) (count : Nat) : Buffer × Bool :=
  let kept := min count (buffer.room / char.utf8Size)
  (buffer.append (List.replicate kept char), kept = count)

/-- Appends one piece, or as much of it as fits. -/
def writePiece (buffer : Buffer) : Piece → Buffer × Bool
  | .chars text => buffer.write text
  | .run char count => buffer.writeRun char count

def writePieces (buffer : Buffer) : List Piece → Buffer × Bool
  | [] => (buffer, true)
  | piece :: rest =>
    match buffer.writePiece piece with
    | (next, true) => next.writePieces rest
    | (next, false) => (next, false)

/-- The text written so far; empty should the bytes not be UTF-8. -/
def text (buffer : Buffer) : String :=
  (String.fromUTF8? (buffer.memory.read 0 buffer.written).toByteArray).getD ""

@[simp]
theorem written_append (buffer : Buffer) (text : List Char) :
    (buffer.append text).written = buffer.written + byteLength text := by
  simp [append]

end Buffer

end LogRelay.Text
