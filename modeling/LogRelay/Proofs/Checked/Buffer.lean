import LogRelay.Proofs.Checked.Basic

/-!
# Writing into a bounded buffer

Every write asks how much room is left, cuts its text between characters so that it fits,
and copies the bytes over the part of the buffer that they take.  A run of one character is
written character by character until one does not fit.
-/

namespace LogRelay.Text.Buffer

open LogRelay.Checked

/-! ## Checked writes -/

def write? (buffer : Buffer) (text : List Char) : Option (Buffer × Bool) := do
  let room ← sub? buffer.capacity buffer.written
  let chunk ← truncate? room text
  let stop := buffer.written + byteLength chunk
  let size ← window? buffer.capacity buffer.written stop
  let bytes ← copy? size (utf8 chunk)
  let memory := buffer.memory.write buffer.written bytes
  return ({ buffer with memory, written := stop }, !decide (byteLength chunk < byteLength text))

/-- The bytes of a character, which go into a buffer of four. -/
def encodeChar? (char : Char) : Option (List UInt8) := do
  let size ← window? 4 0 char.utf8Size
  copy? size (utf8 [char])

/-- Appends `char` up to `count` times, one after the other. -/
def writeRun? (buffer : Buffer) (char : Char) : Nat → Option (Buffer × Bool)
  | 0 => some (buffer, true)
  | count + 1 => do
    let _ ← encodeChar? char
    match ← buffer.write? [char] with
    | (next, true) => next.writeRun? char count
    | (next, false) => return (next, false)

def writePiece? (buffer : Buffer) : Piece → Option (Buffer × Bool)
  | .chars text => buffer.write? text
  | .run char count => buffer.writeRun? char count

def writePieces? (buffer : Buffer) : List Piece → Option (Buffer × Bool)
  | [] => some (buffer, true)
  | piece :: rest => do
    match ← buffer.writePiece? piece with
    | (next, true) => next.writePieces? rest
    | (next, false) => return (next, false)

def text? (buffer : Buffer) : Option String := do
  let size ← window? buffer.capacity 0 buffer.written
  return (String.fromUTF8? (buffer.memory.read 0 size).toByteArray).getD ""

/-! ## Nothing goes wrong -/

/-- What is written lies within the capacity and is stored. -/
structure Sound (buffer : Buffer) : Prop where
  written_le : buffer.written ≤ buffer.capacity
  stored : buffer.written ≤ buffer.memory.cells.length

variable {buffer : Buffer}

theorem sound_new (capacity : Nat) (memory : Memory) : Sound ⟨capacity, memory, 0⟩ :=
  ⟨Nat.zero_le _, Nat.zero_le _⟩

theorem length_cells_write (memory : Memory) (offset : Nat) (bytes : List UInt8) :
    offset + bytes.length ≤ (memory.write offset bytes).cells.length := by
  simp only [Memory.write, List.length_append, List.rightpad, List.length_take,
    List.length_replicate, List.length_drop]
  omega

theorem Sound.append (hsound : buffer.Sound) {text : List Char}
    (hroom : byteLength text ≤ buffer.room) : (buffer.append text).Sound where
  written_le := by
    have hwritten := hsound.written_le
    rw [room] at hroom
    rw [written_append]
    change _ ≤ buffer.capacity
    omega
  stored := length_cells_write _ _ _

/-- Whatever is written, the buffer stays sound. -/
theorem Sound.write (hsound : buffer.Sound) (text : List Char) : (buffer.write text).1.Sound :=
  hsound.append (byteLength_fit_le _ _)

/-- A write is complete when no byte of its text is missing. -/
theorem write_complete (buffer : Buffer) (text : List Char) :
    (buffer.write text).2 = !decide (byteLength (fit buffer.room text) < byteLength text) := by
  have hwhole : (fit buffer.room text).length = text.length ↔ byteLength text ≤ buffer.room := by
    rw [length_fit_eq_iff, fit_eq_self_iff]
  by_cases hfits : byteLength text ≤ buffer.room
  · rw [Buffer.write, (fit_eq_self_iff _ _).mpr hfits]
    simp
  · have hless := Nat.lt_of_le_of_lt (byteLength_fit_le buffer.room text) (Nat.lt_of_not_le hfits)
    rw [Buffer.write, decide_eq_true hless, decide_eq_false (mt hwhole.mp hfits)]
    rfl

theorem Sound.write?_eq (hsound : buffer.Sound) (text : List Char) :
    buffer.write? text = some (buffer.write text) := by
  have hroom : sub? buffer.capacity buffer.written = some buffer.room :=
    sub?_of_le hsound.written_le
  have hfits := byteLength_fit_le buffer.room text
  have hstop : buffer.written + byteLength (fit buffer.room text) ≤ buffer.capacity := by
    have hwritten := hsound.written_le
    rw [room] at hfits ⊢
    omega
  have hcopy : copy? (byteLength (fit buffer.room text)) (utf8 (fit buffer.room text)) =
      some (utf8 (fit buffer.room text)) := copy?_of_length (length_utf8 _)
  simp only [write?, hroom, truncate?_eq, window?_of_le (Nat.le_add_right _ _) hstop,
    Nat.add_sub_cancel_left, hcopy, Option.bind_eq_bind, Option.bind_some]
  rw [← write_complete, ← length_utf8 (fit buffer.room text)]
  rfl

theorem encodeChar?_eq (char : Char) : encodeChar? char = some (utf8 [char]) := by
  have hsize : (utf8 [char]).length = char.utf8Size - 0 := by
    rw [length_utf8, byteLength_cons, byteLength_nil]
    rfl
  rw [encodeChar?, window?_of_le (Nat.zero_le _) char.utf8Size_le_four]
  exact copy?_of_length hsize

/-! ## Runs -/

theorem length_rightpad_take (cells : List UInt8) (offset : Nat) :
    ((cells.take offset).rightpad offset 0).length = offset := by
  rw [List.rightpad, List.length_append, List.length_replicate, List.length_take]
  omega

theorem rightpad_of_length {cells : List UInt8} {offset : Nat} (hlength : cells.length = offset) :
    cells.rightpad offset 0 = cells := by
  rw [List.rightpad, hlength, Nat.sub_self, List.replicate_zero, List.append_nil]

/-- Bytes written behind each other are written at once. -/
theorem write_write (memory : Memory) (offset : Nat) (first second : List UInt8) :
    (memory.write offset first).write (offset + first.length) second =
      memory.write offset (first ++ second) := by
  have hlength := length_rightpad_take memory.cells offset
  have hbefore : ((memory.cells.take offset).rightpad offset 0 ++ first).length =
      offset + first.length := by rw [List.length_append, hlength]
  have hbehind : (memory.cells.drop (offset + first.length)).drop second.length =
      memory.cells.drop (offset + (first ++ second).length) := by
    rw [List.drop_drop, List.length_append, Nat.add_assoc]
  have hdrop : ((memory.cells.take offset).rightpad offset 0 ++ first ++
      memory.cells.drop (offset + first.length)).drop (offset + first.length + second.length) =
        memory.cells.drop (offset + (first ++ second).length) := by
    rw [← List.drop_drop, ← hbefore, List.drop_left, hbefore, hbehind]
  simp only [Memory.write, hdrop]
  rw [← hbefore, List.take_left, hbefore, rightpad_of_length hbefore]
  simp only [List.append_assoc]

theorem append_append (buffer : Buffer) (first second : List Char) :
    (buffer.append first).append second = buffer.append (first ++ second) := by
  have hbytes : utf8 (first ++ second) = utf8 first ++ utf8 second := List.flatMap_append
  simp only [append, hbytes, List.length_append, write_write, Nat.add_assoc]

theorem Sound.append_nil (hsound : buffer.Sound) : buffer.append [] = buffer := by
  have hmemory : buffer.memory.write buffer.written [] = buffer.memory := by
    have hlength : (buffer.memory.cells.take buffer.written).length = buffer.written :=
      List.length_take_of_le hsound.stored
    simp only [Memory.write, rightpad_of_length hlength, List.append_nil, List.length_nil,
      Nat.add_zero, List.take_append_drop]
  change { buffer with memory := buffer.memory.write buffer.written [], written := _ } = buffer
  rw [hmemory]
  rfl

theorem room_append (buffer : Buffer) (text : List Char) :
    (buffer.append text).room = buffer.room - byteLength text := by
  rw [room, written_append, room, Nat.sub_sub]
  rfl

/-- A text is written in two parts, the second only when the first one fitted. -/
theorem write_append (buffer : Buffer) (first second : List Char) :
    buffer.write (first ++ second) =
      match buffer.write first with
      | (next, true) => next.write second
      | (next, false) => (next, false) := by
  by_cases hfits : byteLength first ≤ buffer.room
  · have hfirst := (fit_eq_self_iff _ _).mpr hfits
    have hwrite : buffer.write first = (buffer.append first, true) := by
      rw [Buffer.write, hfirst]
      simp
    rw [hwrite]
    simp only [Buffer.write, fit_append, if_pos hfits, room_append, append_append,
      List.length_append, Nat.add_left_cancel_iff]
  · have hless := Nat.lt_of_le_of_lt (byteLength_fit_le buffer.room first) (Nat.lt_of_not_le hfits)
    have hcut : fit buffer.room (first ++ second) = fit buffer.room first := by
      rw [fit_append, if_neg hfits]
    have hincomplete : (buffer.write first).2 = false := by
      rw [write_complete, decide_eq_true hless]
      rfl
    have hlonger : byteLength (fit buffer.room first) < byteLength (first ++ second) := by
      rw [byteLength_append]
      omega
    have hwhole : (buffer.write (first ++ second)).2 = false := by
      rw [write_complete, hcut, decide_eq_true hlonger]
      rfl
    have hsame : (buffer.write (first ++ second)).1 = (buffer.write first).1 := by
      simp only [Buffer.write, hcut]
    split
    · next heq => exact absurd (hincomplete.symm.trans (congrArg Prod.snd heq)) (by simp)
    · next heq => exact Prod.ext (hsame.trans (congrArg Prod.fst heq)) hwhole

theorem Sound.write_nil (hsound : buffer.Sound) : buffer.write [] = (buffer, true) := by
  have hfit : fit buffer.room [] = [] := rfl
  rw [Buffer.write, hfit]
  simp only [hsound.append_nil, decide_true]

/-- A run is written one character after the other, and each of them finds the buffer sound. -/
theorem Sound.writeRun?_eq (hsound : buffer.Sound) (char : Char) (count : Nat) :
    buffer.writeRun? char count = some (buffer.writeRun char count) := by
  rw [writeRun_eq_write]
  induction count generalizing buffer with
  | zero => rw [writeRun?, List.replicate_zero, hsound.write_nil]
  | succ count ih =>
    have hnext := hsound.write [char]
    have hrun := write_append buffer [char] (List.replicate count char)
    rw [List.singleton_append, ← List.replicate_succ] at hrun
    rw [writeRun?, encodeChar?_eq, hsound.write?_eq, hrun]
    simp only [Option.bind_eq_bind, Option.bind_some]
    cases hfirst : buffer.write [char] with
    | mk next complete =>
      rw [hfirst] at hnext
      cases complete with
      | true => exact ih hnext
      | false => rfl

/-! ## Pieces -/

theorem Sound.writePiece (hsound : buffer.Sound) (piece : Piece) :
    (buffer.writePiece piece).1.Sound := by
  cases piece with
  | chars text => exact hsound.write text
  | run char count =>
    rw [Buffer.writePiece, writeRun_eq_write]
    exact hsound.write _

theorem Sound.writePieces (hsound : buffer.Sound) (pieces : List Piece) :
    (buffer.writePieces pieces).1.Sound := by
  induction pieces generalizing buffer with
  | nil => exact hsound
  | cons piece rest ih =>
    have hpiece := hsound.writePiece piece
    rw [Buffer.writePieces]
    split
    · next heq =>
      rw [heq] at hpiece
      exact ih hpiece
    · next heq =>
      rw [heq] at hpiece
      exact hpiece

theorem Sound.writePiece?_eq (hsound : buffer.Sound) (piece : Piece) :
    buffer.writePiece? piece = some (buffer.writePiece piece) := by
  cases piece with
  | chars text => exact hsound.write?_eq text
  | run char count => exact hsound.writeRun?_eq char count

theorem Sound.writePieces?_eq (hsound : buffer.Sound) (pieces : List Piece) :
    buffer.writePieces? pieces = some (buffer.writePieces pieces) := by
  induction pieces generalizing buffer with
  | nil => rfl
  | cons piece rest ih =>
    have hpiece := hsound.writePiece piece
    rw [writePieces?, Buffer.writePieces]
    simp only [hsound.writePiece?_eq, Option.bind_eq_bind, Option.bind_some]
    cases hwritten : buffer.writePiece piece with
    | mk next complete =>
      rw [hwritten] at hpiece
      cases complete with
      | true => exact ih hpiece
      | false => rfl

/-- All bytes up to what is written are stored. -/
theorem Sound.text?_eq (hsound : buffer.Sound) : buffer.text? = some buffer.text := by
  rw [text?, window?_of_le (Nat.zero_le _) hsound.written_le]
  rfl

end LogRelay.Text.Buffer
