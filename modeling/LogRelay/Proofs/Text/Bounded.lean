import LogRelay.Text.Buffer

/-!
# What a bounded buffer holds

However text comes in, in one write or in many and as characters or as runs, a buffer
holds the longest initial stretch of all of it that its capacity allows, and a write
succeeds exactly when nothing had to be left out so far.  The bytes behind the text stay
what they were.
-/

namespace LogRelay.Text

/-! ## Cuts between characters -/

/-- `shown` is the longest initial stretch of `whole` that takes at most `limit` bytes
and does not end inside a character. -/
structure IsLongestCut (limit : Nat) (whole shown : String) : Prop where
  isInitial : shown.toList <+: whole.toList
  size_le : shown.utf8ByteSize ≤ limit
  longest : ∀ other : String, other.toList <+: whole.toList → other.utf8ByteSize ≤ limit →
    other.utf8ByteSize ≤ shown.utf8ByteSize

theorem utf8_eq_utf8Encode (text : List Char) : (utf8 text).toByteArray = text.utf8Encode := rfl

theorem utf8ByteSize_ofList (text : List Char) :
    (String.ofList text).utf8ByteSize = byteLength text := by
  rw [← String.size_toByteArray, String.toByteArray_ofList, ← utf8_eq_utf8Encode,
    List.size_toByteArray, length_utf8]

/-- Every initial stretch that fits is part of the cut. -/
theorem isPrefix_fit {room : Nat} {initial text : List Char} (hinitial : initial <+: text)
    (hroom : byteLength initial ≤ room) : initial <+: fit room text := by
  obtain ⟨rest, rfl⟩ := hinitial
  rw [fit_append, if_pos hroom]
  exact List.prefix_append _ _

theorem length_fit_eq_iff (room : Nat) (text : List Char) :
    (fit room text).length = text.length ↔ fit room text = text :=
  ⟨(fit_isPrefix room text).eq_of_length, congrArg List.length⟩

theorem isLongestCut_fit (limit : Nat) (text : List Char) :
    IsLongestCut limit (String.ofList text) (String.ofList (fit limit text)) where
  isInitial := by
    rw [String.toList_ofList, String.toList_ofList]
    exact fit_isPrefix limit text
  size_le := by
    rw [utf8ByteSize_ofList]
    exact byteLength_fit_le limit text
  longest other hinitial hsize := by
    rw [← String.ofList_toList (s := other), utf8ByteSize_ofList] at hsize ⊢
    rw [String.toList_ofList] at hinitial
    obtain ⟨rest, hrest⟩ := isPrefix_fit hinitial hsize
    rw [utf8ByteSize_ofList, ← hrest, byteLength_append]
    exact Nat.le_add_right _ _

theorem fit_replicate (room : Nat) (char : Char) (count : Nat) :
    fit room (List.replicate count char) =
      List.replicate (min count (room / char.utf8Size)) char := by
  induction count generalizing room with
  | zero => simp [fit]
  | succ count ih =>
    have hpositive := char.utf8Size_pos
    rw [List.replicate_succ, fit, ih]
    split
    · next hfits =>
      rw [← List.replicate_succ, Nat.div_eq room, if_pos ⟨hpositive, hfits⟩,
        Nat.add_min_add_right]
    · next hfull =>
      rw [Nat.div_eq_of_lt (Nat.lt_of_not_le hfull), Nat.min_zero, List.replicate_zero]

/-! ## Buffers -/

namespace Buffer

/-- The buffer has this capacity and holds exactly this text. -/
structure Shows (buffer : Buffer) (capacity : Nat) (text : List Char) : Prop where
  capacity_eq : buffer.capacity = capacity
  written_eq : buffer.written = byteLength text
  bytes_eq : buffer.memory.read 0 (byteLength text) = utf8 text
  size_le : byteLength text ≤ capacity

variable {buffer : Buffer} {capacity : Nat} {text : List Char}

theorem shows_nil (capacity : Nat) (memory : Memory) : Shows ⟨capacity, memory, 0⟩ capacity [] where
  capacity_eq := rfl
  written_eq := rfl
  bytes_eq := rfl
  size_le := Nat.zero_le _

theorem Shows.room_eq (hshows : buffer.Shows capacity text) :
    buffer.room = capacity - byteLength text := by
  rw [room, hshows.capacity_eq, hshows.written_eq]

theorem Shows.text_eq (hshows : buffer.Shows capacity text) :
    buffer.text = String.ofList text := by
  have hvalid : text.utf8Encode.IsValidUTF8 := ⟨text, rfl⟩
  rw [Buffer.text, hshows.written_eq, hshows.bytes_eq, utf8_eq_utf8Encode, String.fromUTF8?,
    dif_pos hvalid]
  rfl

theorem Shows.append (hshows : buffer.Shows capacity text) {more : List Char}
    (hroom : byteLength more ≤ capacity - byteLength text) :
    (buffer.append more).Shows capacity (text ++ more) where
  capacity_eq := hshows.capacity_eq
  written_eq := by rw [written_append, hshows.written_eq, byteLength_append]
  bytes_eq := by
    have hbefore : (buffer.append more).memory.read 0 (byteLength text) = utf8 text := by
      rw [← hshows.bytes_eq]
      exact Memory.read_write_of_disjoint _ _ _ _ _ (Or.inl (by rw [hshows.written_eq]; simp))
    have hbehind : (buffer.append more).memory.read (byteLength text) (byteLength more) =
        utf8 more := by
      rw [← length_utf8 more, ← hshows.written_eq]
      exact Memory.read_write_self _ _ _
    rw [byteLength_append, Memory.read_add, hbefore, Nat.zero_add, hbehind, utf8, utf8, utf8,
      List.flatMap_append]
  size_le := by
    have hsize := hshows.size_le
    rw [byteLength_append]
    omega

/-- What was asked of a buffer in all is there as far as it fits, and `complete` tells
whether all of it is. -/
def Takes (result : Buffer × Bool) (capacity : Nat) (text : List Char) : Prop :=
  result.1.Shows capacity (fit capacity text) ∧ (result.2 = true ↔ byteLength text ≤ capacity)

theorem Takes.shows {result : Buffer × Bool} (htakes : Takes result capacity text)
    (hcomplete : result.2 = true) : result.1.Shows capacity text := by
  have hfits := (fit_eq_self_iff capacity text).mpr (htakes.2.mp hcomplete)
  rw [← hfits]
  exact htakes.1

/-- What is asked for later makes no difference once something did not fit. -/
theorem Takes.append_of_incomplete {result : Buffer × Bool} (htakes : Takes result capacity text)
    (hcomplete : result.2 = false) (more : List Char) : Takes result capacity (text ++ more) := by
  have hfull : ¬ byteLength text ≤ capacity := by rw [← htakes.2, hcomplete]; simp
  constructor
  · rw [fit_append, if_neg hfull]
    exact htakes.1
  · rw [hcomplete, byteLength_append]
    simp only [Bool.false_eq_true, false_iff]
    omega

theorem Shows.write (hshows : buffer.Shows capacity text) (more : List Char) :
    Takes (buffer.write more) capacity (text ++ more) := by
  constructor
  · rw [fit_append, if_pos hshows.size_le, ← hshows.room_eq]
    apply hshows.append
    rw [hshows.room_eq]
    exact byteLength_fit_le _ _
  · have hsize := hshows.size_le
    rw [Buffer.write, decide_eq_true_iff, length_fit_eq_iff, fit_eq_self_iff, hshows.room_eq,
      byteLength_append]
    omega

theorem writeRun_eq_write (buffer : Buffer) (char : Char) (count : Nat) :
    buffer.writeRun char count = buffer.write (List.replicate count char) := by
  rw [writeRun, Buffer.write, fit_replicate, List.length_replicate, List.length_replicate]

theorem Shows.writePiece (hshows : buffer.Shows capacity text) (piece : Piece) :
    Takes (buffer.writePiece piece) capacity (text ++ piece.expand) := by
  cases piece with
  | chars more => exact hshows.write more
  | run char count =>
    rw [Buffer.writePiece, writeRun_eq_write]
    exact hshows.write _

theorem Shows.writePieces (hshows : buffer.Shows capacity text) (pieces : List Piece) :
    Takes (buffer.writePieces pieces) capacity (text ++ expandAll pieces) := by
  induction pieces generalizing buffer text with
  | nil =>
    rw [Buffer.writePieces, expandAll, List.flatMap_nil, List.append_nil]
    constructor
    · rw [(fit_eq_self_iff capacity text).mpr hshows.size_le]
      exact hshows
    · exact iff_of_true rfl hshows.size_le
  | cons piece rest ih =>
    have htakes := hshows.writePiece piece
    rw [expandAll, List.flatMap_cons, ← List.append_assoc, Buffer.writePieces]
    cases hpiece : buffer.writePiece piece with
    | mk next complete =>
      rw [hpiece] at htakes
      cases complete with
      | true => exact ih (htakes.shows rfl)
      | false => exact htakes.append_of_incomplete rfl _

/-! ## Bytes behind the text -/

/-- A buffer after more was written: what was not reached is as it was. -/
structure Extends (before after : Buffer) : Prop where
  written_le : before.written ≤ after.written
  untouched : ∀ position, after.written ≤ position →
    after.memory.byteAt position = before.memory.byteAt position

@[refl]
theorem Extends.refl (buffer : Buffer) : Extends buffer buffer :=
  ⟨Nat.le_refl _, fun _ _ => rfl⟩

theorem Extends.trans {before middle after : Buffer} (hbefore : Extends before middle)
    (hafter : Extends middle after) : Extends before after where
  written_le := Nat.le_trans hbefore.written_le hafter.written_le
  untouched position hposition := by
    rw [hafter.untouched position hposition]
    exact hbefore.untouched position (Nat.le_trans hafter.written_le hposition)

theorem extends_append (buffer : Buffer) (text : List Char) :
    Extends buffer (buffer.append text) where
  written_le := by
    rw [written_append]
    exact Nat.le_add_right _ _
  untouched position hposition := by
    rw [written_append, ← length_utf8] at hposition
    exact (Memory.byteAt_write _ _ _ _).trans (if_neg (by omega))

theorem extends_writePiece (buffer : Buffer) (piece : Piece) :
    Extends buffer (buffer.writePiece piece).1 := by
  cases piece with
  | chars text => exact buffer.extends_append _
  | run char count => exact buffer.extends_append _

theorem extends_writePieces (buffer : Buffer) (pieces : List Piece) :
    Extends buffer (buffer.writePieces pieces).1 := by
  induction pieces generalizing buffer with
  | nil => exact .refl buffer
  | cons piece rest ih =>
    have hpiece := buffer.extends_writePiece piece
    rw [writePieces]
    split
    · next next heq =>
      rw [heq] at hpiece
      exact hpiece.trans (ih next)
    · next next heq =>
      rw [heq] at hpiece
      exact hpiece

end Buffer

end LogRelay.Text
