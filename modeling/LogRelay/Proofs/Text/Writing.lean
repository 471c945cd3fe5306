import LogRelay.Proofs.Checked.Buffer

/-!
# Writing on after a failure

A write that does not fit fails and leaves what fits of it, and whoever writes may go on all
the same: a shorter text may still find room.  Whatever is written in whatever order, the
buffer holds whole characters, and each write adds to them the longest part of its text that
the room allows.
-/

namespace LogRelay.Text

/-! ## The room behind a cut -/

theorem fit_zero (text : List Char) : fit 0 text = [] := by
  cases text with
  | nil => rfl
  | cons char rest => rw [fit, if_neg (Nat.not_le_of_lt char.utf8Size_pos)]

/-- The first character that is left out does not fit, and none takes more than four bytes. -/
theorem sub_byteLength_fit_lt {room : Nat} {text : List Char} (hcut : fit room text ≠ text) :
    room - byteLength (fit room text) < 4 := by
  induction text generalizing room with
  | nil => exact absurd rfl hcut
  | cons char rest ih =>
    rw [fit] at hcut ⊢
    split at hcut
    · next hfits =>
      have hrest := ih fun heq => hcut (congrArg (char :: ·) heq)
      rw [if_pos hfits, byteLength_cons, ← Nat.sub_sub]
      exact hrest
    · next hfull =>
      have hsize := char.utf8Size_le_four
      rw [if_neg hfull, byteLength_nil]
      omega

/-! ## Writes -/

/-- What is written at once: a text, or one character. -/
inductive Write where
  | string (text : String)
  | single (char : Char)

def Write.text : Write → String
  | .string text => text
  | .single char => char.toString

namespace Buffer

open LogRelay.Checked

def put (buffer : Buffer) : Write → Buffer × Bool
  | .string text => buffer.write text.toList
  | .single char => buffer.write [char]

/-- A write in steps that may go wrong.  A character is encoded on its own first. -/
def put? (buffer : Buffer) : Write → Option (Buffer × Bool)
  | .string text => buffer.write? text.toList
  | .single char => do
    let _ ← encodeChar? char
    buffer.write? [char]

/-- One write after the other, whether those before it succeeded or not. -/
def putAll (buffer : Buffer) : List Write → Buffer
  | [] => buffer
  | write :: rest => (buffer.put write).1.putAll rest

def bytes (buffer : Buffer) : ByteArray :=
  (buffer.memory.read 0 buffer.written).toByteArray

variable {buffer : Buffer} {capacity : Nat} {memory : Memory} {text : List Char}

theorem put_eq_write (buffer : Buffer) (write : Write) :
    buffer.put write = buffer.write write.text.toList := by
  cases write with
  | string text => rfl
  | single char =>
    have hchars : char.toString.toList = [char] := String.toList_singleton char
    rw [Write.text, hchars, put]

theorem Sound.put?_eq (hsound : buffer.Sound) (write : Write) :
    buffer.put? write = some (buffer.put write) := by
  cases write with
  | string text => exact hsound.write?_eq text.toList
  | single char =>
    rw [put?, encodeChar?_eq]
    exact hsound.write?_eq [char]

/-! ## One write -/

/-- `result` is `before` after an attempt to add `text`, of which `kept` was added. -/
structure Adds (before : Buffer) (text : String) (result : Buffer × Bool) (kept : String) :
    Prop where
  capacity_eq : result.1.capacity = before.capacity
  longest : IsLongestCut before.room text kept
  written_eq : result.1.written = before.written + kept.utf8ByteSize
  bytes_eq : result.1.bytes = before.bytes ++ kept.toByteArray
  succeeds_iff : result.2 = true ↔ kept = text
  untouched : ∀ position, position < before.written ∨ result.1.written ≤ position →
    result.1.memory.byteAt position = before.memory.byteAt position
  /-- What is left after a failure is too short for some character. -/
  room_lt : result.2 = false → result.1.room < 4
  of_full : before.room = 0 → text ≠ "" → result = (before, false)

theorem bytes_append (buffer : Buffer) (text : List Char) :
    (buffer.append text).bytes = buffer.bytes ++ (String.ofList text).toByteArray := by
  have hbefore : (buffer.append text).memory.read 0 buffer.written =
      buffer.memory.read 0 buffer.written :=
    Memory.read_write_of_disjoint _ _ _ _ _ (Or.inl (Nat.le_of_eq (Nat.zero_add _)))
  have hbehind : (buffer.append text).memory.read buffer.written (byteLength text) = utf8 text := by
    rw [← length_utf8]
    exact Memory.read_write_self _ _ _
  rw [bytes, written_append, Memory.read_add, hbefore, Nat.zero_add, hbehind,
    List.toByteArray_append, String.toByteArray_ofList, utf8_eq_utf8Encode, bytes]

theorem write_eq_false_iff (buffer : Buffer) (text : List Char) :
    (buffer.write text).2 = false ↔ fit buffer.room text ≠ text := by
  rw [Buffer.write, decide_eq_false_iff_not, length_fit_eq_iff]

theorem Sound.write_of_full (hsound : buffer.Sound) (hfull : buffer.room = 0)
    (htext : text ≠ []) : buffer.write text = (buffer, false) := by
  have hcut : fit buffer.room text = [] := by rw [hfull, fit_zero]
  have hfails : (buffer.write text).2 = false := by
    rw [write_eq_false_iff, hcut]
    exact htext.symm
  have hsame : (buffer.write text).1 = buffer := by
    rw [Buffer.write, hcut]
    exact hsound.append_nil
  exact Prod.ext hsame hfails

theorem Sound.adds_write (hsound : buffer.Sound) (text : List Char) :
    Adds buffer (.ofList text) (buffer.write text) (.ofList (fit buffer.room text)) where
  capacity_eq := rfl
  longest := isLongestCut_fit buffer.room text
  written_eq := by
    rw [utf8ByteSize_ofList]
    exact written_append _ _
  bytes_eq := bytes_append _ _
  succeeds_iff := by
    rw [← Bool.not_eq_false, write_eq_false_iff, not_not, String.ofList_inj]
  untouched position hposition := by
    rw [Buffer.write, written_append, ← length_utf8] at hposition
    exact (Memory.byteAt_write _ _ _ _).trans (if_neg (by omega))
  room_lt hfails := by
    have hcut := (write_eq_false_iff buffer text).mp hfails
    rw [Buffer.write, room_append]
    exact sub_byteLength_fit_lt hcut
  of_full hfull htext := hsound.write_of_full hfull fun hnil => htext (by rw [hnil])

/-! ## Any writes -/

/-- What is so at all times in a buffer of this capacity that was made over this memory. -/
structure Steady (buffer : Buffer) (capacity : Nat) (memory : Memory) : Prop where
  capacity_eq : buffer.capacity = capacity
  written_le : buffer.written ≤ capacity
  valid : buffer.bytes.IsValidUTF8
  text?_eq : buffer.text? = some buffer.text
  /-- All bytes are read back as text, and nothing in their place. -/
  toByteArray_text : buffer.text.toByteArray = buffer.bytes
  text_ne : 0 < buffer.written → buffer.text ≠ ""
  untouched : ∀ position, buffer.written ≤ position →
    buffer.memory.byteAt position = memory.byteAt position
  put?_eq : ∀ write, buffer.put? write = some (buffer.put write)
  adds : ∀ write, ∃ kept, Adds buffer write.text (buffer.put write) kept
  /-- What was written stays, whatever comes behind it. -/
  kept : ∀ writes position, position < buffer.written →
    (buffer.putAll writes).memory.byteAt position = buffer.memory.byteAt position

/-- A buffer of this capacity that holds whole characters, all of them stored, and is as it was
behind them. -/
structure Filled (buffer : Buffer) (capacity : Nat) (memory : Memory) : Prop where
  shows : ∃ text, buffer.Shows capacity text
  sound : buffer.Sound
  extended : Extends ⟨capacity, memory, 0⟩ buffer

namespace Filled

theorem put (hfilled : buffer.Filled capacity memory) (write : Write) :
    (buffer.put write).1.Filled capacity memory := by
  obtain ⟨text, hshows⟩ := hfilled.shows
  rw [put_eq_write]
  exact ⟨⟨_, (hshows.write _).1⟩, hfilled.sound.write _,
    hfilled.extended.trans (extends_append buffer _)⟩

theorem adds_put (hfilled : buffer.Filled capacity memory) (write : Write) :
    ∃ kept, Adds buffer write.text (buffer.put write) kept := by
  have hadds := hfilled.sound.adds_write write.text.toList
  rw [String.ofList_toList] at hadds
  rw [put_eq_write]
  exact ⟨_, hadds⟩

theorem putAll (hfilled : buffer.Filled capacity memory) (writes : List Write) :
    (buffer.putAll writes).Filled capacity memory := by
  induction writes generalizing buffer with
  | nil => exact hfilled
  | cons write rest ih => exact ih (hfilled.put write)

theorem byteAt_putAll (hfilled : buffer.Filled capacity memory) (writes : List Write)
    {position : Nat} (hposition : position < buffer.written) :
    (buffer.putAll writes).memory.byteAt position = buffer.memory.byteAt position := by
  induction writes generalizing buffer with
  | nil => rfl
  | cons write rest ih =>
    obtain ⟨kept, hadds⟩ := hfilled.adds_put write
    have hwithin : position < (buffer.put write).1.written := by
      rw [hadds.written_eq]
      exact Nat.lt_add_right _ hposition
    exact (ih (hfilled.put write) hwithin).trans (hadds.untouched position (Or.inl hposition))

theorem steady (hfilled : buffer.Filled capacity memory) : buffer.Steady capacity memory := by
  obtain ⟨text, hshows⟩ := hfilled.shows
  have hbytes : buffer.bytes = (String.ofList text).toByteArray := by
    rw [bytes, hshows.written_eq, hshows.bytes_eq, utf8_eq_utf8Encode, String.toByteArray_ofList]
  constructor
  case capacity_eq => exact hshows.capacity_eq
  case written_le =>
    rw [hshows.written_eq]
    exact hshows.size_le
  case valid =>
    rw [hbytes]
    exact String.isValidUTF8 _
  case text?_eq => exact hfilled.sound.text?_eq
  case toByteArray_text => rw [hshows.text_eq, hbytes]
  case text_ne =>
    intro hwritten hempty
    rw [hshows.text_eq, String.ofList_eq_empty_iff] at hempty
    rw [hshows.written_eq, hempty] at hwritten
    exact Nat.lt_irrefl 0 hwritten
  case untouched => exact hfilled.extended.untouched
  case put?_eq => exact hfilled.sound.put?_eq
  case adds => exact hfilled.adds_put
  case kept => exact fun writes _ hposition => hfilled.byteAt_putAll writes hposition

end Filled

/-- Whatever is written into a buffer, and whichever of the writes fail. -/
theorem steady_putAll (capacity : Nat) (memory : Memory) (writes : List Write) :
    (putAll ⟨capacity, memory, 0⟩ writes).Steady capacity memory := by
  have hnew : Filled ⟨capacity, memory, 0⟩ capacity memory :=
    ⟨⟨[], shows_nil capacity memory⟩, sound_new capacity memory, .refl _⟩
  exact (hnew.putAll writes).steady

/-- The second text fails and takes none of the two bytes that are left, into which the character
fits. -/
example :
    let buffer := putAll ⟨5, ⟨[1, 2, 3, 4, 5, 6]⟩, 0⟩ [.string "abc", .string "€uro", .single 'é']
    buffer.memory.cells = [97, 98, 99, 195, 169, 6] ∧ buffer.written = 5 ∧
      (buffer.put (.single 'z')).2 = false := by
  decide

end Buffer

end LogRelay.Text
