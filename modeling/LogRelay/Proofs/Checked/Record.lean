import LogRelay.Proofs.Checked.Format
import LogRelay.Proofs.Record.RoundTrip
import LogRelay.Render.Replay

/-!
# Writing and reading records

Capture writes each record into what the ones before it have left of the argument area, and
the reader copies what it takes into words.  Sizing and writing go by the same conversions,
so the area is never too small; a value's bytes are as many as its class stores, so each copy
fills its destination.
-/

namespace LogRelay.Record

open LogRelay.Checked
open Format (Kind)

/-! ## Values -/

def lowBytes? (bits : UInt64) (width : Nat) : Option UInt64 :=
  if 8 ≤ width then return bits
  else do
    let bit ← shiftLeft? 1 (8 * width)
    let mask ← sub? bit 1
    return UInt64.ofNat (bits.toNat &&& mask)

def promote? (kind : Kind) (argument : Argument) : Option (Option Value) :=
  if kind.isInteger then
    match argument.integerBits? with
    | none => return none
    | some bits => do
      let low ← lowBytes? bits kind.promotedSize
      return some (.int low)
  else return argument.coerce? kind

theorem lowBytes?_eq (bits : UInt64) (width : Nat) :
    lowBytes? bits width = some (lowBytes bits width) := by
  rw [lowBytes?, lowBytes]
  split
  · next hwide =>
    have hlt : bits.toNat < Nat.pow 2 (8 * width) :=
      Nat.lt_of_lt_of_le bits.toNat_lt (Nat.pow_le_pow_right (by decide) (by omega))
    rw [Nat.mod_eq_of_lt hlt, UInt64.ofNat_toNat]
    rfl
  · next hnarrow =>
    have hlt : 1 * Nat.pow 2 (8 * width) < wordLimit := by
      rw [Nat.one_mul]
      exact Nat.pow_lt_pow_right (by decide) (by omega)
    have hpositive : 1 ≤ Nat.pow 2 (8 * width) := Nat.pow_pos (by decide)
    rw [shiftLeft?_of_lt (by omega), Nat.mod_eq_of_lt hlt, Nat.one_mul]
    simp only [Option.bind_eq_bind, Option.bind_some, sub?_of_le hpositive]
    rw [show Nat.pow 2 (8 * width) = 2 ^ (8 * width) from rfl, Nat.and_two_pow_sub_one_eq_mod]
    rfl

/-- The mask that keeps the bytes of a narrow class is shifted by less than a word. -/
theorem promote?_eq (kind : Kind) (argument : Argument) :
    promote? kind argument = some (argument.coerce? kind) := by
  rw [promote?]
  split
  · next hinteger =>
    have hcoerce : argument.coerce? kind =
        argument.integerBits?.map fun bits => .int (lowBytes bits kind.promotedSize) :=
      if_pos hinteger
    rw [hcoerce]
    split
    · next hbits => rw [hbits]; rfl
    · next bits hbits => rw [hbits, lowBytes?_eq]; rfl
  · rfl

/-! ## Writing -/

/-- The bytes of a value, copied over `size` bytes. -/
def copyValue? (kind : Kind) (size : Nat) : Value → Option (List UInt8)
  | .int bits => do
    let low ← take? kind.promotedSize (word bits)
    copy? size low
  | .double number => copy? size (word number.bits)
  | .str static => do
    let behind ← sub? size 8
    let address ← copy? 8 (word static.address)
    let length ← copy? behind (word static.size)
    return address ++ length
  | .pointer address => copy? size (word address)

def encode? (kind : Kind) (value : Value) (room : Nat) : Option (List UInt8) := do
  guard (0 < room)
  let size ← window? room Kind.tagSize (Kind.tagSize + kind.storedSize)
  let bytes ← copyValue? kind size value
  return kind.tag :: bytes

def transcribe? (available : Nat) :
    (index position : Nat) → List Kind → List Argument → Option Transcript
  | _, _, [], _ => return {}
  | index, _, kind :: _, [] => return { fault := some (.missingArgument index kind) }
  | index, position, kind :: kinds, argument :: arguments => do
    match ← promote? kind argument with
    | none => return { fault := some (.typeMismatch index kind argument.typeName) }
    | some value =>
      let room ← window? available position available
      let record ← encode? kind value room
      let rest ← transcribe? available (index + 1) (position + record.length) kinds arguments
      return { rest with bytes := record ++ rest.bytes }

def capture? (format : String) (arguments : List Argument) (available : Nat) :
    Option Transcript := do
  let layout ← layout? format
  if layout.count < arguments.length then
    return { fault := some (.surplusArguments layout.count arguments.length) }
  else if available < layout.encodedBytes then
    return { fault := some (.bufferTooSmall layout.encodedBytes available) }
  else
    let specs ← conversions? format
    transcribe? available 0 0 (specs.map Format.Spec.kind) arguments

theorem take_littleEndian {count size : Nat} (hle : count ≤ size) (number : Nat) :
    (littleEndian size number).take count = littleEndian count number := by
  induction count generalizing size number with
  | zero => rfl
  | succ count ih =>
    obtain ⟨size, rfl⟩ := Nat.exists_eq_add_one_of_ne_zero (Nat.ne_of_gt (Nat.lt_of_lt_of_le
      (Nat.succ_pos count) hle))
    rw [littleEndian, List.take_succ_cons, ih (Nat.le_of_succ_le_succ hle), littleEndian]

theorem copyValue?_eq {texts : StaticTexts} {kind : Kind} {value : Value}
    (hrecordable : Recordable texts kind value) :
    copyValue? kind kind.storedSize value = some (valueBytes kind value) := by
  have hlength := length_valueBytes hrecordable
  cases value with
  | int bits =>
    have hsize : kind.promotedSize ≤ 8 := by cases kind <;> decide
    have hlow : take? kind.promotedSize (word bits) = some (valueBytes kind (.int bits)) := by
      rw [take?_of_le (by rwa [length_word]), word, take_littleEndian hsize]
      rfl
    rw [copyValue?, hlow]
    exact copy?_of_length hlength
  | double number => exact copy?_of_length hlength
  | str static =>
    obtain ⟨rfl, -⟩ := hrecordable
    rfl
  | pointer address => exact copy?_of_length hlength

theorem encode?_eq {texts : StaticTexts} {kind : Kind} {value : Value} {room : Nat}
    (hrecordable : Recordable texts kind value) (hroom : kind.recordSize ≤ room) :
    encode? kind value room = some (encode kind value) := by
  rw [Kind.recordSize] at hroom
  have hpositive : 0 < room := Nat.lt_of_lt_of_le (Nat.lt_add_right _ (by decide)) hroom
  rw [encode?, guard_of hpositive, window?_of_le (Nat.le_add_right _ _) hroom,
    Nat.add_sub_cancel_left]
  simp only [Option.bind_eq_bind, Option.bind_some, copyValue?_eq hrecordable]
  rfl

/-- The records that are written fill the place that was kept for them, one behind the
other. -/
theorem transcribe?_eq (available : Nat) {index position : Nat} {kinds : List Kind}
    (arguments : List Argument)
    (hroom : position + (kinds.map Kind.recordSize).sum ≤ available) :
    transcribe? available index position kinds arguments =
      some (transcribe index kinds arguments) := by
  induction kinds generalizing index position arguments with
  | nil => rfl
  | cons kind kinds ih =>
    cases arguments with
    | nil => rfl
    | cons argument arguments =>
      rw [List.map_cons, List.sum_cons] at hroom
      rw [transcribe?, promote?_eq, transcribe]
      cases hvalue : argument.coerce? kind with
      | none => rfl
      | some value =>
        obtain ⟨texts, hrecordable⟩ := exists_recordable_of_coerce? hvalue
        have hlength := length_encode_of_coerce? hvalue
        have hwindow : window? available position available = some (available - position) :=
          window?_of_le (by omega) (Nat.le_refl _)
        have hencode : encode? kind value (available - position) = some (encode kind value) :=
          encode?_eq hrecordable (by omega)
        have hrest : transcribe? available (index + 1) (position + (encode kind value).length)
            kinds arguments = some (transcribe (index + 1) kinds arguments) :=
          ih arguments (by omega)
        simp only [Option.bind_eq_bind, Option.bind_some, hwindow, hencode, hrest]
        rfl

/-- As many bytes are set aside for the records as there are written. -/
theorem capture?_eq {format : String} (hshort : format.utf8ByteSize < formatLimit)
    (arguments : List Argument) (available : Nat) :
    capture? format arguments available = some (capture format arguments available) := by
  obtain ⟨hlayout, -⟩ := layout?_eq hshort
  simp only [capture?, capture, hlayout, conversions?_eq, Option.bind_eq_bind, Option.bind_some]
  split
  · rfl
  · split
    · rfl
    · next hroom =>
      apply transcribe?_eq
      rw [Nat.zero_add, ← layout_encodedBytes]
      exact Nat.le_of_not_lt hroom

/-! ## Reading -/

/-- Reads a word.  Where there are not as many bytes there is no word, and none is taken. -/
def takeWordInto? (bytes : List UInt8) : Option (Taken UInt64) :=
  match takeNumber? 8 bytes with
  | none => return (none, bytes)
  | some (_, rest) => do
    let raw ← copy? 8 (bytes.take 8)
    return (some (UInt64.ofNat (ofLittleEndian raw)), rest)

/-- Reads an integer of `width` bytes into the lowest bytes of a word of zeros. -/
def takeIntegerInto? (width : Nat) (bytes : List UInt8) : Option (Taken Value) :=
  match takeNumber? width bytes with
  | none => return (none, bytes)
  | some (_, rest) => do
    let low ← window? 8 0 width
    let raw ← copy? low (bytes.take width)
    let high ← sub? 8 width
    let number := ofLittleEndian (raw ++ List.replicate high 0)
    return (some (.int (UInt64.ofNat number)), rest)

def takeValueInto? (texts : StaticTexts) (kind : Kind) (bytes : List UInt8) :
    Option (Taken Value) := do
  match kind with
  | .double =>
    let (bits, rest) ← takeWordInto? bytes
    return (bits.map fun bits => .double ⟨bits⟩, rest)
  | .pointer =>
    let (address, rest) ← takeWordInto? bytes
    return (address.map .pointer, rest)
  | .str =>
    match ← takeWordInto? bytes with
    | (none, rest) => return (none, rest)
    | (some address, afterAddress) =>
      let (size, rest) ← takeWordInto? afterAddress
      return (size.bind fun size => (texts.find? address size).map .str, rest)
  | integer => takeIntegerInto? integer.promotedSize bytes

def takeRecordInto? (texts : StaticTexts) : List UInt8 → Option (Taken (Kind × Value))
  | [] => return (none, [])
  | tag :: rest =>
    match Kind.ofTag? tag with
    | none => return (none, rest)
    | some kind => do
      let (value, remaining) ← takeValueInto? texts kind rest
      return (value.map (kind, ·), remaining)

/-- Zeros at the high end do not change a number. -/
theorem ofLittleEndian_append_zeros (bytes : List UInt8) (count : Nat) :
    ofLittleEndian (bytes ++ List.replicate count 0) = ofLittleEndian bytes := by
  induction bytes with
  | nil =>
    rw [List.nil_append]
    induction count with
    | zero => rfl
    | succ count ih => simp [List.replicate_succ, ofLittleEndian, ih]
  | cons byte rest ih => rw [List.cons_append, ofLittleEndian, ih, ofLittleEndian]

/-- What is read is as many bytes as were asked for. -/
theorem takeNumber?_cases (count : Nat) (bytes : List UInt8) :
    takeNumber? count bytes = none ∨
      (takeNumber? count bytes = some (ofLittleEndian (bytes.take count), bytes.drop count) ∧
        (bytes.take count).length = count) := by
  rw [takeNumber?]
  split
  · next hle => exact Or.inr ⟨rfl, List.length_take_of_le hle⟩
  · exact Or.inl rfl

theorem takeWordInto?_eq (bytes : List UInt8) :
    takeWordInto? bytes =
      some (match takeWord? bytes with
        | some (number, rest) => (some number, rest)
        | none => (none, bytes)) := by
  rw [takeWordInto?, takeWord?]
  rcases takeNumber?_cases 8 bytes with hnone | ⟨hsome, hlength⟩
  · rw [hnone]
    rfl
  · rw [hsome]
    simp only [copy?_of_length hlength, Option.bind_eq_bind, Option.bind_some]
    rfl

theorem takeIntegerInto?_eq {width : Nat} (hwidth : width ≤ 8) (bytes : List UInt8) :
    takeIntegerInto? width bytes =
      some (match takeNumber? width bytes with
        | some (bits, rest) => (some (.int (UInt64.ofNat bits)), rest)
        | none => (none, bytes)) := by
  rw [takeIntegerInto?]
  rcases takeNumber?_cases width bytes with hnone | ⟨hsome, hlength⟩
  · rw [hnone]
    rfl
  · rw [hsome]
    simp only [window?_of_le (Nat.zero_le width) hwidth, Nat.sub_zero, copy?_of_length hlength,
      sub?_of_le hwidth, Option.bind_eq_bind, Option.bind_some, ofLittleEndian_append_zeros]
    rfl

theorem takeValueInto?_eq (texts : StaticTexts) (kind : Kind) (bytes : List UInt8) :
    takeValueInto? texts kind bytes = some (takeValue texts kind bytes) := by
  cases kind with
  | double | pointer =>
    simp only [takeValueInto?, takeValue, takeWordInto?_eq, Option.bind_eq_bind, Option.bind_some]
    cases takeWord? bytes <;> rfl
  | str =>
    simp only [takeValueInto?, takeValue, takeWordInto?_eq, Option.bind_eq_bind, Option.bind_some]
    cases takeWord? bytes with
    | none => rfl
    | some taken =>
      obtain ⟨address, afterAddress⟩ := taken
      simp only
      cases takeWord? afterAddress <;> rfl
  | int | long | longLong | size | ptrDiff | intMax => exact takeIntegerInto?_eq (by decide) bytes

/-- A record that is cut short is found out before anything is read beyond its end. -/
theorem takeRecordInto?_eq (texts : StaticTexts) (bytes : List UInt8) :
    takeRecordInto? texts bytes = some (takeRecord texts bytes) := by
  cases bytes with
  | nil => rfl
  | cons tag rest =>
    cases hkind : Kind.ofTag? tag with
    | none => simp only [takeRecordInto?, takeRecord, hkind]; rfl
    | some kind => simp only [takeRecordInto?, takeRecord, hkind, takeValueInto?_eq]; rfl

end LogRelay.Record
