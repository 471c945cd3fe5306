import LogRelay.Entry
import LogRelay.Proofs.Checked.Arena
import LogRelay.Proofs.Checked.Record
import LogRelay.Proofs.Message

/-!
# Messages in slots

A message is sized from its format, recorded behind the place of its header, and headed.
All of it lies within the slot that was sized for it, and what is read back lies within the
slot as long as that has room for a header.
-/

namespace LogRelay.Message

open LogRelay.Checked

/-! ## Checked operations -/

def sizeFor? (format : String) : Option Nat := do
  let layout ← layout? format
  add? headerSize layout.encodedBytes

/-- The header, written at the beginning of a slot of `room` bytes. -/
def header? (room : Nat) (ticks : UInt64) (level : Level) : Option (List UInt8) := do
  let size ← window? room 0 headerSize
  let stampSize ← window? size 0 8
  let stamp ← copy? stampSize (Record.word ticks)
  guard (8 < size)
  let reserved ← window? size 9 size
  return stamp ++ level.number :: List.replicate reserved 0

def createIn? (took gave : Bool) (arena : Arena) (ticks : UInt64) (request : Request)
    (format : String) : Option (Arena × Except Failure Message) := do
  let required ← sizeFor? format
  match ← arena.allocateIn? took required with
  | .error cause => return (arena, .error (.resourceExhausted cause))
  | .ok (slot, taken) =>
    let available ← window? slot.length headerSize slot.length
    let transcript ← Record.capture? format request.arguments available
    let filled ← taken.write? slot headerSize transcript.bytes
    match transcript.fault with
    | some fault =>
      let released ← filled.freeIn? gave slot
      return (released, .error (.transcription fault))
    | none =>
      let header ← header? slot.length ticks request.level
      let headed ← filled.write? slot 0 header
      return (headed, .ok ⟨request.moduleName, request.functionName, format, slot⟩)

def headerBytes? (message : Message) (arena : Arena) : Option (List UInt8) := do
  let bytes ← arena.read? message.slot
  take? headerSize bytes

def ticks? (message : Message) (arena : Arena) : Option UInt64 := do
  let header ← message.headerBytes? arena
  let stamp ← take? 8 header
  let raw ← copy? 8 stamp
  return UInt64.ofNat (Record.ofLittleEndian raw)

def level? (message : Message) (arena : Arena) : Option Level := do
  let header ← message.headerBytes? arena
  let number ← header[8]?
  return (Level.ofNumber? number).getD default

def captured? (message : Message) (arena : Arena) : Option (List UInt8) := do
  let bytes ← arena.read? message.slot
  let _ ← window? bytes.length headerSize bytes.length
  return bytes.drop headerSize

def entryWith? (message : Message) (arena : Arena) (text : String) : Option Entry := do
  let level ← message.level? arena
  let ticks ← message.ticks? arena
  let captured ← message.captured? arena
  return {
    moduleName := message.moduleName
    functionName := message.functionName
    level
    format := message.format
    ticks
    text
    captured }

/-! ## Nothing goes wrong -/

variable {arena : Arena} {slots : List Slot} {format : String} {message : Message}

/-- A format that is not too long has arguments that can be counted. -/
theorem sizeFor?_eq (hshort : format.utf8ByteSize < formatLimit) :
    sizeFor? format = some (sizeFor format) := by
  obtain ⟨hlayout, hsum⟩ := layout?_eq hshort
  rw [sizeFor?, hlayout]
  exact add?_of_lt hsum

theorem header?_eq {room : Nat} (hroom : headerSize ≤ room) (ticks : UInt64) (level : Level) :
    header? room ticks level = some (header ticks level) := by
  rw [header?, window?_of_le (Nat.zero_le _) hroom]
  rfl

/-- All that is written of a message lies within the slot that was sized for it, so that placing
one never goes wrong. -/
theorem createIn?_eq (haccounts : arena.Accounts slots)
    (hshort : format.utf8ByteSize < formatLimit) (took gave : Bool) (ticks : UInt64)
    (request : Request) :
    createIn? took gave arena ticks request format =
      some (createIn took gave arena ticks request format) := by
  simp only [createIn?, sizeFor?_eq hshort, haccounts.allocateIn?_eq, Option.bind_eq_bind,
    Option.bind_some]
  cases hallocate : arena.allocateIn took (sizeFor format) with
  | error cause =>
    rw [createIn, hallocate]
    rfl
  | ok placed =>
    obtain ⟨slot, taken⟩ := placed
    have htaken : taken.Accounts (slot :: slots) := haccounts.allocateIn hallocate
    have hslot : slot.length = sizeFor format :=
      Arena.length_of_allocate (Arena.allocate_of_allocateIn hallocate)
    have hroom : headerSize ≤ slot.length := hslot ▸ Nat.le_add_right _ _
    have hfilled : (filled taken request format slot).Accounts (slot :: slots) := htaken.region _
    have hcapture : Record.capture? format request.arguments (slot.length - headerSize) =
        some (transcript request format slot) := Record.capture?_eq hshort _ _
    have hrecords : taken.write? slot headerSize (transcript request format slot).bytes =
        some (filled taken request format slot) := by
      have hlength := Record.length_capture_le format request.arguments (slot.length - headerSize)
      apply htaken.write?_eq List.mem_cons_self
      rw [transcript]
      omega
    have hheader : (filled taken request format slot).write? slot 0 (header ticks request.level) =
        some ((filled taken request format slot).write slot 0 (header ticks request.level)) := by
      apply hfilled.write?_eq List.mem_cons_self
      rwa [length_header, Nat.zero_add]
    rw [createIn_of_allocateIn hallocate]
    simp only [window?_of_le hroom (Nat.le_refl _), hcapture, hrecords, Option.bind_some]
    cases (transcript request format slot).fault with
    | some fault =>
      simp only [hfilled.freeIn?_eq]
      rfl
    | none =>
      simp only [header?_eq hroom, hheader, Option.bind_some]
      rfl

/-- What is read of a slot with room for a header has the bytes of a header. -/
theorem headerSize_le_length_read (arena : Arena) (hroom : headerSize ≤ message.slot.length) :
    headerSize ≤ (arena.read message.slot).length := by
  rwa [Arena.read, Memory.length_read]

variable (haccounts : arena.Accounts slots) (hslot : message.slot ∈ slots)
  (hroom : headerSize ≤ message.slot.length)

include haccounts hslot hroom

theorem headerBytes?_eq :
    message.headerBytes? arena = some ((arena.read message.slot).take headerSize) := by
  rw [headerBytes?, haccounts.read?_eq hslot]
  exact take?_of_le (headerSize_le_length_read arena hroom)

theorem ticks?_eq : message.ticks? arena = some (message.ticks arena) := by
  have hlength := headerSize_le_length_read arena hroom
  have hstamp : ((arena.read message.slot).take headerSize).take 8 =
      (arena.read message.slot).take 8 := List.take_take
  have hsize : ((arena.read message.slot).take 8).length = 8 :=
    List.length_take_of_le (Nat.le_trans (by decide) hlength)
  have hheader : 8 ≤ ((arena.read message.slot).take headerSize).length := by
    rw [List.length_take_of_le hlength]
    decide
  simp only [ticks?, headerBytes?_eq haccounts hslot hroom, take?_of_le hheader, hstamp,
    copy?_of_length hsize, Option.bind_eq_bind, Option.bind_some]
  rfl

theorem level?_eq : message.level? arena = some (message.level arena) := by
  have hlength := headerSize_le_length_read arena hroom
  have hinside : 8 < (arena.read message.slot).length := Nat.lt_of_lt_of_le (by decide) hlength
  have hbyte : ((arena.read message.slot).take headerSize)[8]? =
      some ((arena.read message.slot).getD 8 0) := by
    rw [List.getElem?_take_of_lt (by decide), List.getElem?_eq_getElem hinside,
      List.getD_eq_getElem?_getD, List.getElem?_eq_getElem hinside, Option.getD_some]
  simp only [level?, headerBytes?_eq haccounts hslot hroom, hbyte, Option.bind_eq_bind,
    Option.bind_some]
  rfl

theorem captured?_eq : message.captured? arena = some (message.captured arena) := by
  have hlength := headerSize_le_length_read arena hroom
  simp only [captured?, haccounts.read?_eq hslot, window?_of_le hlength (Nat.le_refl _),
    Option.bind_eq_bind, Option.bind_some]
  rfl

/-- The entry of a message is read from its slot without going beyond it. -/
theorem entryWith?_eq (text : String) :
    message.entryWith? arena text = some (message.entry arena text) := by
  simp only [entryWith?, level?_eq haccounts hslot hroom, ticks?_eq haccounts hslot hroom,
    captured?_eq haccounts hslot hroom]
  rfl

end LogRelay.Message
